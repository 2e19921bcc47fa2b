import HotRod.Operations.Answers

/-! The bodies the protocol allows, and the operations that read them.

`Body` is the protocol's side: what follows the header of a response with a given
status. `Clean` is the code's side: the statuses for which an operation reads the
body that belongs to them. Every operation finishes a clean response by draining
the connection and an unclean one by leaving the body on it. -/

set_option autoImplicit false

namespace HotRod.Operations

open Semantics.Execution
open Protocol HotRodConstants
open WireFormat (Bytes)

variable {R X : Type} {status : UInt8} {body : List UInt8} {u : Connection}

/-! ### Bodies -/

def encodePair (pair : Bytes × Bytes) : List UInt8 :=
  WireFormat.array.encode pair.1 ++ WireFormat.array.encode pair.2

def encodeSpan (flag infinite : UInt8) (span : UInt64 × UInt32) : List UInt8 :=
  if flag &&& infinite ≠ infinite then WireFormat.long.encode span.1 ++
    WireFormat.vInt.encode span.2 else []

def IsValue (body : List UInt8) : Prop := ∃ value, body = WireFormat.array.encode value

def IsVersioned (body : List UInt8) : Prop :=
  ∃ version value, body = WireFormat.long.encode version ++ WireFormat.array.encode value

def IsMetadata (body : List UInt8) : Prop :=
  ∃ flag lifespan maxIdle version value, body = WireFormat.byte.encode flag
    ++ (encodeSpan flag infiniteLifespan lifespan ++ (encodeSpan flag infiniteMaxidle maxIdle
    ++ (WireFormat.long.encode version ++ WireFormat.array.encode value)))

def IsMarked (encode : X → List UInt8) (body : List UInt8) : Prop :=
  ∃ xs : List X, body = xs.flatMap (fun x => 1 :: encode x) ++ [0]

def IsCounted (bound : Nat) (encode : X → List UInt8) (body : List UInt8) : Prop :=
  ∃ xs : List X, xs.length < bound ∧
    body = WireFormat.vInt.encode (UInt32.ofNat xs.length) ++ xs.flatMap encode

def IsEncoded (format : WireFormat X) (body : List UInt8) : Prop := ∃ x, body = format.encode x

def IsConfiguration (body : List UInt8) : Prop := ∃ c, body = writeConfiguration c

def PreviousValue (status : UInt8) (body : List UInt8) : Prop :=
  if hasPrevious status then IsValue body else body = []

def OnSuccess (payload : List UInt8 → Prop) (status : UInt8) (body : List UInt8) : Prop :=
  if isSuccess status then payload body else body = []

namespace Command

-- The number of statistics is a signed integer on both sides.
def Body : Command → UInt8 → List UInt8 → Prop
  | put _ | putIfAbsent _ | replace _ | replaceIfUnmodified .. | remove _ | removeIfUnmodified .. =>
    PreviousValue
  | get _ | query _ | executeCmd .. => OnSuccess IsValue
  | getWithVersion _ => OnSuccess IsVersioned
  | getWithMetadata _ => OnSuccess IsMetadata
  | bulkGet _ => OnSuccess (IsMarked encodePair)
  | bulkGetKeys _ => OnSuccess (IsMarked WireFormat.array.encode)
  | size => OnSuccess (IsEncoded WireFormat.vInt)
  | stats => OnSuccess (IsCounted (2 ^ 31) encodePair)
  | getAll _ => OnSuccess (IsCounted (2 ^ 32) encodePair)
  | prepareCommit .. | commit _ | rollback _ => OnSuccess (IsEncoded WireFormat.fourByteInt)
  | getCounterConfiguration _ => OnSuccess IsConfiguration
  | getCounterNames => OnSuccess (IsCounted (2 ^ 32) WireFormat.array.encode)
  | getCounterValue _ | addAndGetCounterValue .. | compareAndSwapCounterValue .. =>
    OnSuccess (IsEncoded WireFormat.long)
  | containsKey _ | clear | ping | defineCounter .. | resetCounter _ | removeCounter _
  | isCounterDefined _ | addCounterListener .. | removeCounterListener ..
  | removeClientListener _ | addClientListener .. => fun _ body => body = []

/-- The operation reads the body that belongs to the status. -/
def Clean : Command → UInt8 → Bool
  | put _, status => isSuccess status || !hasPrevious status
  | putIfAbsent _, status => isNotExecuted status || !hasPrevious status
  | getAll _, status | compareAndSwapCounterValue .., status =>
    status == noErrorStatus || !isSuccess status
  | _, _ => true

def opCode : Command → OpCode
  | get _ => .get
  | put _ => .put
  | putIfAbsent _ => .putIfAbsent
  | replace _ => .replace
  | replaceIfUnmodified .. => .replaceIfUnmodified
  | remove _ => .remove
  | removeIfUnmodified .. => .removeIfUnmodified
  | containsKey _ => .containsKey
  | getWithVersion _ => .getWithVersion
  | getWithMetadata _ => .getWithMetadata
  | bulkGet _ => .bulkGet
  | bulkGetKeys _ => .bulkGetKeys
  | clear => .clear
  | size => .size
  | stats => .stats
  | ping => .ping
  | query _ => .query
  | executeCmd .. => .exec
  | getAll _ => .getAll
  | prepareCommit .. => .prepare
  | commit _ => .commit
  | rollback _ => .rollback
  | defineCounter .. | isCounterDefined _ => .counterCreate
  | getCounterConfiguration _ => .counterGetConfiguration
  | resetCounter _ => .counterReset
  | removeCounter _ => .counterRemove
  | getCounterNames => .counterGetNames
  | getCounterValue _ => .counterGet
  | addAndGetCounterValue .. => .counterAddAndGet
  | compareAndSwapCounterValue .. => .counterCas
  | addCounterListener .. => .counterAddListener
  | removeCounterListener .. => .counterRemoveListener
  | removeClientListener _ => .removeClientListener
  | addClientListener .. => .addClientListener

end Command

/-! ### Readers -/

theorem consumes_readValue (value : Bytes) :
    Consumes readValue (WireFormat.array.encode value) value.1 :=
  (consumes_read WireFormat.array value).map _

theorem consumes_readPair (pair : Bytes × Bytes) :
    Consumes readPair (encodePair pair) (pair.1.1, pair.2.1) :=
  (consumes_readValue pair.1).bind ((consumes_readValue pair.2).map _)

theorem consumes_readSpan (flag infinite : UInt8) (span : UInt64 × UInt32) :
    ∃ read, Consumes (readSpan flag infinite) (encodeSpan flag infinite span) read := by
  by_cases finite : flag &&& infinite ≠ infinite
  · refine ⟨some (span.1, span.2), ?_⟩
    rw [readSpan, encodeSpan, if_pos finite, if_pos finite]
    exact (consumes_read WireFormat.long span.1).bind ((consumes_read WireFormat.vInt span.2).map _)
  · refine ⟨none, ?_⟩
    rw [readSpan, encodeSpan, if_neg finite, if_neg finite]
    exact consumes_pure none

theorem consumes_readMetadata_value (flag : UInt8) (lifespan maxIdle : UInt64 × UInt32)
    (version : UInt64) (value : Bytes) :
    ∃ life idle, Consumes readMetadata (WireFormat.byte.encode flag
      ++ (encodeSpan flag infiniteLifespan lifespan ++ (encodeSpan flag infiniteMaxidle maxIdle
      ++ (WireFormat.long.encode version ++ WireFormat.array.encode value))))
        (some { lifespan := life, maxIdle := idle, version, value := value.1 }) := by
  obtain ⟨life, lives⟩ := consumes_readSpan flag infiniteLifespan lifespan
  obtain ⟨idle, idles⟩ := consumes_readSpan flag infiniteMaxidle maxIdle
  refine ⟨life, idle, ?_⟩
  refine (consumes_read WireFormat.byte flag).bind (lives.bind (idles.bind ?_))
  exact (consumes_read WireFormat.long version).bind ((consumes_readValue value).map _)

theorem consumes_readMetadata (flag : UInt8) (lifespan maxIdle : UInt64 × UInt32) (version : UInt64)
    (value : Bytes) :
    ∃ read, Consumes readMetadata (WireFormat.byte.encode flag
      ++ (encodeSpan flag infiniteLifespan lifespan ++ (encodeSpan flag infiniteMaxidle maxIdle
      ++ (WireFormat.long.encode version ++ WireFormat.array.encode value)))) read := by
  obtain ⟨life, idle, reads⟩ := consumes_readMetadata_value flag lifespan maxIdle version value
  exact ⟨_, reads⟩

theorem counterType_counterFlags (type : CounterType) (persistent : Bool) :
    counterType (counterFlags type persistent) = some type := by
  cases type <;> cases persistent <;> rfl

theorem consumes_readCounterFields (c : CounterConfiguration) (persistent : Bool) :
    ∃ read, Consumes (readCounterFields persistent c.type) (writeCounterFields c) read := by
  obtain ⟨initialValue, lowerBound, upperBound, concurrencyLevel, type, _⟩ := c
  have last := consumes_read WireFormat.long initialValue
  cases type with
  | weak => exact ⟨_, (consumes_read WireFormat.vInt concurrencyLevel).bind (last.map _)⟩
  | boundedStrong =>
    exact ⟨_, (consumes_read WireFormat.long lowerBound).bind
      ((consumes_read WireFormat.long upperBound).bind (last.map _))⟩
  | unboundedStrong => exact ⟨_, last.map _⟩

theorem consumes_readConfiguration (c : CounterConfiguration) :
    ∃ read, Consumes readConfiguration (writeConfiguration c) read := by
  obtain ⟨read, fields⟩ :=
    consumes_readCounterFields c (counterFlags c.type c.persistent &&& 0x04 != 0)
  refine ⟨read, (consumes_read WireFormat.byte (counterFlags c.type c.persistent)).bind ?_⟩
  rw [counterType_counterFlags]
  exact fields

theorem consumes_value (value : IsValue body) : ∃ read, Consumes readValue body read := by
  obtain ⟨value, rfl⟩ := value
  exact ⟨_, consumes_readValue value⟩

theorem consumes_versioned (versioned : IsVersioned body) :
    ∃ read, Consumes readVersioned body read := by
  obtain ⟨version, value, rfl⟩ := versioned
  exact ⟨_, (consumes_read WireFormat.long version).bind ((consumes_readValue value).map _)⟩

theorem consumes_metadata (metadata : IsMetadata body) :
    ∃ read, Consumes readMetadata body read := by
  obtain ⟨flag, lifespan, maxIdle, version, value, rfl⟩ := metadata
  exact consumes_readMetadata flag lifespan maxIdle version value

theorem consumes_configuration (configuration : IsConfiguration body) :
    ∃ read, Consumes readConfiguration body read := by
  obtain ⟨c, rfl⟩ := configuration
  exact consumes_readConfiguration c

theorem consumes_encoded {format : WireFormat X} (encoded : IsEncoded format body) :
    ∃ x, Consumes (read format) body x := by
  obtain ⟨x, rfl⟩ := encoded
  exact ⟨x, consumes_read format x⟩

theorem signed_count {n : Nat} (bound : n < 2 ^ 31) : (UInt32.ofNat n).toInt32.toNatClampNeg = n :=
  Int32.toNatClampNeg_ofNat_of_lt bound

theorem consumes_counted {reader : ConnectionM R} {encode : X → List UInt8} {value : X → R}
    {bound : Nat} {number : UInt32 → Nat} (numbered : ∀ n < bound, number (UInt32.ofNat n) = n)
    (one : ∀ x, Consumes reader (encode x) (value x)) (counted : IsCounted bound encode body) :
    ∃ read, Consumes (do
      let count ← readVInt
      readMany reader (number count)) body read := by
  obtain ⟨xs, fits, rfl⟩ := counted
  refine ⟨xs.map value, (consumes_read WireFormat.vInt (UInt32.ofNat xs.length)).bind ?_⟩
  rw [numbered xs.length fits]
  exact consumes_readMany fun x _ => one x

theorem consumes_marked {reader : ConnectionM R} {encode : X → List UInt8} {value : X → R}
    (one : ∀ x, Consumes reader (encode x) (value x)) (marked : IsMarked encode body) :
    ∃ read, Consumes (readWhileMarked reader) body read := by
  obtain ⟨xs, rfl⟩ := marked
  exact ⟨_, consumes_readWhileMarked one (by decide)⟩

/-! ### Finishing a response -/

/-- What the operation does with the status is all right where the status is clean. -/
structure Finishes (cmd : Command) (finish : UInt8 → ConnectionM R) : Prop where
  drains : ∀ {status : UInt8} {body : List UInt8} {u : Connection}, cmd.Body status body →
    cmd.Clean status = true → u.unread = body → u.output = [] → Drains (finish status u)
  strands : ∀ {status : UInt8} {body : List UInt8} {u : Connection}, cmd.Body status body →
    cmd.Clean status = false → u.unread = body → Strands (finish status u)

theorem drains_pure {r : R} (unread : u.unread = []) (sent : u.output = []) :
    Drains ((pure r : ConnectionM R) u) :=
  ⟨unread, sent⟩

theorem drains_throw {e : Exn} (unread : u.unread = []) (sent : u.output = []) :
    Drains ((throw e : ConnectionM R) u) :=
  .inr ⟨unread, sent⟩

theorem strands_pure {r : R} (unread : u.unread ≠ []) : Strands ((pure r : ConnectionM R) u) :=
  fun synchronised => unread synchronised.1

theorem strands_throw {e : Exn} (unread : u.unread ≠ []) : Strands ((throw e : ConnectionM R) u) :=
  .inr fun synchronised => unread synchronised.1

theorem drains_returnPossiblePrevValue (allowed : PreviousValue status body)
    (unread : u.unread = body) (sent : u.output = []) :
    Drains (returnPossiblePrevValue status u) := by
  rw [returnPossiblePrevValue]
  rw [PreviousValue] at allowed
  split_ifs at allowed ⊢ with previous
  · obtain ⟨value, rfl⟩ := allowed
    exact (consumes_readValue value).drains unread sent
  · exact drains_pure (unread.trans allowed) sent

theorem drains_bind_starved {format : WireFormat X} (starves : format.decode [] = none)
    {next : X → ConnectionM R} (unread : u.unread = []) : Drains ((read format >>= next) u) := by
  rw [bind_of_error (read_starved starves unread)]
  exact .inl rfl

theorem drains_readWhileMarked {reader : ConnectionM R} (unread : u.unread = []) :
    Drains (readWhileMarked reader u) := by
  rw [readWhileMarked, bind_of_ok (get_apply u), readMarked]
  exact drains_bind_starved rfl unread

section OnSuccess

variable {reader otherwise : ConnectionM R} {payload : List UInt8 → Prop}

theorem drains_onSuccess (allowed : OnSuccess payload status body)
    (reads : payload body → ∃ r, Consumes reader body r) (empty : body = [] → Drains (otherwise u))
    (unread : u.unread = body) (sent : u.output = []) :
    Drains ((if isSuccess status then reader else otherwise) u) := by
  rw [OnSuccess] at allowed
  split_ifs at allowed ⊢ with success
  · obtain ⟨r, consumes⟩ := reads allowed
    exact consumes.drains unread sent
  · exact empty allowed

theorem drains_always (allowed : OnSuccess payload status body)
    (reads : payload body → ∃ r, Consumes reader body r) (starves : body = [] → Drains (reader u))
    (unread : u.unread = body) (sent : u.output = []) :
    Drains (reader u) := by
  rw [OnSuccess] at allowed
  split_ifs at allowed with success
  · obtain ⟨r, consumes⟩ := reads allowed
    exact consumes.drains unread sent
  · exact starves allowed

end OnSuccess

end HotRod.Operations
