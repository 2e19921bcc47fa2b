import HotRod.Operations.Exchanges

/-! What the requests of the counter operations tell the server.

Every request is a name with the arguments of its operation. The two are read one after
the other, so the arguments have to follow from the opcode and their own bytes. -/

set_option autoImplicit false

namespace HotRod.Counters

open Operations Protocol

/-! ### Requests -/

inductive CounterOperation where
  | defineCounter (configuration : CounterConfiguration)
  | isCounterDefined
  | getCounterConfiguration
  | getCounterValue
  | addAndGetCounterValue (delta : Int64)
  | compareAndSwapCounterValue (expect update : Int64)
  | resetCounter
  | removeCounter
  | addCounterListener (listenerId : List UInt8)
  | removeCounterListener (listenerId : List UInt8)

namespace CounterOperation

-- `IsCounterDefinedOperation` sends the opcode of `DefineCounterOperation`.
def opCode : CounterOperation → OpCode
  | defineCounter _ => .counterCreate
  | isCounterDefined => .counterCreate
  | getCounterConfiguration => .counterGetConfiguration
  | getCounterValue => .counterGet
  | addAndGetCounterValue _ => .counterAddAndGet
  | compareAndSwapCounterValue .. => .counterCas
  | resetCounter => .counterReset
  | removeCounter => .counterRemove
  | addCounterListener _ => .counterAddListener
  | removeCounterListener _ => .counterRemoveListener

def arguments : CounterOperation → List UInt8
  | defineCounter configuration => writeConfiguration configuration
  | addAndGetCounterValue delta => writeLong delta.toUInt64
  | compareAndSwapCounterValue expect update =>
    writeLong expect.toUInt64 ++ writeLong update.toUInt64
  | addCounterListener listenerId | removeCounterListener listenerId => writeArray listenerId
  | isCounterDefined | getCounterConfiguration | getCounterValue | resetCounter
  | removeCounter => []

end CounterOperation

structure CounterRequest where
  counterName : List UInt8
  operation : CounterOperation

namespace CounterRequest

def opCode (request : CounterRequest) : UInt8 := request.operation.opCode.request

def body (request : CounterRequest) : List UInt8 :=
  writeArray request.counterName ++ request.operation.arguments

def command (upperBound : Int64) (keepTransport : Bool) (request : CounterRequest) : Command :=
  match request.operation with
  | .defineCounter configuration => .defineCounter request.counterName configuration
  | .isCounterDefined => .isCounterDefined request.counterName
  | .getCounterConfiguration => .getCounterConfiguration request.counterName
  | .getCounterValue => .getCounterValue request.counterName
  | .addAndGetCounterValue delta => .addAndGetCounterValue request.counterName delta
  | .compareAndSwapCounterValue expect update =>
    .compareAndSwapCounterValue request.counterName expect update upperBound
  | .resetCounter => .resetCounter request.counterName
  | .removeCounter => .removeCounter request.counterName
  | .addCounterListener listenerId =>
    .addCounterListener request.counterName listenerId keepTransport
  | .removeCounterListener listenerId => .removeCounterListener request.counterName listenerId

end CounterRequest

/-! ### What the operations write -/

theorem exchange_discard {R : Type} (o : HotRodOperation) (opCode : OpCode) (request : List UInt8)
    (finish : UInt8 → ConnectionM R) :
    (discard (o.exchange opCode request finish) : ConnectionM PUnit) =
      o.exchange opCode request fun status => discard (finish status) := by
  simp only [HotRodOperation.exchange, ← receive_discard]
  simp only [discard, Functor.discard, LawfulFunctor.map_const, Function.comp_apply, map_bind]

/-- The operation sends this opcode and this body. -/
def Writes (m : ConnectionM PUnit) (o : HotRodOperation) (opCode : OpCode) (body : List UInt8) :
    Prop :=
  ∃ finish, m = o.exchange opCode body finish ∨
    m = (setFailed false >>= fun _ => o.exchange opCode body finish)

theorem writes_exchange {R : Type} (o : HotRodOperation) (opCode : OpCode)
    {written body : List UInt8} (same : written = body) (finish : UInt8 → ConnectionM R) :
    Writes (discard (o.exchange opCode written finish)) o opCode body := by
  subst same
  exact ⟨_, .inl (exchange_discard o opCode written finish)⟩

theorem executeOperation_writes (o : HotRodOperation) (upperBound : Int64) (keepTransport : Bool)
    (request : CounterRequest) :
    Writes ((request.command upperBound keepTransport).executeOperation o) o
      request.operation.opCode request.body := by
  obtain ⟨counterName, operation⟩ := request
  have nameOnly : writeArray counterName = writeArray counterName ++ [] := (List.append_nil _).symm
  cases operation with
  | defineCounter configuration => exact writes_exchange o _ rfl _
  | isCounterDefined => exact writes_exchange o _ nameOnly _
  | getCounterConfiguration => exact writes_exchange o _ nameOnly _
  | getCounterValue => exact writes_exchange o _ nameOnly _
  | addAndGetCounterValue delta => exact writes_exchange o _ rfl _
  | compareAndSwapCounterValue expect update =>
    exact writes_exchange o _ (List.append_assoc _ _ _) _
  | resetCounter =>
    refine ⟨checkCounter "CounterReset" counterName, .inl ?_⟩
    rw [CounterRequest.body, CounterOperation.arguments, List.append_nil]
    rfl
  | removeCounter =>
    refine ⟨checkCounter "CounterRemove" counterName, .inl ?_⟩
    rw [CounterRequest.body, CounterOperation.arguments, List.append_nil]
    rfl
  | addCounterListener listenerId => exact ⟨_, .inr rfl⟩
  | removeCounterListener listenerId => exact writes_exchange o _ rfl _

/-! ### Ambiguity -/

/-- The opcode and the body determine the request, and the body is no beginning of another
body that goes with the opcode. -/
structure Unambiguous (first second : CounterRequest) : Prop where
  determined : first.opCode = second.opCode → first.body = second.body → first = second
  ends : first.opCode = second.opCode → first.body <+: second.body → first.body = second.body

def sent (c : CounterConfiguration) : CounterConfiguration :=
  match c.type with
  | .weak => { c with lowerBound := 0, upperBound := 0 }
  | .boundedStrong => { c with concurrencyLevel := 0 }
  | .unboundedStrong => { c with lowerBound := 0, upperBound := 0, concurrencyLevel := 0 }

-- Different lengths that are the same in the 32 bits they are sent in.
def Wraps (first second : List UInt8) : Prop :=
  first.length ≠ second.length ∧ first.length % 2 ^ 32 = second.length % 2 ^ 32

/-- Two operations of which one may be taken for the other, or for its beginning, after the
same name. -/
inductive Overlaps : CounterOperation → CounterOperation → Prop where
  | defined (configuration : CounterConfiguration) :
    Overlaps .isCounterDefined (.defineCounter configuration)
  | unsent {c c' : CounterConfiguration} (different : c ≠ c') (same : sent c = sent c') :
    Overlaps (.defineCounter c) (.defineCounter c')
  | added {listenerId other : List UInt8} (wraps : Wraps listenerId other)
    (begins : listenerId <+: other) :
    Overlaps (.addCounterListener listenerId) (.addCounterListener other)
  | removed {listenerId other : List UInt8} (wraps : Wraps listenerId other)
    (begins : listenerId <+: other) :
    Overlaps (.removeCounterListener listenerId) (.removeCounterListener other)

/-- Two such requests; a name may also be taken for a longer one with all that follows it. -/
inductive Confuses : CounterRequest → CounterRequest → Prop where
  | named (counterName : List UInt8) {first second : CounterOperation}
    (overlaps : Overlaps first second) : Confuses ⟨counterName, first⟩ ⟨counterName, second⟩
  | longName {first second : CounterRequest} (shared : first.opCode = second.opCode)
    (wraps : Wraps first.counterName second.counterName)
    (begins : first.counterName ++ first.operation.arguments <+:
      second.counterName ++ second.operation.arguments) : Confuses first second

/-! ### Where the encodings end -/

theorem size_eq_iff (first second : List UInt8) :
    UInt32.ofNat first.length = UInt32.ofNat second.length ↔
      first.length % 2 ^ 32 = second.length % 2 ^ 32 := by
  rw [← UInt32.toNat_inj, UInt32.toNat_ofNat', UInt32.toNat_ofNat']

theorem writeArray_prefix_iff {first second x y : List UInt8} :
    writeArray first ++ x <+: writeArray second ++ y ↔
      first.length % 2 ^ 32 = second.length % 2 ^ 32 ∧ first ++ x <+: second ++ y := by
  rw [writeArray, writeArray, List.append_assoc, List.append_assoc, writeVInt, writeVInt,
    WireFormat.vInt.encode_prefix_iff, size_eq_iff]

theorem append_prefix_of_length {first second x y : List UInt8}
    (length : first.length = second.length) (begins : first ++ x <+: second ++ y) :
    first = second ∧ x <+: y := by
  obtain ⟨rest, same⟩ := begins
  rw [List.append_assoc] at same
  obtain ⟨names, others⟩ := List.append_inj same length
  exact ⟨names, rest, others⟩

theorem writeArray_prefix_cases {first second : List UInt8}
    (begins : writeArray first <+: writeArray second) :
    first = second ∨ Wraps first second ∧ first <+: second := by
  have whole : writeArray first ++ [] <+: writeArray second ++ [] := by simpa using begins
  obtain ⟨congruent, begins⟩ := writeArray_prefix_iff.mp whole
  rw [List.append_nil, List.append_nil] at begins
  by_cases length : first.length = second.length
  · exact .inl (begins.eq_of_length length)
  · exact .inr ⟨⟨length, congruent⟩, begins⟩

theorem toUInt64_injective {first second : Int64} (same : first.toUInt64 = second.toUInt64) :
    first = second := by
  cases first
  cases second
  cases same
  rfl

theorem writeConfiguration_sent (c : CounterConfiguration) :
    writeConfiguration (sent c) = writeConfiguration c := by
  obtain ⟨initialValue, lowerBound, upperBound, concurrencyLevel, type, persistent⟩ := c
  cases type <;> rfl

theorem counterFlags_inj {type type' : CounterType} {persistent persistent' : Bool}
    (same : counterFlags type persistent = counterFlags type' persistent') :
    type = type' ∧ persistent = persistent' := by
  revert same
  cases type <;> cases type' <;> cases persistent <;> cases persistent' <;> decide

theorem sent_of_begins {c c' : CounterConfiguration}
    (begins : writeConfiguration c <+: writeConfiguration c') : sent c = sent c' := by
  obtain ⟨flags, begins⟩ := (WireFormat.byte.encode_prefix_iff).mp begins
  obtain ⟨initialValue, lowerBound, upperBound, concurrencyLevel, type, persistent⟩ := c
  obtain ⟨initialValue', lowerBound', upperBound', concurrencyLevel', type', persistent'⟩ := c'
  obtain ⟨types, stored⟩ := counterFlags_inj flags
  cases types
  cases stored
  cases type with
  | unboundedStrong =>
    have initial := WireFormat.long.encode_prefix_encode_iff.mp begins
    cases initial
    rfl
  | boundedStrong =>
    obtain ⟨lower, begins⟩ := WireFormat.long.encode_prefix_iff.mp begins
    obtain ⟨upper, begins⟩ := WireFormat.long.encode_prefix_iff.mp begins
    have initial := WireFormat.long.encode_prefix_encode_iff.mp begins
    cases lower
    cases upper
    cases initial
    rfl
  | weak =>
    obtain ⟨level, begins⟩ := WireFormat.vInt.encode_prefix_iff.mp begins
    have initial := WireFormat.long.encode_prefix_encode_iff.mp begins
    cases level
    cases initial
    rfl

/-! ### Requests that share an opcode -/

theorem Overlaps.ne {first second : CounterOperation} (overlaps : Overlaps first second) :
    first ≠ second := by
  cases overlaps with
  | defined c => nofun
  | unsent different same =>
    intro equal
    cases equal
    exact different rfl
  | added wraps begins =>
    intro equal
    cases equal
    exact wraps.1 rfl
  | removed wraps begins =>
    intro equal
    cases equal
    exact wraps.1 rfl

theorem writeArray_prefix_of_wraps {first second : List UInt8} (wraps : Wraps first second)
    (begins : first <+: second) : writeArray first <+: writeArray second := by
  have whole : writeArray first ++ [] <+: writeArray second ++ [] :=
    writeArray_prefix_iff.mpr ⟨wraps.2, by simpa using begins⟩
  simpa using whole

theorem Overlaps.begins {first second : CounterOperation} (overlaps : Overlaps first second) :
    first.opCode = second.opCode ∧ first.arguments <+: second.arguments := by
  cases overlaps with
  | defined c => exact ⟨rfl, List.nil_prefix⟩
  | @unsent c c' different same =>
    have equal : writeConfiguration c = writeConfiguration c' := by
      rw [← writeConfiguration_sent c, same, writeConfiguration_sent]
    refine ⟨rfl, ?_⟩
    change writeConfiguration c <+: writeConfiguration c'
    exact equal ▸ List.prefix_rfl
  | added wraps begins => exact ⟨rfl, writeArray_prefix_of_wraps wraps begins⟩
  | removed wraps begins => exact ⟨rfl, writeArray_prefix_of_wraps wraps begins⟩

theorem Overlaps.of_begins {first second : CounterOperation}
    (shared : first.opCode.request = second.opCode.request)
    (begins : first.arguments <+: second.arguments) : first = second ∨ Overlaps first second := by
  cases first with
  | defineCounter c =>
    cases second with
    | defineCounter c' =>
      by_cases equal : c = c'
      · exact .inl (equal ▸ rfl)
      · exact .inr (.unsent equal (sent_of_begins begins))
    | isCounterDefined => cases List.prefix_nil.mp begins
    | _ => cases shared
  | isCounterDefined =>
    cases second with
    -- the two share an opcode, and one of them has no arguments
    | defineCounter c => exact .inr (.defined c)
    | isCounterDefined => exact .inl rfl
    | _ => cases shared
  | addAndGetCounterValue delta =>
    cases second with
    | addAndGetCounterValue delta' =>
      have same := toUInt64_injective (WireFormat.long.encode_prefix_encode_iff.mp begins)
      exact .inl (same ▸ rfl)
    | _ => cases shared
  | compareAndSwapCounterValue expect update =>
    cases second with
    | compareAndSwapCounterValue expect' update' =>
      obtain ⟨expects, begins⟩ := WireFormat.long.encode_prefix_iff.mp begins
      have updates := toUInt64_injective (WireFormat.long.encode_prefix_encode_iff.mp begins)
      exact .inl (toUInt64_injective expects ▸ updates ▸ rfl)
    | _ => cases shared
  | addCounterListener listenerId =>
    cases second with
    | addCounterListener other =>
      obtain rfl | ⟨wraps, begins⟩ := writeArray_prefix_cases begins
      · exact .inl rfl
      · exact .inr (.added wraps begins)
    | _ => cases shared
  | removeCounterListener listenerId =>
    cases second with
    | removeCounterListener other =>
      obtain rfl | ⟨wraps, begins⟩ := writeArray_prefix_cases begins
      · exact .inl rfl
      · exact .inr (.removed wraps begins)
    | _ => cases shared
  | getCounterConfiguration =>
    cases second with
    | getCounterConfiguration => exact .inl rfl
    | _ => cases shared
  | getCounterValue =>
    cases second with
    | getCounterValue => exact .inl rfl
    | _ => cases shared
  | resetCounter =>
    cases second with
    | resetCounter => exact .inl rfl
    | _ => cases shared
  | removeCounter =>
    cases second with
    | removeCounter => exact .inl rfl
    | _ => cases shared

theorem body_prefix_of_arguments (counterName : List UInt8) {first second : CounterOperation}
    (begins : first.arguments <+: second.arguments) :
    (CounterRequest.mk counterName first).body <+: (CounterRequest.mk counterName second).body :=
  writeArray_prefix_iff.mpr ⟨rfl, (List.prefix_append_right_inj counterName).mpr begins⟩

theorem Confuses.begins {first second : CounterRequest} (confuses : Confuses first second) :
    first.opCode = second.opCode ∧ first.body <+: second.body ∧ first ≠ second := by
  cases confuses with
  | named counterName overlaps =>
    obtain ⟨shared, begins⟩ := overlaps.begins
    refine ⟨congrArg OpCode.request shared, body_prefix_of_arguments counterName begins, ?_⟩
    intro equal
    exact overlaps.ne (congrArg CounterRequest.operation equal)
  | longName shared wraps begins =>
    refine ⟨shared, writeArray_prefix_iff.mpr ⟨wraps.2, begins⟩, ?_⟩
    intro equal
    exact wraps.1 (congrArg (fun request => request.counterName.length) equal)

theorem Confuses.of_begins {first second : CounterRequest}
    (shared : first.opCode = second.opCode) (begins : first.body <+: second.body) :
    first = second ∨ Confuses first second := by
  obtain ⟨congruent, after⟩ := writeArray_prefix_iff.mp begins
  -- names of one length are the same, so that what is left are the arguments
  by_cases length : first.counterName.length = second.counterName.length
  · obtain ⟨names, later⟩ := append_prefix_of_length length after
    obtain ⟨counterName, operation⟩ := first
    obtain ⟨counterName', operation'⟩ := second
    cases names
    obtain rfl | overlaps := Overlaps.of_begins shared later
    · exact .inl rfl
    · exact .inr (.named counterName overlaps)
  · exact .inr (.longName shared ⟨length, congruent⟩ after)

/-- A request is told from another one, and ends where its body ends, exactly if the other one
is not one of those that it confuses. -/
theorem unambiguous_iff (first second : CounterRequest) :
    Unambiguous first second ↔ ¬ Confuses first second := by
  constructor
  · intro unambiguous confuses
    obtain ⟨shared, begins, different⟩ := confuses.begins
    exact different (unambiguous.determined shared (unambiguous.ends shared begins))
  · intro apart
    have equal : first.opCode = second.opCode → first.body <+: second.body → first = second :=
      fun shared begins => (Confuses.of_begins shared begins).resolve_right apart
    constructor
    · intro shared same
      exact equal shared (same ▸ List.prefix_rfl)
    · intro shared begins
      exact congrArg CounterRequest.body (equal shared begins)

/-- The request whether a counter is defined is the beginning of one that defines it. -/
theorem not_unambiguous_of_isCounterDefined :
    ¬ ∀ first second : CounterRequest, Unambiguous first second := by
  intro all
  let configuration : CounterConfiguration :=
    { initialValue := 0, type := .unboundedStrong, persistent := false }
  have apart := (unambiguous_iff ⟨[0x63], .isCounterDefined⟩
    ⟨[0x63], .defineCounter configuration⟩).mp (all _ _)
  exact apart (.named [0x63] (.defined configuration))

end HotRod.Counters
