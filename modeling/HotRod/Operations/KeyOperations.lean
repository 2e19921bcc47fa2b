import HotRod.Operations.Answers
import HotRod.Operations.Bodies

/-! What `RemoteCacheImpl` makes of the answer to an operation on a key.

The status of a response says whether it carries a value. The operation returns a
vector of bytes in either case, empty where there is none, and the call tests the data
pointer of the vector: a vector that never had storage has none. -/

set_option autoImplicit false

namespace HotRod.Operations.KeyOperations

open Semantics.Execution
open Protocol HotRodConstants
open WireFormat (Bytes)

variable {V : Type}

/-! ### The calls -/

-- `bytes.data()`, which is null for an empty vector.
def data (bytes : List UInt8) : Option (List UInt8) := if bytes = [] then none else some bytes

-- `bytes.data() ? remoteCacheBase.baseValueUnmarshall(bytes) : NULL`.
def valueOrNull (unmarshall : List UInt8 → V) (bytes : List UInt8) : Option V :=
  (data bytes).map unmarshall

namespace RemoteCacheImpl

variable (o : HotRodOperation) (unmarshall : List UInt8 → V)

def get (keyBytes : List UInt8) : ConnectionM (Option V) := do
  let bytes ← GetOperation.executeOperation o keyBytes
  pure (valueOrNull unmarshall bytes)

def put (e : Entry) : ConnectionM (Option V) := do
  let bytes ← PutOperation.executeOperation o e
  pure (valueOrNull unmarshall bytes)

def putIfAbsent (e : Entry) : ConnectionM (Option V) := do
  let bytes ← PutIfAbsentOperation.executeOperation o e
  pure (valueOrNull unmarshall bytes)

def replace (e : Entry) : ConnectionM (Option V) := do
  let bytes ← ReplaceOperation.executeOperation o e
  pure (valueOrNull unmarshall bytes)

def remove (keyBytes : List UInt8) : ConnectionM (Option V) := do
  let bytes ← RemoveOperation.executeOperation o keyBytes
  pure (valueOrNull unmarshall bytes)

-- With the version that is stored for the caller; the value of a result that was never set is an
-- empty vector.
def getWithVersion (keyBytes : List UInt8) : ConnectionM (Option V × Option UInt64) := do
  let m ← GetWithVersionOperation.executeOperation o keyBytes
  pure (valueOrNull unmarshall ((m.map Prod.snd).getD []), m.map Prod.fst)

def getWithMetadata (keyBytes : List UInt8) : ConnectionM (Option V × Option Metadata) := do
  let m ← GetWithMetadataOperation.executeOperation o keyBytes
  pure (valueOrNull unmarshall ((m.map Metadata.value).getD []), m)

end RemoteCacheImpl

inductive KeyCall where
  | get (keyBytes : List UInt8)
  | getWithVersion (keyBytes : List UInt8)
  | getWithMetadata (keyBytes : List UInt8)
  | put (e : Entry)
  | putIfAbsent (e : Entry)
  | replace (e : Entry)
  | remove (keyBytes : List UInt8)

namespace KeyCall

def run (o : HotRodOperation) (unmarshall : List UInt8 → V) : KeyCall → ConnectionM (Option V)
  | get keyBytes => RemoteCacheImpl.get o unmarshall keyBytes
  | getWithVersion keyBytes => Prod.fst <$> RemoteCacheImpl.getWithVersion o unmarshall keyBytes
  | getWithMetadata keyBytes => Prod.fst <$> RemoteCacheImpl.getWithMetadata o unmarshall keyBytes
  | put e => RemoteCacheImpl.put o unmarshall e
  | putIfAbsent e => RemoteCacheImpl.putIfAbsent o unmarshall e
  | replace e => RemoteCacheImpl.replace o unmarshall e
  | remove keyBytes => RemoteCacheImpl.remove o unmarshall keyBytes

def command : KeyCall → Command
  | get keyBytes => .get keyBytes
  | getWithVersion keyBytes => .getWithVersion keyBytes
  | getWithMetadata keyBytes => .getWithMetadata keyBytes
  | put e => .put e
  | putIfAbsent e => .putIfAbsent e
  | replace e => .replace e
  | remove keyBytes => .remove keyBytes

/-! ### The answers -/

def plain : List UInt8 := [noErrorStatus, noErrorStatusCompat]
def withPrevious : List UInt8 := [successWithPrevious, successWithPreviousCompat]
def refusedWithPrevious : List UInt8 := [notExecutedWithPrevious, notExecutedWithPreviousCompat]

def presentStatuses : KeyCall → List UInt8
  | get _ | getWithVersion _ | getWithMetadata _ => plain
  | put _ | replace _ | remove _ => withPrevious
  | putIfAbsent _ => refusedWithPrevious

def absentStatuses : KeyCall → List UInt8
  | get _ | getWithVersion _ | getWithMetadata _ => [keyDoesNotExistStatus]
  | put _ => plain
  | putIfAbsent _ | replace _ => notPutRemovedReplacedStatus :: plain
  | remove _ => keyDoesNotExistStatus :: plain

end KeyCall

/-- What the server says: whether there is a value, with its version and the time stamps
of its metadata, and a status that goes with it. -/
structure Reply (o : HotRodOperation) (call : KeyCall) where
  value : Option Bytes
  version : UInt64
  flag : UInt8
  lifespan : UInt64 × UInt32
  maxIdle : UInt64 × UInt32
  status : UInt8
  fits : status ∈ if value.isSome then call.presentStatuses else call.absentStatuses
  topology : Option TopologyUpdate
  quiet : topologyRaises o.factory 0 topology = none

namespace Reply

variable {o : HotRodOperation} {call : KeyCall}

def body (reply : Reply o call) : List UInt8 :=
  match reply.value with
  | none => []
  | some value =>
    match call with
    | .getWithVersion _ => WireFormat.long.encode reply.version ++ WireFormat.array.encode value
    | .getWithMetadata _ => WireFormat.byte.encode reply.flag
        ++ (encodeSpan reply.flag infiniteLifespan reply.lifespan
        ++ (encodeSpan reply.flag infiniteMaxidle reply.maxIdle
        ++ (WireFormat.long.encode reply.version ++ WireFormat.array.encode value)))
    | .get _ | .put _ | .putIfAbsent _ | .replace _ | .remove _ => WireFormat.array.encode value

def bytes (reply : Reply o call) : List UInt8 :=
  header o.messageId call.command.opCode.toOpRespCode reply.status reply.topology ++ reply.body

/-- An idle connection on which the request will be answered with this reply. -/
def asked (reply : Reply o call) (s : Connection) : Connection :=
  { s with
    unread := []
    inTime := 0
    output := []
    coming := some { bytes := reply.bytes, arrivals := some (reply.bytes.length, []) } }

end Reply

/-! ### Statuses -/

theorem of_plain (status : UInt8) (found : status ∈ KeyCall.plain) :
    isSuccess status = true ∧ isNotExecuted status = false ∧ hasPrevious status = false := by
  simp only [KeyCall.plain, List.mem_cons, List.not_mem_nil, or_false] at found
  obtain rfl | rfl := found
  · decide
  · decide

theorem of_withPrevious (status : UInt8) (found : status ∈ KeyCall.withPrevious) :
    isSuccess status = true ∧ hasPrevious status = true := by
  simp only [KeyCall.withPrevious, List.mem_cons, List.not_mem_nil, or_false] at found
  obtain rfl | rfl := found
  · decide
  · decide

theorem of_refusedWithPrevious (status : UInt8) (found : status ∈ KeyCall.refusedWithPrevious) :
    isNotExecuted status = true ∧ hasPrevious status = true := by
  simp only [KeyCall.refusedWithPrevious, List.mem_cons, List.not_mem_nil, or_false] at found
  obtain rfl | rfl := found
  · decide
  · decide

theorem of_notPut (status : UInt8)
    (found : status ∈ notPutRemovedReplacedStatus :: KeyCall.plain) :
    hasPrevious status = false := by
  cases found with
  | head => decide
  | tail _ found => exact (of_plain status found).2.2

theorem of_notFound (status : UInt8) (found : status ∈ keyDoesNotExistStatus :: KeyCall.plain) :
    hasPrevious status = false := by
  cases found with
  | head => decide
  | tail _ found => exact (of_plain status found).2.2

/-! ### What is read -/

namespace Reply

variable {o : HotRodOperation} {call : KeyCall} {R : Type}

def sent (reply : Reply o call) : List UInt8 := (reply.value.map Subtype.val).getD []

theorem exchange_returns (reply : Reply o call) {finish : UInt8 → ConnectionM R} {r : R}
    (reads : Consumes (finish reply.status) reply.body r) (request : List UInt8) (s : Connection) :
    ∃ t, o.exchange call.command.opCode request finish (reply.asked s) = .ok r t := by
  have awaiting : Awaiting (reply.asked s) reply.bytes (some (reply.bytes.length, [])) :=
    ⟨rfl, rfl, rfl, rfl⟩
  rw [exchange_sent o call.command.opCode finish awaiting]
  apply receive_returns o reads _ (Nat.le_refl _) reply.quiet
  · exact []
  · rw [List.append_nil]
    rfl

theorem consumes_previous (status : UInt8) (value : Option Bytes)
    (present : hasPrevious status = value.isSome) :
    Consumes (returnPossiblePrevValue status) ((value.map WireFormat.array.encode).getD [])
      ((value.map Subtype.val).getD []) := by
  unfold returnPossiblePrevValue
  rw [present]
  cases value with
  | none => exact consumes_pure []
  | some value => exact consumes_readValue value

theorem reads_get {keyBytes : List UInt8} (reply : Reply o (.get keyBytes)) :
    Consumes (if isSuccess reply.status then readValue else pure []) reply.body reply.sent := by
  obtain ⟨value, version, flag, lifespan, maxIdle, status, fits, topology, quiet⟩ := reply
  cases value with
  | none =>
    obtain rfl : status = keyDoesNotExistStatus := List.mem_singleton.mp fits
    exact consumes_pure []
  | some value =>
    change Consumes (if isSuccess status then readValue else pure []) _ _
    rw [if_pos (of_plain status fits).1]
    exact consumes_readValue value

theorem reads_getWithVersion {keyBytes : List UInt8} (reply : Reply o (.getWithVersion keyBytes)) :
    Consumes (if isSuccess reply.status then readVersioned else pure none) reply.body
      (reply.value.map fun value => (reply.version, value.1)) := by
  obtain ⟨value, version, flag, lifespan, maxIdle, status, fits, topology, quiet⟩ := reply
  cases value with
  | none =>
    obtain rfl : status = keyDoesNotExistStatus := List.mem_singleton.mp fits
    exact consumes_pure none
  | some value =>
    change Consumes (if isSuccess status then readVersioned else pure none) _ _
    rw [if_pos (of_plain status fits).1]
    exact (consumes_read WireFormat.long version).bind ((consumes_readValue value).map _)

theorem reads_getWithMetadata {keyBytes : List UInt8}
    (reply : Reply o (.getWithMetadata keyBytes)) :
    ∃ m, Consumes (if isSuccess reply.status then readMetadata else pure none) reply.body m ∧
      m.map Metadata.value = reply.value.map Subtype.val := by
  obtain ⟨value, version, flag, lifespan, maxIdle, status, fits, topology, quiet⟩ := reply
  cases value with
  | none =>
    obtain rfl : status = keyDoesNotExistStatus := List.mem_singleton.mp fits
    exact ⟨none, consumes_pure none, rfl⟩
  | some value =>
    obtain ⟨life, idle, reads⟩ := consumes_readMetadata_value flag lifespan maxIdle version value
    refine ⟨some { lifespan := life, maxIdle := idle, version, value := value.1 }, ?_, rfl⟩
    change Consumes (if isSuccess status then readMetadata else pure none) _ _
    rw [if_pos (of_plain status fits).1]
    exact reads

theorem reads_put {e : Entry} (reply : Reply o (.put e)) :
    Consumes (if !isSuccess reply.status then throw (unexpectedStatus reply.status)
      else returnPossiblePrevValue reply.status) reply.body reply.sent := by
  obtain ⟨value, version, flag, lifespan, maxIdle, status, fits, topology, quiet⟩ := reply
  change Consumes (if !isSuccess status then throw (unexpectedStatus status)
    else returnPossiblePrevValue status) _ _
  cases value with
  | none =>
    obtain ⟨success, -, previous⟩ := of_plain status fits
    rw [success]
    exact consumes_previous status none previous
  | some value =>
    obtain ⟨success, previous⟩ := of_withPrevious status fits
    rw [success]
    exact consumes_previous status (some value) previous

theorem reads_putIfAbsent {e : Entry} (reply : Reply o (.putIfAbsent e)) :
    Consumes (if isNotExecuted reply.status then returnPossiblePrevValue reply.status
      else pure []) reply.body reply.sent := by
  obtain ⟨value, version, flag, lifespan, maxIdle, status, fits, topology, quiet⟩ := reply
  change Consumes (if isNotExecuted status then returnPossiblePrevValue status else pure []) _ _
  cases value with
  | none =>
    split
    · exact consumes_previous status none (of_notPut status fits)
    · exact consumes_pure []
  | some value =>
    obtain ⟨refused, previous⟩ := of_refusedWithPrevious status fits
    rw [if_pos refused]
    exact consumes_previous status (some value) previous

theorem reads_replace {e : Entry} (reply : Reply o (.replace e)) :
    Consumes (returnPossiblePrevValue reply.status) reply.body reply.sent := by
  obtain ⟨value, version, flag, lifespan, maxIdle, status, fits, topology, quiet⟩ := reply
  cases value with
  | none => exact consumes_previous status none (of_notPut status fits)
  | some value => exact consumes_previous status (some value) (of_withPrevious status fits).2

theorem reads_remove {keyBytes : List UInt8} (reply : Reply o (.remove keyBytes)) :
    Consumes (returnPossiblePrevValue reply.status) reply.body reply.sent := by
  obtain ⟨value, version, flag, lifespan, maxIdle, status, fits, topology, quiet⟩ := reply
  cases value with
  | none => exact consumes_previous status none (of_notFound status fits)
  | some value => exact consumes_previous status (some value) (of_withPrevious status fits).2

/-! ### What is returned -/

theorem valueOrNull_returned {m : ConnectionM (List UInt8)} {bytes : List UInt8} {s : Connection}
    (executed : ∃ t, m s = .ok bytes t) (unmarshall : List UInt8 → V) :
    ∃ t, (m >>= fun bytes => pure (valueOrNull unmarshall bytes)) s =
      .ok (valueOrNull unmarshall bytes) t := by
  obtain ⟨t, ran⟩ := executed
  exact ⟨t, bind_of_ok ran⟩

theorem getWithVersion_returned {keyBytes : List UInt8} (reply : Reply o (.getWithVersion keyBytes))
    (unmarshall : List UInt8 → V) (s : Connection) :
    ∃ t, RemoteCacheImpl.getWithVersion o unmarshall keyBytes (reply.asked s) =
      .ok (valueOrNull unmarshall reply.sent, reply.value.map fun _ => reply.version) t := by
  have executed : ∃ t, GetWithVersionOperation.executeOperation o keyBytes (reply.asked s) =
      .ok (reply.value.map fun value => (reply.version, value.1)) t := by
    apply reply.exchange_returns
    exact reply.reads_getWithVersion
  obtain ⟨t, ran⟩ := executed
  refine ⟨t, (bind_of_ok ran).trans ?_⟩
  cases found : reply.value <;> simp only [sent, found] <;> rfl

theorem getWithMetadata_returned {keyBytes : List UInt8}
    (reply : Reply o (.getWithMetadata keyBytes)) (unmarshall : List UInt8 → V) (s : Connection) :
    ∃ m t, RemoteCacheImpl.getWithMetadata o unmarshall keyBytes (reply.asked s) =
      .ok (valueOrNull unmarshall reply.sent, m) t := by
  obtain ⟨m, reads, value⟩ := reply.reads_getWithMetadata
  have executed : ∃ t, GetWithMetadataOperation.executeOperation o keyBytes (reply.asked s) =
      .ok m t := by
    apply reply.exchange_returns
    exact reads
  obtain ⟨t, ran⟩ := executed
  refine ⟨m, t, (bind_of_ok ran).trans ?_⟩
  rw [sent, ← value]
  rfl

theorem run_asked (reply : Reply o call) (unmarshall : List UInt8 → V) (s : Connection) :
    ∃ t, call.run o unmarshall (reply.asked s) = .ok (valueOrNull unmarshall reply.sent) t := by
  cases call with
  | get keyBytes =>
    apply valueOrNull_returned
    apply reply.exchange_returns
    exact reply.reads_get
  | getWithVersion keyBytes =>
    obtain ⟨t, called⟩ := reply.getWithVersion_returned unmarshall s
    exact ⟨t, by rw [KeyCall.run, map_apply, called]⟩
  | getWithMetadata keyBytes =>
    obtain ⟨m, t, called⟩ := reply.getWithMetadata_returned unmarshall s
    exact ⟨t, by rw [KeyCall.run, map_apply, called]⟩
  | put e =>
    apply valueOrNull_returned
    apply reply.exchange_returns
    exact reply.reads_put
  | putIfAbsent e =>
    apply valueOrNull_returned
    apply reply.exchange_returns
    exact reply.reads_putIfAbsent
  | replace e =>
    apply valueOrNull_returned
    apply reply.exchange_returns
    exact reply.reads_replace
  | remove keyBytes =>
    apply valueOrNull_returned
    apply reply.exchange_returns
    exact reply.reads_remove

/-- The call returns null exactly where the reply has no value, and otherwise what the
marshaller makes of its bytes. -/
def Reported (reply : Reply o call) (unmarshall : List UInt8 → V) (s : Connection) : Prop :=
  ∃ t, call.run o unmarshall (reply.asked s) =
    .ok (reply.value.map fun value => unmarshall value.1) t

/-- A call reports what the server has answered unless that is a value of no bytes. -/
theorem reported_iff (reply : Reply o call) (unmarshall : List UInt8 → V) (s : Connection) :
    reply.Reported unmarshall s ↔ ∀ value, reply.value = some value → value.1 ≠ [] := by
  obtain ⟨t, ran⟩ := reply.run_asked unmarshall s
  have returned : reply.Reported unmarshall s ↔
      valueOrNull unmarshall reply.sent = reply.value.map fun value => unmarshall value.1 := by
    constructor
    · intro reported
      obtain ⟨u, same⟩ := reported
      rw [ran] at same
      injection same
    · intro same
      exact ⟨t, ran.trans (by rw [same])⟩
  rw [returned, sent]
  cases reply.value with
  | none => exact iff_of_true rfl (fun value same => by cases same)
  | some value =>
    -- a vector of no bytes has no data, whether or not it was read
    by_cases empty : value.1 = []
    · refine iff_of_false ?_ (fun all => all value rfl empty)
      change (data value.1).map unmarshall ≠ _
      rw [data, if_pos empty]
      exact (Option.some_ne_none _).symm
    · refine iff_of_true ?_ ?_
      · change (data value.1).map unmarshall = _
        rw [data, if_neg empty]
        rfl
      · intro other same
        cases same
        exact empty

/-- A value of no bytes is found and returned as null. -/
theorem not_reported_of_empty :
    ¬ ∀ (o : HotRodOperation) (call : KeyCall) (reply : Reply o call)
        (unmarshall : List UInt8 → List UInt8) (s : Connection), reply.Reported unmarshall s := by
  intro all
  let reply : Reply .plain (.get [0x6B]) :=
    { value := some Bytes.empty
      version := 0
      flag := 0
      lifespan := (0, 0)
      maxIdle := (0, 0)
      status := noErrorStatus
      fits := List.mem_cons_self
      topology := none
      quiet := rfl }
  have reported := all .plain (.get [0x6B]) reply id { hostname := "localhost", port := 11222 }
  exact (reply.reported_iff _ _).mp reported Bytes.empty rfl rfl

end Reply

end HotRod.Operations.KeyOperations
