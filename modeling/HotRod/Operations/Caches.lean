import HotRod.Operations.Conversation
import HotRod.Operations.Expiration
import HotRod.Operations.KeyOperations
import HotRod.Semantics.Machines

/-! A cache over the wire and the cache of a server.

`CacheService` is what a server does with the entries of a cache, whatever it keeps them in
and whenever they expire. Clients that talk to it over any number of connections get from
every call what the service itself would say, except that a value of no bytes is not told
from none. -/

set_option autoImplicit false

namespace HotRod.Operations.Caches

open Semantics.Execution Semantics.Machines
open Protocol HotRodConstants
open Expiration KeyOperations
open WireFormat (Parser Bytes parse_encode parse_last)

/-! ### Services -/

structure Written where
  key : List UInt8
  value : Bytes
  lifespan : Expiration.Duration
  maxIdle : Expiration.Duration

structure Stored where
  value : Bytes
  version : UInt64
  lifespan : Option (UInt64 × UInt32)
  maxIdle : Option (UInt64 × UInt32)

-- What becomes of a write that goes by a version.
inductive Modification where
  | updated (previous : Bytes)
  | modified (current : Bytes)
  | absent

/-- What a server does with a cache. The writes tell the value that was there before them;
`putIfAbsent` has written if there was none, and `replace` if there was one. -/
structure CacheService (S : Type) where
  find : S → List UInt8 → Option Stored × S
  contains : S → List UInt8 → Bool × S
  put : S → Written → Option Bytes × S
  putIfAbsent : S → Written → Option Bytes × S
  replace : S → Written → Option Bytes × S
  remove : S → List UInt8 → Option Bytes × S
  replaceIfUnmodified : S → Written → UInt64 → Modification × S
  removeIfUnmodified : S → List UInt8 → UInt64 → Modification × S
  clear : S → S
  size : S → UInt32

variable {S V : Type}

/-! ### Requests as a server reads them -/

inductive CacheRequest where
  | get (key : List UInt8)
  | getWithVersion (key : List UInt8)
  | getWithMetadata (key : List UInt8)
  | containsKey (key : List UInt8)
  | put (written : Written)
  | putIfAbsent (written : Written)
  | replace (written : Written)
  | remove (key : List UInt8)
  | replaceIfUnmodified (written : Written) (version : UInt64)
  | removeIfUnmodified (key : List UInt8) (version : UInt64)
  | clear
  | size

def codecOf (version : UInt8) : Option Codec :=
  [.codec20, .codec21, .codec22, .codec23, .codec24, .codec25, .codec26, .codec27,
    Codec.codec28].find? fun codec => codec.protocolVersion = version

theorem codecOf_protocolVersion (codec : Codec) : codecOf codec.protocolVersion = some codec := by
  cases codec <;> rfl

def parseWritten (codec : Codec) : Parser Written := do
  let key ← WireFormat.array.parse
  let (lifespan, maxIdle) ← readExpirationParams codec
  let value ← WireFormat.array.parse
  pure { key := key.1, value, lifespan, maxIdle }

-- Here the version stands before the value.
def parseVersioned (codec : Codec) : Parser (Written × UInt64) := do
  let key ← WireFormat.array.parse
  let (lifespan, maxIdle) ← readExpirationParams codec
  let version ← WireFormat.long.parse
  let value ← WireFormat.array.parse
  pure ({ key := key.1, value, lifespan, maxIdle }, version)

def parseKey : Parser (List UInt8) := do
  let key ← WireFormat.array.parse
  pure key.1

def parseBody (codec : Codec) : OpCode → Parser (Option CacheRequest)
  | .get => do
    let key ← parseKey
    pure (some (.get key))
  | .getWithVersion => do
    let key ← parseKey
    pure (some (.getWithVersion key))
  | .getWithMetadata => do
    let key ← parseKey
    pure (some (.getWithMetadata key))
  | .containsKey => do
    let key ← parseKey
    pure (some (.containsKey key))
  | .put => do
    let written ← parseWritten codec
    pure (some (.put written))
  | .putIfAbsent => do
    let written ← parseWritten codec
    pure (some (.putIfAbsent written))
  | .replace => do
    let written ← parseWritten codec
    pure (some (.replace written))
  | .remove => do
    let key ← parseKey
    pure (some (.remove key))
  | .replaceIfUnmodified => do
    let (written, version) ← parseVersioned codec
    pure (some (.replaceIfUnmodified written version))
  | .removeIfUnmodified => do
    let key ← parseKey
    let version ← WireFormat.long.parse
    pure (some (.removeIfUnmodified key version))
  | .clear => pure (some .clear)
  | .size => pure (some .size)
  | _ => pure none

def readCacheRequest (request : Request) : Option CacheRequest := do
  let codec ← codecOf request.version
  let opCode ← opCodeOf request.header.opCode
  match ← parseBody codec opCode request.body with
  | (some asked, []) => some asked
  | _ => none

/-! ### Responses -/

-- `FORCE_RETURN_VALUE` is among the flags.
def forces (flags : UInt32) : Bool := flags &&& 0x01 != 0

namespace Response

def bare (status : UInt8) : Response := ⟨status, []⟩

def found (body : List UInt8) : Response := ⟨noErrorStatus, body⟩

def executed (forced : Bool) (previous : Option Bytes) : Response :=
  match if forced then previous else none with
  | some value => ⟨successWithPrevious, WireFormat.array.encode value⟩
  | none => bare noErrorStatus

def refused (forced : Bool) (current : Bytes) : Response :=
  if forced then ⟨notExecutedWithPrevious, WireFormat.array.encode current⟩
  else bare notPutRemovedReplacedStatus

/-- The answer to `putIfAbsent`. -/
def ofPresent (forced : Bool) : Option Bytes → Response
  | some current => refused forced current
  | none => bare noErrorStatus

def ofModification (forced : Bool) : Modification → Response
  | .updated previous => executed forced (some previous)
  | .modified current => refused forced current
  | .absent => bare keyDoesNotExistStatus

def ofFound (body : Stored → List UInt8) : Option Stored → Response
  | some stored => found (body stored)
  | none => bare keyDoesNotExistStatus

end Response

/-- The flag says which of the two durations are infinite. -/
def Stored.flag (stored : Stored) : UInt8 :=
  (if stored.lifespan.isNone then infiniteLifespan else 0)
    ||| if stored.maxIdle.isNone then infiniteMaxidle else 0

def Stored.encodeMetadata (stored : Stored) : List UInt8 :=
  WireFormat.byte.encode stored.flag
    ++ (encodeSpan stored.flag infiniteLifespan (stored.lifespan.getD (0, 0))
    ++ (encodeSpan stored.flag infiniteMaxidle (stored.maxIdle.getD (0, 0))
    ++ (WireFormat.long.encode stored.version ++ WireFormat.array.encode stored.value)))

def CacheService.perform (service : CacheService S) (forced : Bool) (s : S) :
    CacheRequest → Response × S
  | .get key =>
    let (stored, next) := service.find s key
    (Response.ofFound (fun stored => WireFormat.array.encode stored.value) stored, next)
  | .getWithVersion key =>
    let (stored, next) := service.find s key
    (Response.ofFound (fun stored =>
      WireFormat.long.encode stored.version ++ WireFormat.array.encode stored.value) stored, next)
  | .getWithMetadata key =>
    let (stored, next) := service.find s key
    (Response.ofFound Stored.encodeMetadata stored, next)
  | .containsKey key =>
    let (present, next) := service.contains s key
    (Response.bare (if present then noErrorStatus else keyDoesNotExistStatus), next)
  | .put written =>
    let (previous, next) := service.put s written
    (Response.executed forced previous, next)
  | .putIfAbsent written =>
    let (present, next) := service.putIfAbsent s written
    (Response.ofPresent forced present, next)
  | .replace written =>
    let (replaced, next) := service.replace s written
    (match replaced with
      | some previous => Response.executed forced (some previous)
      | none => Response.bare notPutRemovedReplacedStatus, next)
  | .remove key =>
    let (removed, next) := service.remove s key
    (match removed with
      | some previous => Response.executed forced (some previous)
      | none => Response.bare keyDoesNotExistStatus, next)
  | .replaceIfUnmodified written version =>
    let (modification, next) := service.replaceIfUnmodified s written version
    (Response.ofModification forced modification, next)
  | .removeIfUnmodified key version =>
    let (modification, next) := service.removeIfUnmodified s key version
    (Response.ofModification forced modification, next)
  | .clear => (Response.bare noErrorStatus, service.clear s)
  | .size => (Response.found (WireFormat.vInt.encode (service.size s)), s)

def CacheService.server (service : CacheService S) : Server S :=
  framed fun s request =>
    (readCacheRequest request).map (service.perform (forces request.header.flags) s)

/-! ### Calls -/

namespace RemoteCacheImpl

variable (o : HotRodOperation)

-- `VersionedOperationResponse::isUpdated`.
def isUpdated (response : List UInt8 × RspCode) : Bool := response.2 == .success

def replaceWithVersion (e : Entry) (version : UInt64) : ConnectionM Bool := do
  let response ← ReplaceIfUnmodifiedOperation.executeOperation o e version
  pure (isUpdated response)

def removeWithVersion (keyBytes : List UInt8) (version : UInt64) : ConnectionM Bool := do
  let response ← RemoveIfUnmodifiedOperation.executeOperation o keyBytes version
  pure (isUpdated response)

end RemoteCacheImpl

structure Pair where
  key : Bytes
  value : Bytes
  lifespan : UInt32
  maxIdle : UInt32

namespace Pair

def entry (p : Pair) : Entry where
  key := p.key.1
  value := p.value.1
  lifespan := p.lifespan
  maxIdle := p.maxIdle

-- A time of no seconds leaves it to the server.
def written (p : Pair) : Written where
  key := p.key.1
  value := p.value
  lifespan := ofSeconds p.lifespan
  maxIdle := ofSeconds p.maxIdle

end Pair

inductive Call where
  | get (key : Bytes)
  | getWithVersion (key : Bytes)
  | getWithMetadata (key : Bytes)
  | containsKey (key : Bytes)
  | put (p : Pair)
  | putIfAbsent (p : Pair)
  | replace (p : Pair)
  | remove (key : Bytes)
  | replaceWithVersion (p : Pair) (version : UInt64)
  | removeWithVersion (key : Bytes) (version : UInt64)
  | clear
  | size

/-- What a caller gets. A version or metadata that nothing was stored in stays as it was. -/
inductive Reply (V : Type) where
  | value (v : Option V)
  | versioned (v : Option V) (version : Option UInt64)
  | metadata (v : Option V) (m : Option Metadata)
  | flag (b : Bool)
  | number (n : UInt32)
  | done

def Call.run (o : HotRodOperation) (unmarshall : List UInt8 → V) : Call → ConnectionM (Reply V)
  | get key => do
    let v ← RemoteCacheImpl.get o unmarshall key.1
    pure (.value v)
  | getWithVersion key => do
    let v ← RemoteCacheImpl.getWithVersion o unmarshall key.1
    pure (.versioned v.1 v.2)
  | getWithMetadata key => do
    let v ← RemoteCacheImpl.getWithMetadata o unmarshall key.1
    pure (.metadata v.1 v.2)
  | containsKey key => do
    let b ← ContainsKeyOperation.executeOperation o key.1
    pure (.flag b)
  | put p => do
    let v ← RemoteCacheImpl.put o unmarshall p.entry
    pure (.value v)
  | putIfAbsent p => do
    let v ← RemoteCacheImpl.putIfAbsent o unmarshall p.entry
    pure (.value v)
  | replace p => do
    let v ← RemoteCacheImpl.replace o unmarshall p.entry
    pure (.value v)
  | remove key => do
    let v ← RemoteCacheImpl.remove o unmarshall key.1
    pure (.value v)
  | replaceWithVersion p version => do
    let b ← RemoteCacheImpl.replaceWithVersion o p.entry version
    pure (.flag b)
  | removeWithVersion key version => do
    let b ← RemoteCacheImpl.removeWithVersion o key.1 version
    pure (.flag b)
  | clear => do
    let _ ← ClearOperation.executeOperation o
    pure .done
  | size => do
    let n ← SizeOperation.executeOperation o
    pure (.number n)

-- Nothing that is said has the value of no bytes.
def Full (value : Option Bytes) : Prop := ∀ v, value = some v → v.1 ≠ []

def Stored.metadata (stored : Stored) : Metadata where
  lifespan := stored.lifespan
  maxIdle := stored.maxIdle
  version := stored.version
  value := stored.value.1

def Modification.done : Modification → Bool
  | .updated _ => true
  | .modified _ | .absent => false

def told (forced : Bool) (value : Option Bytes) : Option Bytes := if forced then value else none

def shown (unmarshall : List UInt8 → V) (value : Option Bytes) : Option V :=
  value.map fun v => unmarshall v.1

-- The service itself, called with the same arguments.
def Call.direct (service : CacheService S) (unmarshall : List UInt8 → V) (forced : Bool) (s : S) :
    Call → Reply V × S
  | get key =>
    let (stored, next) := service.find s key.1
    (.value (shown unmarshall (stored.map Stored.value)), next)
  | getWithVersion key =>
    let (stored, next) := service.find s key.1
    (.versioned (shown unmarshall (stored.map Stored.value)) (stored.map Stored.version), next)
  | getWithMetadata key =>
    let (stored, next) := service.find s key.1
    (.metadata (shown unmarshall (stored.map Stored.value)) (stored.map Stored.metadata), next)
  | containsKey key =>
    let (present, next) := service.contains s key.1
    (.flag present, next)
  | put p =>
    let (previous, next) := service.put s p.written
    (.value (shown unmarshall (told forced previous)), next)
  | putIfAbsent p =>
    let (present, next) := service.putIfAbsent s p.written
    (.value (shown unmarshall (told forced present)), next)
  | replace p =>
    let (replaced, next) := service.replace s p.written
    (.value (shown unmarshall (told forced replaced)), next)
  | remove key =>
    let (removed, next) := service.remove s key.1
    (.value (shown unmarshall (told forced removed)), next)
  | replaceWithVersion p version =>
    let (modification, next) := service.replaceIfUnmodified s p.written version
    (.flag modification.done, next)
  | removeWithVersion key version =>
    let (modification, next) := service.removeIfUnmodified s key.1 version
    (.flag modification.done, next)
  | clear => (.done, service.clear s)
  | size => (.number (service.size s), s)

structure CacheCall where
  operation : HotRodOperation
  sendable : operation.Sendable
  call : Call

def overWire (service : CacheService S) (unmarshall : List UInt8 → V) :
    Machine (S × Connection) CacheCall (Except Exn (Reply V)) :=
  fun both c => answerOf (talk service.server (c.call.run c.operation unmarshall) both)

def direct (service : CacheService S) (unmarshall : List UInt8 → V) :
    Machine S CacheCall (Except Exn (Reply V)) := fun s c =>
  let (reply, next) := c.call.direct service unmarshall (forces c.operation.flags) s
  (.ok reply, next)

/-- The call is not told of a value of no bytes. -/
def Shows (service : CacheService S) (s : S) (c : CacheCall) : Prop :=
  match c.call with
  | .get key | .getWithVersion key | .getWithMetadata key =>
    Full ((service.find s key.1).1.map Stored.value)
  | .put p => Full (told (forces c.operation.flags) (service.put s p.written).1)
  | .putIfAbsent p => Full (told (forces c.operation.flags) (service.putIfAbsent s p.written).1)
  | .replace p => Full (told (forces c.operation.flags) (service.replace s p.written).1)
  | .remove key => Full (told (forces c.operation.flags) (service.remove s key.1).1)
  | .containsKey _ | .replaceWithVersion .. | .removeWithVersion .. | .clear | .size => True

/-! ### Requests that arrive -/

theorem parseKey_written (key : Bytes) : parseKey (writeArray key.1) = some (key.1, []) := by
  rw [parseKey, WireFormat.parser_bind_apply]
  have read := parse_last WireFormat.array key
  rw [show writeArray key.1 = WireFormat.array.encode key from rfl, read]
  rfl

section Requests

variable (o : HotRodOperation)

theorem parseWritten_written (p : Pair) :
    parseWritten o.codec (putBody o p.entry) = some (p.written, []) := by
  have body : putBody o p.entry = WireFormat.array.encode p.key
      ++ (Operations.writeExpirationParams o.codec p.lifespan p.maxIdle
        ++ WireFormat.array.encode p.value) := List.append_assoc _ _ _
  rw [parseWritten, body]
  simp only [WireFormat.parser_bind_apply, parse_encode, readExpirationParams_stored, parse_last,
    Option.bind_some]
  rfl

theorem parseVersioned_written (p : Pair) (version : UInt64) :
    parseVersioned o.codec (writeArray p.entry.key
        ++ Operations.writeExpirationParams o.codec p.entry.lifespan p.entry.maxIdle
        ++ writeLong version ++ writeArray p.entry.value) = some ((p.written, version), []) := by
  have body : writeArray p.entry.key
        ++ Operations.writeExpirationParams o.codec p.entry.lifespan p.entry.maxIdle
        ++ writeLong version ++ writeArray p.entry.value =
      WireFormat.array.encode p.key
        ++ (Operations.writeExpirationParams o.codec p.lifespan p.maxIdle
          ++ (WireFormat.long.encode version ++ WireFormat.array.encode p.value)) := by
    simp only [List.append_assoc]
    rfl
  rw [parseVersioned, body]
  simp only [WireFormat.parser_bind_apply, parse_encode, readExpirationParams_stored, parse_last,
    Option.bind_some]
  rfl

variable {service : CacheService S} {s : Connection} {server : S} {opCode : OpCode}
  {body : List UInt8} {asked : CacheRequest}

theorem talk_request {R : Type} (finish : UInt8 → ConnectionM R) (sendable : o.Sendable)
    (idle : Idle s) (parsed : parseBody o.codec opCode body = some (some asked, [])) :
    talk service.server (o.exchange opCode body finish) (server, s) =
      beside (service.perform (forces o.flags) server asked).2
        (finish (service.perform (forces o.flags) server asked).1.status
          (holding s (service.perform (forces o.flags) server asked).1.body)) := by
  apply talk_exchange opCode body finish sendable idle
  have known : opCodeOf (o.header opCode).said.opCode = some opCode := opCodeOf_request opCode
  have read : readCacheRequest ⟨o.codec.protocolVersion, (o.header opCode).said, body⟩ =
      some asked := by
    simp only [readCacheRequest, known, codecOf_protocolVersion, parsed, Option.bind_eq_bind,
      Option.bind_some]
  rw [read, Option.map_some]
  rfl

theorem talk_reads {R : Type} {finish : UInt8 → ConnectionM R} {r : R} (sendable : o.Sendable)
    (idle : Idle s) (parsed : parseBody o.codec opCode body = some (some asked, []))
    (reads : Consumes (finish (service.perform (forces o.flags) server asked).1.status)
      (service.perform (forces o.flags) server asked).1.body r) :
    answerOf (talk service.server (o.exchange opCode body finish) (server, s)) =
      (.ok r, (service.perform (forces o.flags) server asked).2, holding s []) := by
  rw [talk_request o finish sendable idle parsed, finish_holding reads s]
  rfl

end Requests

/-! ### Answers that are read -/

def bytesOf (value : Option Bytes) : List UInt8 := (value.map Subtype.val).getD []

theorem valueOrNull_eq_iff (unmarshall : List UInt8 → V) (value : Option Bytes) :
    valueOrNull unmarshall (bytesOf value) = shown unmarshall value ↔ Full value := by
  cases value with
  | none => exact iff_of_true rfl nofun
  | some v =>
    by_cases empty : v.1 = []
    · refine iff_of_false ?_ (fun full => full v rfl empty)
      change (data v.1).map unmarshall ≠ _
      rw [data, if_pos empty]
      exact (Option.some_ne_none _).symm
    · refine iff_of_true ?_ ?_
      · change (data v.1).map unmarshall = _
        rw [data, if_neg empty]
        rfl
      · intro w same
        cases same
        exact empty

theorem consumes_executed (forced : Bool) (previous : Option Bytes) :
    Consumes (returnPossiblePrevValue (Response.executed forced previous).status)
      (Response.executed forced previous).body (bytesOf (told forced previous)) := by
  rw [Response.executed, told]
  cases if forced then previous else none with
  | none => exact consumes_pure []
  | some value => exact consumes_readValue value

theorem consumes_refused (forced : Bool) (current : Bytes) :
    Consumes (returnPossiblePrevValue (Response.refused forced current).status)
      (Response.refused forced current).body (bytesOf (told forced (some current))) := by
  cases forced with
  | true => exact consumes_readValue current
  | false => exact consumes_pure []

theorem isSuccess_executed (forced : Bool) (previous : Option Bytes) :
    isSuccess (Response.executed forced previous).status = true := by
  rw [Response.executed]
  cases if forced then previous else none with
  | none => rfl
  | some value => rfl

theorem consumes_span (flag infinite : UInt8) (span : Option (UInt64 × UInt32))
    (said : flag &&& infinite = infinite ↔ span = none) :
    Consumes (readSpan flag infinite) (encodeSpan flag infinite (span.getD (0, 0))) span := by
  cases span with
  | none =>
    rw [readSpan, encodeSpan, if_neg (not_not_intro (said.mpr rfl)),
      if_neg (not_not_intro (said.mpr rfl))]
    exact consumes_pure none
  | some span =>
    have finite : flag &&& infinite ≠ infinite := fun all => by cases said.mp all
    rw [readSpan, encodeSpan, if_pos finite, if_pos finite]
    exact (consumes_read WireFormat.long span.1).bind
      ((consumes_read WireFormat.vInt span.2).map _)

theorem consumes_encodeMetadata (stored : Stored) :
    Consumes readMetadata stored.encodeMetadata (some stored.metadata) := by
  have lives : stored.flag &&& infiniteLifespan = infiniteLifespan ↔ stored.lifespan = none := by
    rw [Stored.flag]
    cases stored.lifespan <;> cases stored.maxIdle <;> simp +decide
  have idles : stored.flag &&& infiniteMaxidle = infiniteMaxidle ↔ stored.maxIdle = none := by
    rw [Stored.flag]
    cases stored.lifespan <;> cases stored.maxIdle <;> simp +decide
  apply (consumes_read WireFormat.byte stored.flag).bind
  apply (consumes_span _ _ _ lives).bind
  apply (consumes_span _ _ _ idles).bind
  exact (consumes_read WireFormat.long stored.version).bind
    ((consumes_readValue stored.value).map _)

theorem consumes_ofFound {R : Type} {reader : ConnectionM R} {encode : Stored → List UInt8}
    {value : Stored → R} (one : ∀ stored, Consumes reader (encode stored) (value stored))
    (absent : R) (stored : Option Stored) :
    Consumes (if isSuccess (Response.ofFound encode stored).status then reader else pure absent)
      (Response.ofFound encode stored).body (stored.elim absent value) := by
  cases stored with
  | none => exact consumes_pure absent
  | some stored => exact one stored

theorem consumes_ofFound_some {R : Type} {reader : ConnectionM (Option R)}
    {encode : Stored → List UInt8} {value : Stored → R}
    (one : ∀ stored, Consumes reader (encode stored) (some (value stored)))
    (stored : Option Stored) :
    Consumes (if isSuccess (Response.ofFound encode stored).status then reader else pure none)
      (Response.ofFound encode stored).body (stored.map value) := by
  have said : stored.map value = stored.elim none fun stored => some (value stored) := by
    cases stored <;> rfl
  rw [said]
  exact consumes_ofFound one none stored

theorem consumes_present (forced : Bool) (present : Option Bytes) :
    Consumes (if isNotExecuted (Response.ofPresent forced present).status then
        returnPossiblePrevValue (Response.ofPresent forced present).status else pure [])
      (Response.ofPresent forced present).body (bytesOf (told forced present)) := by
  cases present with
  | none =>
    rw [told, ite_self]
    exact consumes_pure []
  | some current =>
    have refused : isNotExecuted (Response.refused forced current).status = true := by
      cases forced <;> rfl
    rw [Response.ofPresent, if_pos refused]
    exact consumes_refused forced current

theorem consumes_coded {status : UInt8} {rsp : RspCode} {body bytes : List UInt8}
    (known : rspCode status = some rsp)
    (reads : Consumes (returnPossiblePrevValue status) body bytes) :
    Consumes (returnVersionedOperationResponse status) body (bytes, rsp) := by
  rw [returnVersionedOperationResponse, known]
  exact reads.map fun prevValue => (prevValue, rsp)

theorem reads_modification (forced : Bool) (modification : Modification) :
    ∃ response, Consumes
        (returnVersionedOperationResponse (Response.ofModification forced modification).status)
        (Response.ofModification forced modification).body response ∧
      RemoteCacheImpl.isUpdated response = modification.done := by
  cases modification with
  | updated previous =>
    have success : rspCode (Response.executed forced (some previous)).status = some .success :=
      if_pos (isSuccess_executed forced (some previous))
    exact ⟨_, consumes_coded success (consumes_executed forced (some previous)), rfl⟩
  | modified current =>
    have refused : rspCode (Response.refused forced current).status = some .modifiedKey := by
      cases forced <;> rfl
    exact ⟨_, consumes_coded refused (consumes_refused forced current), rfl⟩
  | absent =>
    have missing : rspCode keyDoesNotExistStatus = some .noSuchKey := rfl
    exact ⟨_, consumes_coded missing (consumes_pure []), rfl⟩

/-! ### Operations -/

section Operations

variable (service : CacheService S) {o : HotRodOperation} {s : Connection} (sendable : o.Sendable)
  (idle : Idle s) (server : S)

include sendable idle

theorem talk_get (key : Bytes) :
    answerOf (talk service.server (GetOperation.executeOperation o key.1) (server, s)) =
      (.ok (bytesOf ((service.find server key.1).1.map Stored.value)),
        (service.find server key.1).2, holding s []) := by
  have parsed : parseBody o.codec .get (writeArray key.1) = some (some (.get key.1), []) :=
    WireFormat.parsed_map (parseKey_written key) (some ∘ CacheRequest.get)
  apply talk_reads o sendable idle parsed
  have said : bytesOf ((service.find server key.1).1.map Stored.value) =
      (service.find server key.1).1.elim [] fun stored => stored.value.1 := by
    cases (service.find server key.1).1 <;> rfl
  rw [said]
  exact consumes_ofFound (fun stored => consumes_readValue stored.value) [] _

theorem talk_getWithVersion (key : Bytes) :
    answerOf (talk service.server (GetWithVersionOperation.executeOperation o key.1) (server, s)) =
      (.ok ((service.find server key.1).1.map fun stored => (stored.version, stored.value.1)),
        (service.find server key.1).2, holding s []) := by
  have parsed : parseBody o.codec .getWithVersion (writeArray key.1) =
      some (some (.getWithVersion key.1), []) :=
    WireFormat.parsed_map (parseKey_written key) (some ∘ CacheRequest.getWithVersion)
  apply talk_reads o sendable idle parsed
  have one : ∀ stored : Stored, Consumes readVersioned
      (WireFormat.long.encode stored.version ++ WireFormat.array.encode stored.value)
      (some (stored.version, stored.value.1)) := fun stored =>
    (consumes_read WireFormat.long stored.version).bind ((consumes_readValue stored.value).map _)
  exact consumes_ofFound_some one _

theorem talk_getWithMetadata (key : Bytes) :
    answerOf (talk service.server (GetWithMetadataOperation.executeOperation o key.1) (server, s)) =
      (.ok ((service.find server key.1).1.map Stored.metadata),
        (service.find server key.1).2, holding s []) := by
  have parsed : parseBody o.codec .getWithMetadata (writeArray key.1) =
      some (some (.getWithMetadata key.1), []) :=
    WireFormat.parsed_map (parseKey_written key) (some ∘ CacheRequest.getWithMetadata)
  apply talk_reads o sendable idle parsed
  exact consumes_ofFound_some consumes_encodeMetadata _

theorem talk_containsKey (key : Bytes) :
    answerOf (talk service.server (ContainsKeyOperation.executeOperation o key.1) (server, s)) =
      (.ok (service.contains server key.1).1, (service.contains server key.1).2, holding s []) := by
  have parsed : parseBody o.codec .containsKey (writeArray key.1) =
      some (some (.containsKey key.1), []) :=
    WireFormat.parsed_map (parseKey_written key) (some ∘ CacheRequest.containsKey)
  apply talk_reads o sendable idle parsed
  simp only [CacheService.perform]
  cases (service.contains server key.1).1 with
  | false => exact consumes_pure false
  | true => exact consumes_pure true

theorem talk_put (p : Pair) :
    answerOf (talk service.server (PutOperation.executeOperation o p.entry) (server, s)) =
      (.ok (bytesOf (told (forces o.flags) (service.put server p.written).1)),
        (service.put server p.written).2, holding s []) := by
  have parsed : parseBody o.codec .put (putBody o p.entry) =
      some (some (.put p.written), []) :=
    WireFormat.parsed_map (parseWritten_written o p) (some ∘ CacheRequest.put)
  apply talk_reads o sendable idle parsed
  simp only [CacheService.perform, isSuccess_executed]
  exact consumes_executed _ _

theorem talk_putIfAbsent (p : Pair) :
    answerOf (talk service.server (PutIfAbsentOperation.executeOperation o p.entry) (server, s)) =
      (.ok (bytesOf (told (forces o.flags) (service.putIfAbsent server p.written).1)),
        (service.putIfAbsent server p.written).2, holding s []) := by
  have parsed : parseBody o.codec .putIfAbsent (putBody o p.entry) =
      some (some (.putIfAbsent p.written), []) :=
    WireFormat.parsed_map (parseWritten_written o p) (some ∘ CacheRequest.putIfAbsent)
  apply talk_reads o sendable idle parsed
  exact consumes_present _ _

theorem talk_replace (p : Pair) :
    answerOf (talk service.server (ReplaceOperation.executeOperation o p.entry) (server, s)) =
      (.ok (bytesOf (told (forces o.flags) (service.replace server p.written).1)),
        (service.replace server p.written).2, holding s []) := by
  have parsed : parseBody o.codec .replace (putBody o p.entry) =
      some (some (.replace p.written), []) :=
    WireFormat.parsed_map (parseWritten_written o p) (some ∘ CacheRequest.replace)
  apply talk_reads o sendable idle parsed
  simp only [CacheService.perform]
  cases (service.replace server p.written).1 with
  | none =>
    rw [told, ite_self]
    exact consumes_pure []
  | some previous => exact consumes_executed _ _

theorem talk_remove (key : Bytes) :
    answerOf (talk service.server (RemoveOperation.executeOperation o key.1) (server, s)) =
      (.ok (bytesOf (told (forces o.flags) (service.remove server key.1).1)),
        (service.remove server key.1).2, holding s []) := by
  have parsed : parseBody o.codec .remove (writeArray key.1) =
      some (some (.remove key.1), []) :=
    WireFormat.parsed_map (parseKey_written key) (some ∘ CacheRequest.remove)
  apply talk_reads o sendable idle parsed
  simp only [CacheService.perform]
  cases (service.remove server key.1).1 with
  | none =>
    rw [told, ite_self]
    exact consumes_pure []
  | some previous => exact consumes_executed _ _

theorem talk_replaceIfUnmodified (p : Pair) (version : UInt64) :
    ∃ response, answerOf (talk service.server
        (ReplaceIfUnmodifiedOperation.executeOperation o p.entry version) (server, s)) =
        (.ok response, (service.replaceIfUnmodified server p.written version).2, holding s []) ∧
      RemoteCacheImpl.isUpdated response =
        (service.replaceIfUnmodified server p.written version).1.done := by
  have parsed : parseBody o.codec .replaceIfUnmodified (writeArray p.entry.key
        ++ Operations.writeExpirationParams o.codec p.entry.lifespan p.entry.maxIdle
        ++ writeLong version ++ writeArray p.entry.value) =
      some (some (.replaceIfUnmodified p.written version), []) :=
    WireFormat.parsed_map (parseVersioned_written o p version) fun both =>
      some (CacheRequest.replaceIfUnmodified both.1 both.2)
  obtain ⟨response, reads, updated⟩ := reads_modification (forces o.flags)
    (service.replaceIfUnmodified server p.written version).1
  exact ⟨response, talk_reads o sendable idle parsed reads, updated⟩

theorem talk_removeIfUnmodified (key : Bytes) (version : UInt64) :
    ∃ response, answerOf (talk service.server
        (RemoveIfUnmodifiedOperation.executeOperation o key.1 version) (server, s)) =
        (.ok response, (service.removeIfUnmodified server key.1 version).2, holding s []) ∧
      RemoteCacheImpl.isUpdated response =
        (service.removeIfUnmodified server key.1 version).1.done := by
  have parsed : parseBody o.codec .removeIfUnmodified (writeArray key.1 ++ writeLong version) =
      some (some (.removeIfUnmodified key.1 version), []) := by
    have body : writeArray key.1 ++ writeLong version =
      WireFormat.array.encode key ++ WireFormat.long.encode version := rfl
    have first : parseKey (WireFormat.array.encode key ++ WireFormat.long.encode version) =
        some (key.1, WireFormat.long.encode version) := by
      rw [parseKey, WireFormat.parser_bind_apply, parse_encode]
      rfl
    have both : parseBody o.codec .removeIfUnmodified = parseKey >>= fun key =>
      WireFormat.long.parse >>= fun version => pure (some (.removeIfUnmodified key version)) := rfl
    rw [both, body]
    simp only [WireFormat.parser_bind_apply, first, parse_last, Option.bind_some]
    rfl
  obtain ⟨response, reads, updated⟩ := reads_modification (forces o.flags)
    (service.removeIfUnmodified server key.1 version).1
  exact ⟨response, talk_reads o sendable idle parsed reads, updated⟩

theorem talk_clear :
    answerOf (talk service.server (ClearOperation.executeOperation o) (server, s)) =
      (.ok [], service.clear server, holding s []) := by
  have parsed : parseBody o.codec .clear [] = some (some .clear, []) := rfl
  exact talk_reads o sendable idle parsed (consumes_pure [])

theorem talk_size :
    answerOf (talk service.server (SizeOperation.executeOperation o) (server, s)) =
      (.ok (service.size server), server, holding s []) := by
  have parsed : parseBody o.codec .size [] = some (some .size, []) := rfl
  exact talk_reads o sendable idle parsed (consumes_read WireFormat.vInt (service.size server))

end Operations

/-! ### Calls that are answered -/

/-- The client gets the answer of the service unless it is told of a value of no bytes, and in
any case the server is left in the state of the service. -/
structure Alike (service : CacheService S) (unmarshall : List UInt8 → V) (server : S)
    (s : Connection) (c : CacheCall) : Prop where
  answer : (overWire service unmarshall (server, s) c).1 =
    (direct service unmarshall server c).1 ↔ Shows service server c
  next : (overWire service unmarshall (server, s) c).2 =
    ((direct service unmarshall server c).2, holding s [])

section Calls

variable (service : CacheService S) (unmarshall : List UInt8 → V) {server next : S} {s : Connection}

theorem answerOf_result {R : Type} {m : ConnectionM R} {r : R} {said : Reply V} {same : Prop}
    (talked : answerOf (talk service.server m (server, s)) = (.ok r, next, holding s []))
    (f : R → Reply V) (alike : f r = said ↔ same) :
    ((answerOf (talk service.server (m >>= fun r => pure (f r)) (server, s))).1 = .ok said ↔
        same) ∧
      (answerOf (talk service.server (m >>= fun r => pure (f r)) (server, s))).2 =
        (next, holding s []) := by
  rw [answerOf_talk_map, talked]
  exact ⟨(Except.ok.injEq _ _).to_iff.trans alike, rfl⟩

theorem value_eq_iff (value : Option Bytes) :
    Reply.value (valueOrNull unmarshall (bytesOf value)) = .value (shown unmarshall value) ↔
      Full value := by
  rw [Reply.value.injEq, valueOrNull_eq_iff]

theorem versioned_eq_iff (found : Option Stored) :
    Reply.versioned (valueOrNull unmarshall
        (((found.map fun stored => (stored.version, stored.value.1)).map Prod.snd).getD []))
        ((found.map fun stored => (stored.version, stored.value.1)).map Prod.fst) =
      .versioned (shown unmarshall (found.map Stored.value)) (found.map Stored.version) ↔
      Full (found.map Stored.value) := by
  have bytes : ((found.map fun stored => (stored.version, stored.value.1)).map Prod.snd).getD [] =
      bytesOf (found.map Stored.value) := by
    cases found <;> rfl
  have version : (found.map fun stored => (stored.version, stored.value.1)).map Prod.fst =
      found.map Stored.version := by
    cases found <;> rfl
  rw [bytes, version, Reply.versioned.injEq, valueOrNull_eq_iff, and_iff_left rfl]

theorem metadata_eq_iff (found : Option Stored) :
    Reply.metadata (valueOrNull unmarshall
        (((found.map Stored.metadata).map Metadata.value).getD [])) (found.map Stored.metadata) =
      .metadata (shown unmarshall (found.map Stored.value)) (found.map Stored.metadata) ↔
      Full (found.map Stored.value) := by
  have bytes : ((found.map Stored.metadata).map Metadata.value).getD [] =
      bytesOf (found.map Stored.value) := by
    cases found <;> rfl
  rw [bytes, Reply.metadata.injEq, valueOrNull_eq_iff, and_iff_left rfl]

theorem alike_of_idle (server : S) (idle : Idle s) (c : CacheCall) :
    Alike service unmarshall server s c := by
  obtain ⟨o, sendable, call⟩ := c
  suffices both : ((answerOf (talk service.server (call.run o unmarshall) (server, s))).1 =
        .ok (call.direct service unmarshall (forces o.flags) server).1 ↔
      Shows service server ⟨o, sendable, call⟩) ∧
      (answerOf (talk service.server (call.run o unmarshall) (server, s))).2 =
        ((call.direct service unmarshall (forces o.flags) server).2, holding s [])
    from ⟨both.1, both.2⟩
  cases call with
  | get key =>
    rw [Call.run, RemoteCacheImpl.get, bind_assoc]
    simp only [pure_bind]
    exact answerOf_result service (talk_get service sendable idle server key)
      (fun bytes => .value (valueOrNull unmarshall bytes)) (value_eq_iff unmarshall _)
  | getWithVersion key =>
    rw [Call.run, RemoteCacheImpl.getWithVersion, bind_assoc]
    simp only [pure_bind]
    refine answerOf_result service (talk_getWithVersion service sendable idle server key)
      (fun m => .versioned (valueOrNull unmarshall ((m.map Prod.snd).getD [])) (m.map Prod.fst)) ?_
    exact versioned_eq_iff unmarshall _
  | getWithMetadata key =>
    rw [Call.run, RemoteCacheImpl.getWithMetadata, bind_assoc]
    simp only [pure_bind]
    refine answerOf_result service (talk_getWithMetadata service sendable idle server key)
      (fun m => .metadata (valueOrNull unmarshall ((m.map Metadata.value).getD [])) m) ?_
    exact metadata_eq_iff unmarshall _
  | containsKey key =>
    exact answerOf_result service (talk_containsKey service sendable idle server key) .flag
      (iff_of_true rfl trivial)
  | put p =>
    rw [Call.run, RemoteCacheImpl.put, bind_assoc]
    simp only [pure_bind]
    exact answerOf_result service (talk_put service sendable idle server p)
      (fun bytes => .value (valueOrNull unmarshall bytes)) (value_eq_iff unmarshall _)
  | putIfAbsent p =>
    rw [Call.run, RemoteCacheImpl.putIfAbsent, bind_assoc]
    simp only [pure_bind]
    exact answerOf_result service (talk_putIfAbsent service sendable idle server p)
      (fun bytes => .value (valueOrNull unmarshall bytes)) (value_eq_iff unmarshall _)
  | replace p =>
    rw [Call.run, RemoteCacheImpl.replace, bind_assoc]
    simp only [pure_bind]
    exact answerOf_result service (talk_replace service sendable idle server p)
      (fun bytes => .value (valueOrNull unmarshall bytes)) (value_eq_iff unmarshall _)
  | remove key =>
    rw [Call.run, RemoteCacheImpl.remove, bind_assoc]
    simp only [pure_bind]
    exact answerOf_result service (talk_remove service sendable idle server key)
      (fun bytes => .value (valueOrNull unmarshall bytes)) (value_eq_iff unmarshall _)
  | replaceWithVersion p version =>
    obtain ⟨response, talked, updated⟩ :=
      talk_replaceIfUnmodified service sendable idle server p version
    rw [Call.run, RemoteCacheImpl.replaceWithVersion, bind_assoc]
    simp only [pure_bind]
    exact answerOf_result service talked
      (fun response => .flag (RemoteCacheImpl.isUpdated response))
      (iff_of_true (congrArg Reply.flag updated) trivial)
  | removeWithVersion key version =>
    obtain ⟨response, talked, updated⟩ :=
      talk_removeIfUnmodified service sendable idle server key version
    rw [Call.run, RemoteCacheImpl.removeWithVersion, bind_assoc]
    simp only [pure_bind]
    exact answerOf_result service talked
      (fun response => .flag (RemoteCacheImpl.isUpdated response))
      (iff_of_true (congrArg Reply.flag updated) trivial)
  | clear =>
    exact answerOf_result service (talk_clear service sendable idle server) (fun _ => .done)
      (iff_of_true rfl trivial)
  | size =>
    exact answerOf_result service (talk_size service sendable idle server) .number
      (iff_of_true rfl trivial)

end Calls

/-! ### Runs -/

-- The server with an idle connection, and the service.
theorem follows_direct (service : CacheService S) (unmarshall : List UInt8 → V) :
    Follows (overWire service unmarshall) (direct service unmarshall)
      (fun both server => both.1 = server ∧ Idle both.2) (Shows service) := by
  constructor
  · rintro ⟨server, s⟩ _ c ⟨rfl, idle⟩
    exact (alike_of_idle service unmarshall server idle c).answer
  · rintro ⟨server, s⟩ _ c ⟨rfl, idle⟩
    rw [(alike_of_idle service unmarshall server idle c).next]
    exact ⟨rfl, idle_holding s⟩

/-- Whatever is called over any of the connections to a server, in any order and with any flags,
the answers are those of the service exactly if no call is told of a value of no bytes. -/
theorem cache_answers_eq_direct_iff {I : Type} [DecidableEq I] (service : CacheService S)
    (unmarshall : List UInt8 → V) (server : S) {connections : I → Connection}
    (idle : ∀ i, Idle (connections i)) (calls : List (I × CacheCall)) :
    answers (sharing (overWire service unmarshall)) (server, connections) calls =
        answers (anyone (direct service unmarshall)) server calls ↔
      Throughout (anyone (direct service unmarshall)) (fun s call => Shows service s call.2)
        server calls :=
  (follows_direct service unmarshall).sharing.answers_eq_iff ⟨rfl, idle⟩

/-- One entry, whatever its key, that never expires and whose version is counted up. -/
def oneEntry : CacheService (Option Stored) where
  find entry _ := (entry, entry)
  contains entry _ := (entry.isSome, entry)
  put entry written := (entry.map Stored.value, next entry written)
  putIfAbsent entry written := (entry.map Stored.value, entry.or (next entry written))
  replace entry written := (entry.map Stored.value, entry.bind fun _ => next entry written)
  remove entry _ := (entry.map Stored.value, none)
  replaceIfUnmodified entry written version :=
    match entry with
    | none => (.absent, none)
    | some stored =>
      if stored.version = version then (.updated stored.value, next entry written)
      else (.modified stored.value, entry)
  removeIfUnmodified entry _ version :=
    match entry with
    | none => (.absent, none)
    | some stored =>
      if stored.version = version then (.updated stored.value, none)
      else (.modified stored.value, entry)
  clear _ := none
  size entry := if entry.isSome then 1 else 0
where
  next (entry : Option Stored) (written : Written) : Option Stored :=
    some {
      value := written.value
      version := (entry.map Stored.version).getD 0 + 1
      lifespan := none
      maxIdle := none }

def callOf (call : Call) : CacheCall where
  operation := .plain
  sendable := HotRodOperation.sendable_plain
  call

def pairOf (value : UInt8) : Pair where
  key := .one 0x6B
  value := .one value
  lifespan := 0
  maxIdle := 0

theorem answers_of_versions :
    answers (sharing (overWire oneEntry id))
        (none, fun _ : Bool => { hostname := "localhost", port := 11222 })
        [(true, callOf (.put (pairOf 1))), (true, callOf (.getWithVersion (pairOf 1).key)),
          (false, callOf (.getWithVersion (pairOf 1).key)),
          (false, callOf (.replaceWithVersion (pairOf 2) 1)),
          (true, callOf (.replaceWithVersion (pairOf 3) 1)), (true, callOf (.get (pairOf 1).key))] =
      [.ok (.value none), .ok (.versioned (some [1]) (some 1)),
        .ok (.versioned (some [1]) (some 1)), .ok (.flag true), .ok (.flag false),
        .ok (.value (some [2]))] := by
  refine
    ((cache_answers_eq_direct_iff oneEntry id none (fun _ => ⟨rfl, rfl, rfl⟩) _).mpr ?_).trans rfl
  refine ⟨nofun, ?_, ?_, trivial, trivial, ?_, trivial⟩
  all_goals
    intro v same
    cases same
    exact List.cons_ne_nil _ _

end HotRod.Operations.Caches
