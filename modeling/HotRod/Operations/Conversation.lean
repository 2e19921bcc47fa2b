import HotRod.Operations.Answers
import HotRod.Protocol.RequestHeader

/-! An operation and the server at the other end of its connection.

A server is a machine that answers the bytes of a request. `talk` runs an operation with a
server in place of the one fixed answer of a `Delivery`: the server gets the bytes that the
socket is given. `talk_exchange` is what every client with a server rests on: the server
reads what the operation was asked to do, and the operation finishes on its answer. -/

set_option autoImplicit false

namespace HotRod.Operations

open Semantics.Execution
open Protocol HotRodConstants
open WireFormat (Bytes)

variable {A R S : Type}

/-! ### Requests -/

/-- The magic byte, message id, version, opcode, cache name, flags, client intelligence and
topology id. -/
abbrev CommonFields := UInt8 × UInt64 × UInt8 × UInt8 × Bytes × UInt32 × UInt8 × UInt32

def commonFields : WireFormat CommonFields :=
  WireFormat.byte.seq (WireFormat.vLong.seq (WireFormat.byte.seq (WireFormat.byte.seq
    (WireFormat.array.seq (WireFormat.vInt.seq (WireFormat.byte.seq WireFormat.vInt))))))

structure Request where
  version : UInt8
  header : ReadHeader
  body : List UInt8

-- Media types are sent from version 2.8 on.
def readMediaTypes (version : UInt8) (bytes : List UInt8) :
    Option ((Option MediaType × Option MediaType) × List UInt8) :=
  if 28 ≤ version then do
    let ((key, value), rest) ← (MediaTypeField.format.seq MediaTypeField.format).decode bytes
    let keyMediaType ← key.mediaType
    let valueMediaType ← value.mediaType
    pure ((keyMediaType, valueMediaType), rest)
  else pure ((none, none), bytes)

def readRequest (bytes : List UInt8) : Option Request := do
  let ((magic, messageId, version, opCode, cacheName, flags, _, topologyId), rest) ←
    commonFields.decode bytes
  if magic = requestMagic then do
    let ((keyMediaType, valueMediaType), body) ← readMediaTypes version rest
    let header : ReadHeader :=
      { messageId, opCode, cacheName := cacheName.1, flags, topologyId := topologyId.toInt32,
        keyMediaType, valueMediaType }
    pure { version, header, body }
  else none

namespace HotRodOperation

variable (o : HotRodOperation) (opCode : OpCode)

def header (o : HotRodOperation) (opCode : OpCode) : RequestHeader :=
  { (o.params opCode).header with
    dataFormat := if 28 ≤ o.codec.protocolVersion then o.dataFormat else none }

def commonBytes (o : HotRodOperation) (opCode : OpCode) : List UInt8 :=
  writeByte requestMagic ++ writeVLong o.messageId ++ writeByte o.codec.protocolVersion
    ++ writeByte opCode.request ++ writeArray o.cacheName ++ writeVInt o.flags
    ++ writeByte clientIntelligenceHashDistributionAware ++ writeVInt o.topologyId

def headerBytes (o : HotRodOperation) (opCode : OpCode) : List UInt8 :=
  o.commonBytes opCode
    ++ if 28 ≤ o.codec.protocolVersion then (o.header opCode).writeMediaTypes else []

/-- All lengths in the header fit the 32 bits they are sent in. -/
def Sendable (o : HotRodOperation) : Prop := ∀ opCode, (o.header opCode).said.Fits

theorem sendable_plain : HotRodOperation.plain.Sendable := fun _ =>
  ⟨Nat.two_pow_pos 32, nofun, nofun⟩

theorem writeHeader_apply (s : Connection) :
    o.writeHeader opCode s = .ok () (s.filled (o.headerBytes opCode)) := by
  rw [writeHeader, Codec.writeHeader, bind_of_ok (write_apply _ s), headerBytes]
  by_cases newest : 28 ≤ o.codec.protocolVersion
  · have format : (o.header opCode).dataFormat = (o.params opCode).dataFormat := if_pos newest
    rw [if_pos newest, if_pos newest, RequestHeader.writeMediaTypes, format,
      ← filled_filled s (o.commonBytes opCode)]
    cases (o.params opCode).dataFormat with
    | none => rfl
    | some format => rfl
  · rw [if_neg newest, if_neg newest, List.append_nil]
    rfl

theorem readMediaTypes_written (fits : (o.header opCode).said.Fits) (body : List UInt8) :
    readMediaTypes o.codec.protocolVersion
        ((if 28 ≤ o.codec.protocolVersion then (o.header opCode).writeMediaTypes else []) ++ body) =
      some (((o.header opCode).said.keyMediaType, (o.header opCode).said.valueMediaType),
        body) := by
  unfold readMediaTypes
  by_cases newest : 28 ≤ o.codec.protocolVersion
  · obtain ⟨key, value, written, keySaid, valueSaid⟩ := RequestHeader.exists_mediaTypes fits
    rw [if_pos newest, if_pos newest, written, WireFormat.decode_encode_append]
    simp only [Option.bind_eq_bind, Option.bind_some, keySaid, valueSaid, Option.pure_def]
  · have format : (o.header opCode).dataFormat = none := if_neg newest
    rw [if_neg newest, if_neg newest, List.nil_append, RequestHeader.said, format]
    rfl

theorem readRequest_written (sendable : o.Sendable) (body : List UInt8) :
    readRequest (o.headerBytes opCode ++ body) =
      some ⟨o.codec.protocolVersion, (o.header opCode).said, body⟩ := by
  let fields : CommonFields := (requestMagic, o.messageId, o.codec.protocolVersion, opCode.request,
    ⟨o.cacheName, (sendable opCode).cacheName⟩, o.flags, clientIntelligenceHashDistributionAware,
    o.topologyId)
  have written : o.commonBytes opCode = commonFields.encode fields := by
    rw [commonBytes]
    simp only [List.append_assoc]
    rfl
  rw [readRequest, headerBytes, written, List.append_assoc, WireFormat.decode_encode_append]
  simp only [Option.bind_eq_bind, Option.bind_some, fields, if_true,
    o.readMediaTypes_written opCode (sendable opCode) body]
  rfl

end HotRodOperation

/-! ### Servers -/

abbrev Server (S : Type) := S → List UInt8 → List UInt8 × S

-- The bytes that the program gives to the socket: what is in its buffer when the socket does not
-- take them.
def requestOf (m : ConnectionM A) (s : Connection) : List UInt8 :=
  (final (m { s with coming := some { bytes := [], arrivals := none } })).output

def beside (server : S) : EStateM.Result Exn Connection A → EStateM.Result Exn (S × Connection) A
  | .ok a s => .ok a (server, s)
  | .error e s => .error e (server, s)

def talk (serve : Server S) (m : ConnectionM A) : EStateM Exn (S × Connection) A := fun both =>
  let (bytes, server) := serve both.1 (requestOf m both.2)
  beside server
    (m { both.2 with coming := some { bytes, arrivals := some (bytes.length, []) } })

/-- What the caller gets, and the state that is left. -/
def answerOf {s : Type} : EStateM.Result Exn s A → Except Exn A × s
  | .ok a s => (.ok a, s)
  | .error e s => (.error e, s)

def returning {s : Type} (result : Except Exn A) (state : s) : EStateM.Result Exn s A :=
  match result with
  | .ok a => .ok a state
  | .error e => .error e state

theorem answerOf_returning (result : Except Exn A) (server : S) (s : Connection) :
    answerOf (beside server (returning result s)) = (result, server, s) := by
  cases result <;> rfl

theorem answerOf_talk_map (serve : Server S) (m : ConnectionM A) (f : A → R)
    (both : S × Connection) :
    answerOf (talk serve (m >>= fun a => pure (f a)) both) =
      ((answerOf (talk serve m both)).1.map f, (answerOf (talk serve m both)).2) := by
  have mapped : ∀ s : Connection, (m >>= fun a => pure (f a)) s = match m s with
      | .ok a t => .ok (f a) t
      | .error e t => .error e t := by
    intro s
    rw [bind_apply]
    cases m s <;> rfl
  have same : requestOf (m >>= fun a => pure (f a)) both.2 = requestOf m both.2 := by
    rw [requestOf, requestOf, mapped]
    cases m { both.2 with coming := some { bytes := [], arrivals := none } } <;> rfl
  simp only [talk, same, mapped]
  generalize serve both.1 (requestOf m both.2) = served
  obtain ⟨bytes, server⟩ := served
  cases m { both.2 with coming := some { bytes, arrivals := some (bytes.length, []) } } <;> rfl

structure Response where
  status : UInt8
  body : List UInt8

def opCodeOf (code : UInt8) : Option OpCode :=
  [.put, .get, .putIfAbsent, .replace, .replaceIfUnmodified, .remove, .removeIfUnmodified,
    .containsKey, .getWithVersion, .clear, .stats, .ping, .bulkGet, .getWithMetadata, .bulkGetKeys,
    .query, .addClientListener, .removeClientListener, .size, .exec, .getAll, .prepare, .commit,
    .rollback, .counterCreate, .counterGetConfiguration, .counterAddAndGet, .counterReset,
    .counterGet, .counterCas, .counterAddListener, .counterRemoveListener, .counterRemove,
    OpCode.counterGetNames].find? fun opCode => opCode.request = code

theorem opCodeOf_request (opCode : OpCode) : opCodeOf opCode.request = some opCode := by
  cases opCode <;> rfl

/-- A server around what it makes of a request. Every response has the opcode after the one
of its request, and none of these has a topology; what it cannot read it does not answer. -/
def framed (perform : S → Request → Option (Response × S)) : Server S := fun server bytes =>
  match (readRequest bytes).bind fun request => (perform server request).map fun answer =>
      (request.header, answer) with
  | none => ([], server)
  | some (header, response, server) =>
    (Protocol.header header.messageId (header.opCode + 1) response.status none ++ response.body,
      server)

/-- An error, with a status that has a message. -/
structure Failure where
  status : UInt8
  told : hasMessage status = true
  message : Bytes

-- The same around requests that may fail.
def framedOrFailed (perform : S → Request → Option (Except Failure Response × S)) : Server S :=
  fun server bytes =>
    match (readRequest bytes).bind fun request => (perform server request).map fun answer =>
        (request.header, answer) with
    | none => ([], server)
    | some (header, .ok response, server) =>
      (Protocol.header header.messageId (header.opCode + 1) response.status none
        ++ response.body, server)
    | some (header, .error failure, server) =>
      (Protocol.header header.messageId errorResponse failure.status none
        ++ WireFormat.array.encode failure.message, server)

/-! ### One operation -/

/-- Nothing is left of an earlier exchange. -/
structure Idle (s : Connection) : Prop where
  unread : s.unread = []
  inTime : s.inTime = 0
  output : s.output = []

/-- The body of an answer is all that is left to read. -/
def holding (s : Connection) (body : List UInt8) : Connection := answered s body body.length []

theorem idle_holding (s : Connection) : Idle (holding s []) := ⟨rfl, rfl, rfl⟩

theorem finish_holding {m : ConnectionM A} {body : List UInt8} {a : A} (reads : Consumes m body a)
    (s : Connection) : m (holding s body) = .ok a (holding s []) := by
  have whole : (holding s body).unread = body ++ [] := (List.append_nil body).symm
  rw [reads.of_came whole (Nat.le_refl _)]
  simp only [pure_apply, Connection.past, holding, answered, Nat.sub_self, List.length_nil]

theorem toOpRespCode_eq (opCode : OpCode) : opCode.toOpRespCode = opCode.request + 1 := by
  cases opCode <;> rfl

section Exchange

variable {o : HotRodOperation} {s : Connection} (opCode : OpCode) (body : List UInt8)
  (finish : UInt8 → ConnectionM R)

theorem requestOf_exchange (idle : Idle s) :
    requestOf (o.exchange opCode body finish) s = o.headerBytes opCode ++ body := by
  have awaiting : Awaiting { s with coming := some { bytes := [], arrivals := none } } [] none :=
    ⟨idle.unread, idle.inTime, idle.output, rfl⟩
  rw [requestOf, HotRodOperation.exchange, bind_of_ok (o.writeHeader_apply opCode _),
    bind_of_ok (write_apply _ _), filled_filled, bind_of_error (flush_refused awaiting _)]
  simp [Connection.filled, idle.output]

theorem receive_holding (response : Response) :
    o.receive opCode finish (answered s
        (Protocol.header o.messageId opCode.toOpRespCode response.status none ++ response.body)
        (Protocol.header o.messageId opCode.toOpRespCode response.status none
          ++ response.body).length []) =
      finish response.status (holding s response.body) := by
  have came : (Protocol.header o.messageId opCode.toOpRespCode response.status none).length ≤
      (Protocol.header o.messageId opCode.toOpRespCode response.status none
        ++ response.body).length := by
    rw [List.length_append]
    exact Nat.le_add_right _ _
  rw [(reaches_receive o (.inl rfl) opCode.toOpRespCode).of_came rfl came, actOnHeader_own]
  have left : ((answered s
        (Protocol.header o.messageId opCode.toOpRespCode response.status none ++ response.body)
        (Protocol.header o.messageId opCode.toOpRespCode response.status none
          ++ response.body).length []).past
        (Protocol.header o.messageId opCode.toOpRespCode response.status none) response.body) =
      holding s response.body := by
    simp only [Connection.past, answered, holding, List.length_append, Nat.add_sub_cancel_left]
  rw [left]
  rfl

theorem receive_failure (failure : Failure) :
    o.receive opCode finish (answered s
        (Protocol.header o.messageId errorResponse failure.status none
          ++ WireFormat.array.encode failure.message)
        (Protocol.header o.messageId errorResponse failure.status none
          ++ WireFormat.array.encode failure.message).length []) =
      .error (errorOf failure.message.1) (afterError failure.status (holding s [])) := by
  have came : (Protocol.header o.messageId errorResponse failure.status none).length ≤
      (Protocol.header o.messageId errorResponse failure.status none
        ++ WireFormat.array.encode failure.message).length := by
    rw [List.length_append]
    exact Nat.le_add_right _ _
  have left : ((answered s
        (Protocol.header o.messageId errorResponse failure.status none
          ++ WireFormat.array.encode failure.message)
        (Protocol.header o.messageId errorResponse failure.status none
          ++ WireFormat.array.encode failure.message).length []).past
        (Protocol.header o.messageId errorResponse failure.status none)
        (WireFormat.array.encode failure.message)) =
      holding s (WireFormat.array.encode failure.message) := by
    simp only [Connection.past, answered, holding, List.length_append, Nat.add_sub_cancel_left]
  have whole : (WireFormat.array.encode failure.message).length ≤
      (holding s (WireFormat.array.encode failure.message)).inTime := Nat.le_refl _
  rw [(reaches_receive o (.inl rfl) errorResponse).of_came rfl came, left,
    actOnHeader_error_told o rfl rfl failure.told, if_pos whole]
  simp only [Connection.past, holding, answered, Nat.sub_self, List.length_nil]

theorem talk_served {serve : Server S} (idle : Idle s) {server next : S} {bytes : List UInt8}
    (served : serve server (o.headerBytes opCode ++ body) = (bytes, next)) :
    talk serve (o.exchange opCode body finish) (server, s) =
      beside next (o.receive opCode finish (answered s bytes bytes.length [])) := by
  have awaiting : Awaiting { s with coming := some { bytes, arrivals := some (bytes.length, []) } }
      bytes (some (bytes.length, [])) :=
    ⟨idle.unread, idle.inTime, idle.output, rfl⟩
  rw [talk, requestOf_exchange opCode body finish idle, served]
  dsimp only
  rw [exchange_sent o opCode finish awaiting]
  rfl

-- The server gets the request as it was meant, and the operation finishes on its answer.
theorem talk_exchange {perform : S → Request → Option (Response × S)} (sendable : o.Sendable)
    (idle : Idle s) {server next : S} {response : Response}
    (performed : perform server ⟨o.codec.protocolVersion, (o.header opCode).said, body⟩ =
      some (response, next)) :
    talk (framed perform) (o.exchange opCode body finish) (server, s) =
      beside next (finish response.status (holding s response.body)) := by
  have served : framed perform server (o.headerBytes opCode ++ body) =
      (Protocol.header o.messageId opCode.toOpRespCode response.status none ++ response.body,
        next) := by
    rw [framed, o.readRequest_written opCode sendable body, Option.bind_some, performed,
      toOpRespCode_eq]
    rfl
  rw [talk_served opCode body finish idle served, receive_holding]

theorem talk_exchange_ok {perform : S → Request → Option (Except Failure Response × S)}
    (sendable : o.Sendable) (idle : Idle s) {server next : S} {response : Response}
    (performed : perform server ⟨o.codec.protocolVersion, (o.header opCode).said, body⟩ =
      some (.ok response, next)) :
    talk (framedOrFailed perform) (o.exchange opCode body finish) (server, s) =
      beside next (finish response.status (holding s response.body)) := by
  have served : framedOrFailed perform server (o.headerBytes opCode ++ body) =
      (Protocol.header o.messageId opCode.toOpRespCode response.status none ++ response.body,
        next) := by
    rw [framedOrFailed, o.readRequest_written opCode sendable body, Option.bind_some, performed,
      toOpRespCode_eq]
    rfl
  rw [talk_served opCode body finish idle served, receive_holding]

theorem talk_exchange_error {perform : S → Request → Option (Except Failure Response × S)}
    (sendable : o.Sendable) (idle : Idle s) {server next : S} {failure : Failure}
    (performed : perform server ⟨o.codec.protocolVersion, (o.header opCode).said, body⟩ =
      some (.error failure, next)) :
    talk (framedOrFailed perform) (o.exchange opCode body finish) (server, s) =
      beside next (.error (errorOf failure.message.1)
        (afterError failure.status (holding s []))) := by
  have served : framedOrFailed perform server (o.headerBytes opCode ++ body) =
      (Protocol.header o.messageId errorResponse failure.status none
        ++ WireFormat.array.encode failure.message, next) := by
    rw [framedOrFailed, o.readRequest_written opCode sendable body, Option.bind_some, performed]
    rfl
  rw [talk_served opCode body finish idle served, receive_failure]

end Exchange

end HotRod.Operations
