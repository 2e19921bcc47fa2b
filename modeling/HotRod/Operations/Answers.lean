import HotRod.Operations.Commands
import HotRod.Protocol.Response

/-! What an operation leaves on its connection after a response or an error.

`exchange_sent` and `reaches_receive` reduce every operation to what it does with
its status, and the results about `receive` say when that drains the connection,
for any way to finish. -/

set_option autoImplicit false

namespace HotRod.Operations

open Semantics.Execution
open Protocol HotRodConstants
open WireFormat (Bytes)

variable {R : Type} {s t : Connection} {bytes body request : List UInt8}
    {arrivals : Option (Nat × List Nat)}
  {n : Nat} {later : List Nat}

/-! ### Requests -/

/-- An idle connection whose next request gets this answer. -/
structure Awaiting (s : Connection) (bytes : List UInt8) (arrivals : Option (Nat × List Nat)) :
    Prop where
  unread : s.unread = []
  inTime : s.inTime = 0
  output : s.output = []
  coming : s.coming = some { bytes, arrivals }

def answered (s : Connection) (bytes : List UInt8) (n : Nat) (later : List Nat) : Connection :=
  { s with output := [], coming := none, unread := bytes, inTime := n, afterTimeout := later }

theorem writeHeader_eq (o : HotRodOperation) (opCode : OpCode) (s : Connection) :
    ∃ bytes, o.writeHeader opCode s = .ok () (s.filled (requestMagic :: bytes)) := by
  rw [HotRodOperation.writeHeader, Codec.writeHeader, bind_of_ok (write_apply _ s)]
  split_ifs with mediaTypes
  · cases (o.params opCode).dataFormat with
    | none => exact ⟨_, congrArg (EStateM.Result.ok ()) (filled_filled s _ _)⟩
    | some format => exact ⟨_, congrArg (EStateM.Result.ok ()) (filled_filled s _ _)⟩
  · exact ⟨_, rfl⟩

theorem flush_sent (awaiting : Awaiting s bytes (some (n, later))) (written : List UInt8) :
    flush (s.filled written) = .ok () (answered s bytes n later) := by
  simp only [flush, bind_apply, get_apply, Connection.filled, awaiting.coming, awaiting.unread,
    awaiting.inTime, List.nil_append, Nat.zero_add]
  rfl

theorem flush_refused (awaiting : Awaiting s bytes none) (written : List UInt8) :
    flush (s.filled written) = .error (s.ioError "write") (s.filled written) := by
  simp only [flush, bind_apply, get_apply, Connection.filled, awaiting.coming, throw_apply]
  rfl

theorem exchange_sent (o : HotRodOperation) (opCode : OpCode) (finish : UInt8 → ConnectionM R)
    (awaiting : Awaiting s bytes (some (n, later))) :
    o.exchange opCode request finish s = o.receive opCode finish (answered s bytes n later) := by
  obtain ⟨headerBytes, header⟩ := writeHeader_eq o opCode s
  rw [HotRodOperation.exchange, bind_of_ok header, bind_of_ok (write_apply _ _), filled_filled,
    bind_of_ok (flush_sent awaiting _)]

theorem exchange_refused (o : HotRodOperation) (opCode : OpCode) (finish : UInt8 → ConnectionM R)
    (awaiting : Awaiting s bytes none) :
    ∃ t, o.exchange opCode request finish s = .error (s.ioError "write") t ∧ t.output ≠ [] := by
  obtain ⟨headerBytes, header⟩ := writeHeader_eq o opCode s
  rw [HotRodOperation.exchange, bind_of_ok header, bind_of_ok (write_apply _ _), filled_filled,
    bind_of_error (flush_refused awaiting _)]
  exact ⟨_, rfl, by simp [Connection.filled]⟩

/-! ### Responses -/

section Receive

variable (o : HotRodOperation) {opCode : OpCode} {finish : UInt8 → ConnectionM R} {status : UInt8}
  {topology : Option TopologyUpdate} {messageId : UInt64} {message : Bytes}

theorem reaches_receive (own : messageId = o.messageId ∨ messageId = 0) (received : UInt8) :
    Reaches (o.receive opCode finish) (header messageId received status topology)
      (actOnHeader o.factory (o.params opCode) received status topology >>= finish) :=
  (reaches_readHeader o.factory (o.params opCode) own received status topology).bind finish

theorem actOnHeader_own (finish : UInt8 → ConnectionM R) :
    (actOnHeader o.factory (o.params opCode) opCode.toOpRespCode status topology >>= finish) =
      unlessRaised (topologyRaises o.factory 0 topology) (finish status) := by
  have own : checkOpCode (o.params opCode) opCode.toOpRespCode status = pure status :=
    checkOpCode_own _ status
  rw [actOnHeader, own]
  change (unlessRaised (topologyRaises o.factory 0 topology) (pure status) >>= finish) = _
  cases topologyRaises o.factory 0 topology with
  | some e => rfl
  | none => exact pure_bind status finish

theorem array_encode_ne_nil (message : Bytes) : WireFormat.array.encode message ≠ [] :=
  WireFormat.array.encode_ne_nil rfl message

theorem actOnHeader_error_told (unread : t.unread = WireFormat.array.encode message)
    (quiet : topologyRaises o.factory 0 topology = none) (told : hasMessage status = true) :
    (actOnHeader o.factory (o.params opCode) errorResponse status topology >>= finish) t =
      if (WireFormat.array.encode message).length ≤ t.inTime then
        .error (errorOf message.1) (afterError status (t.past (WireFormat.array.encode message) []))
      else .error (t.ioError "timeout") (afterError status t.cut) := by
  have whole : t.unread = WireFormat.array.encode message ++ [] :=
    unread.trans (List.append_nil _).symm
  have acts : actOnHeader o.factory (o.params opCode) errorResponse status topology =
      checkOpCode (o.params opCode) errorResponse status := by
    change unlessRaised (topologyRaises o.factory 0 topology) _ = _
    rw [quiet, unlessRaised]
  have check := checkForErrors_message told whole
  rw [acts]
  split_ifs at check ⊢ with came
  · exact bind_of_error (checkOpCode_error (o.params opCode) status _ check)
  · exact bind_of_error (checkOpCode_error (o.params opCode) status _ check)

theorem actOnHeader_error_untold (untold : topologyRaises o.factory 0 topology ≠ none ∨
    hasMessage status = false) :
    final ((actOnHeader o.factory (o.params opCode) errorResponse status topology >>= finish) t) =
      t := by
  change final ((unlessRaised (topologyRaises o.factory 0 topology) _ >>= finish) t) = t
  cases raises : topologyRaises o.factory 0 topology with
  | some e => rfl
  | none =>
    have unknown : hasMessage status = false := untold.resolve_left (not_not.mpr raises)
    change final ((checkOpCode (o.params opCode) errorResponse status >>= finish) t) = t
    rw [bind_of_error (checkOpCode_error (o.params opCode)
      status _ (checkForErrors_unknown unknown _)), final_error]

theorem not_synchronised_of_message (unread : t.unread = WireFormat.array.encode message) :
    ¬ t.Synchronised :=
  fun synchronised => array_encode_ne_nil message (unread.symm.trans synchronised.1)

theorem actOnHeader_error_drains (unread : t.unread = WireFormat.array.encode message)
    (sent : t.output = []) (quiet : topologyRaises o.factory 0 topology = none)
    (told : hasMessage status = true) :
    Drains ((actOnHeader o.factory (o.params opCode) errorResponse status topology >>= finish)
      t) := by
  rw [actOnHeader_error_told o unread quiet told]
  split_ifs
  · exact .inr (afterError_synchronised.mpr ⟨rfl, sent⟩)
  · exact .inl rfl

theorem actOnHeader_error_strands (unread : t.unread = WireFormat.array.encode message)
    (untold : topologyRaises o.factory 0 topology ≠ none ∨ hasMessage status = false) :
    Strands ((actOnHeader o.factory (o.params opCode) errorResponse status topology >>= finish)
      t) := by
  apply strands_of_final
  rw [actOnHeader_error_untold o untold]
  exact not_synchronised_of_message unread

theorem receive_response_drains
    (unread : t.unread = header o.messageId opCode.toOpRespCode status topology ++ body)
    (sent : t.output = []) (quiet : topologyRaises o.factory 0 topology ≠ none → body = [])
    (finishes : topologyRaises o.factory 0 topology = none → ∀ u : Connection, u.unread = body →
      u.output = [] →
      Drains (finish status u)) : Drains (o.receive opCode finish t) := by
  by_cases came : (header o.messageId opCode.toOpRespCode status topology).length ≤ t.inTime
  · rw [(reaches_receive o (.inl rfl) _).of_came unread came, actOnHeader_own]
    cases raises : topologyRaises o.factory 0 topology with
    | some e =>
      have empty : body = [] := quiet (by rw [raises]; nofun)
      exact .inr ⟨empty, sent⟩
    | none => exact finishes raises _ rfl sent
  · rw [(reaches_receive o (.inl rfl) _).of_late unread came]
    exact .inl rfl

theorem receive_returns {r : R} {rest : List UInt8} (reads : Consumes (finish status) body r)
    (unread : t.unread = header o.messageId opCode.toOpRespCode status topology ++ (body ++ rest))
    (came : t.unread.length ≤ t.inTime) (quiet : topologyRaises o.factory 0 topology = none) :
    ∃ u, o.receive opCode finish t = .ok r u := by
  rw [unread, List.length_append, List.length_append] at came
  rw [(reaches_receive o (.inl rfl) _).of_came unread (by omega), actOnHeader_own, quiet,
    unlessRaised, reads.of_came rfl (by simp only [Connection.past]; omega)]
  exact ⟨_, rfl⟩

theorem receive_response_strands
    (unread : t.unread = header o.messageId opCode.toOpRespCode status topology ++ body)
    (left : topologyRaises o.factory 0 topology ≠ none → body ≠ [])
    (finishes : topologyRaises o.factory 0 topology = none → ∀ u : Connection, u.unread = body →
      Strands (finish status u)) : Strands (o.receive opCode finish t) := by
  by_cases came : (header o.messageId opCode.toOpRespCode status topology).length ≤ t.inTime
  · rw [(reaches_receive o (.inl rfl) _).of_came unread came, actOnHeader_own]
    cases raises : topologyRaises o.factory 0 topology with
    | some e => exact .inr fun synchronised => left (by rw [raises]; nofun) synchronised.1
    | none => exact finishes raises _ rfl
  · rw [(reaches_receive o (.inl rfl) _).of_late unread came]
    exact .inl rfl

theorem receive_error_drains (own : messageId = o.messageId ∨ messageId = 0)
    (unread : t.unread = header messageId errorResponse status topology ++
      WireFormat.array.encode message)
    (sent : t.output = []) (quiet : topologyRaises o.factory 0 topology = none)
    (told : hasMessage status = true) :
    Drains (o.receive opCode finish t) := by
  by_cases came : (header messageId errorResponse status topology).length ≤ t.inTime
  · rw [(reaches_receive o own _).of_came unread came]
    exact actOnHeader_error_drains o rfl sent quiet told
  · rw [(reaches_receive o own _).of_late unread came]
    exact .inl rfl

theorem receive_error_strands (own : messageId = o.messageId ∨ messageId = 0)
    (unread : t.unread = header messageId errorResponse status topology ++
      WireFormat.array.encode message)
    (untold : topologyRaises o.factory 0 topology ≠ none ∨ hasMessage status = false) :
    Strands (o.receive opCode finish t) := by
  by_cases came : (header messageId errorResponse status topology).length ≤ t.inTime
  · rw [(reaches_receive o own _).of_came unread came]
    exact actOnHeader_error_strands o rfl untold
  · rw [(reaches_receive o own _).of_late unread came]
    exact .inl rfl

-- A header that is late stays, in part.
theorem receive_late (own : messageId = o.messageId ∨ messageId = 0) {received : UInt8}
    (unread : t.unread = header messageId received status topology ++ body)
    (late : ¬ (header messageId received status topology).length ≤ t.inTime) :
    ¬ (final (o.receive opCode finish t)).Synchronised := by
  rw [(reaches_receive o own _).of_late unread late]
  apply Connection.not_synchronised_cut
  rw [unread, List.length_append]
  omega

theorem receive_starved (unread : t.unread = []) :
    o.receive opCode finish t = .error (t.ioError "timeout") t.cut := by
  have starved : readByte t = .error (t.ioError "timeout") t.cut := read_starved rfl unread
  rw [HotRodOperation.receive, HotRodOperation.readHeaderAndValidate, readHeader]
  exact bind_of_error (bind_of_error starved)

end Receive

end HotRod.Operations
