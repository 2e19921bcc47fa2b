import HotRod.Events.Dispatchers
import HotRod.Protocol.Response

/-! How the dispatcher threads end.

A stream is read as whole messages, as long as it holds them. The loop ends cleanly
when nothing on the way makes it stop in silence or lets an exception through: every
message starts with the magic byte, has an operation code of the dispatcher, and the
user's code raises nothing but transport exceptions. -/

set_option autoImplicit false

namespace HotRod.Events

open Semantics.Execution
open Protocol HotRodConstants
open Operations (ClientEvent readValue)
open WireFormat (Bytes Parser Shrinks)

variable {A M X L : Type} {s t : Dispatching X} {rest tail : List UInt8}

/-! ### Headers -/

def eventParams : Parser EventHeaderParams := do
  let messageId ← WireFormat.vLong.parse
  let opCode ← WireFormat.byte.parse
  let status ← WireFormat.byte.parse
  let _ ← WireFormat.byte.parse
  pure { messageId, opCode, status }

theorem parses_readByte : Parses readByte WireFormat.byte.parse :=
  parses_read WireFormat.shrinks_byte

theorem parses_readEventParams : Parses readEventParams eventParams :=
  (parses_read WireFormat.shrinks_vLong).bind fun _ => parses_readByte.bind fun _ =>
    parses_readByte.bind fun _ => parses_readByte.bind fun _ => parses_pure _

theorem shrinks_eventParams : Shrinks eventParams :=
  WireFormat.shrinks_vLong.bind fun _ => WireFormat.shrinks_byte.bind fun _ =>
    WireFormat.shrinks_byte.bind fun _ => WireFormat.shrinks_byte.bind fun _ =>
      WireFormat.shrinks_pure _

def Headed (bytes : List UInt8) (params : EventHeaderParams) (rest : List UInt8) : Prop :=
  ∃ tail, bytes = responseMagic :: tail ∧ eventParams tail = some (params, rest)

theorem Headed.unique {bytes rest rest' : List UInt8} {params params' : EventHeaderParams}
    (first : Headed bytes params rest) (second : Headed bytes params' rest') :
    params = params' ∧ rest = rest' := by
  obtain ⟨tail, rfl, parsed⟩ := first
  obtain ⟨tail', same, parsed'⟩ := second
  cases same
  rw [parsed] at parsed'
  cases parsed'
  exact ⟨rfl, rfl⟩

def MessageCut (status : UInt8) (rest : List UInt8) : Prop :=
  hasMessage status = true ∧ WireFormat.array.parse rest = none

section Header

variable {c : Connection} {params : EventHeaderParams}

theorem readEventHeader_magic (arrived : c.Arrived) (unread : c.unread = responseMagic :: tail) :
    readEventHeader c = (do
      let params ← readEventParams
      if params.opCode = errorResponse then do
        checkForErrorsInResponseStatus params.status
        throw (invalidOperation params.opCode params.opCode)
      else pure params) (c.upTo tail) := by
  have first : WireFormat.byte.parse c.unread = some (responseMagic, tail) := by
    rw [unread, WireFormat.parse_byte_cons]
  have read : readByte c = .ok responseMagic (c.upTo tail) :=
    (parses_readByte c arrived).1 responseMagic tail first
  rw [readEventHeader, bind_of_ok read, if_neg (not_not.mpr rfl)]

theorem readEventHeader_nil (arrived : c.Arrived) (unread : c.unread = []) :
    ∃ t, readEventHeader c = .error (c.ioError "timeout") t := by
  obtain ⟨t, starved⟩ := (parses_readByte c arrived).2 (by rw [unread]; rfl)
  exact ⟨t, bind_of_error starved⟩

theorem readEventHeader_foreign (arrived : c.Arrived) {b : UInt8} (unread : c.unread = b :: tail)
    (foreign : b ≠ responseMagic) :
    readEventHeader c = .error (invalidMagic b) (c.upTo tail) := by
  have first : WireFormat.byte.parse c.unread = some (b, tail) := by
    rw [unread, WireFormat.parse_byte_cons]
  have read : readByte c = .ok b (c.upTo tail) := (parses_readByte c arrived).1 b tail first
  rw [readEventHeader, bind_of_ok read, if_pos foreign, throw_apply]

theorem readEventHeader_cut (arrived : c.Arrived) (unread : c.unread = responseMagic :: tail)
    (short : eventParams tail = none) :
    ∃ t, readEventHeader c = .error (c.ioError "timeout") t := by
  obtain ⟨t, starved⟩ := (parses_readEventParams (c.upTo tail) rfl).2 short
  refine ⟨t, ?_⟩
  rw [readEventHeader_magic arrived unread, bind_of_error starved]
  rfl

theorem readEventHeader_headed (arrived : c.Arrived) (headed : Headed c.unread params rest) :
    readEventHeader c = (if params.opCode = errorResponse then do
        checkForErrorsInResponseStatus params.status
        throw (invalidOperation params.opCode params.opCode)
      else pure params) (c.upTo rest) := by
  obtain ⟨tail, unread, parsed⟩ := headed
  have read := (parses_readEventParams (c.upTo tail) rfl).1 params rest parsed
  rw [readEventHeader_magic arrived unread, bind_of_ok read]
  rfl

theorem errorOf_isTransport (message : List UInt8) : (errorOf message).isTransport = false := by
  unfold errorOf
  split <;> rfl

theorem checkForErrors_raises (arrived : c.Arrived) (status : UInt8) :
    ∃ e t, checkForErrorsInResponseStatus status c = .error e t ∧
      (e.isTransport = true ↔ MessageCut status c.unread) := by
  cases told : hasMessage status with
  | false =>
    refine ⟨_, _, checkForErrors_unknown told c, ?_⟩
    simp [MessageCut, told, unknownStatus, Exn.isTransport]
  | true =>
    obtain ⟨reads, starves⟩ := parses_read WireFormat.shrinks_array c arrived
    cases parsed : WireFormat.array.parse c.unread with
    | none =>
      obtain ⟨t, starved⟩ := starves parsed
      have own : (c.ioError "timeout").isException = true := rfl
      refine ⟨_, afterError status t, checkForErrors_of_error own ?_, ?_⟩
      · rw [if_pos told]
        exact bind_of_error starved
      · simp [MessageCut, told, parsed, Connection.ioError, Exn.throwIOErr, Exn.isTransport]
    | some result =>
      obtain ⟨message, left⟩ := result
      refine ⟨errorOf message.1, afterError status (c.upTo left),
        checkForErrors_of_error (errorOf_isException message.1) ?_, ?_⟩
      · rw [if_pos told]
        exact bind_of_ok (reads message left parsed)
      · simp [MessageCut, parsed, errorOf_isTransport]

theorem readEventHeader_error (arrived : c.Arrived) (headed : Headed c.unread params rest)
    (error : params.opCode = errorResponse) :
    ∃ e t, readEventHeader c = .error e t ∧
      (e.isTransport = true ↔ MessageCut params.status rest) := by
  obtain ⟨e, t, raised, transport⟩ := checkForErrors_raises (c := c.upTo rest) rfl params.status
  refine ⟨e, t, ?_, transport⟩
  rw [readEventHeader_headed arrived headed, if_pos error]
  exact bind_of_error raised

theorem readEventHeader_event (arrived : c.Arrived) (headed : Headed c.unread params rest)
    (other : params.opCode ≠ errorResponse) :
    readEventHeader c = .ok params (c.upTo rest) := by
  rw [readEventHeader_headed arrived headed, if_neg other, pure_apply]

end Header

/-! ### One turn -/

namespace Dispatcher

variable (d : Dispatcher M X)

/-- The last of the calls raises nothing the dispatcher minds. -/
def Passes (log : List X) : Prop := ∀ thrown, d.callback log = some thrown → d.ignores thrown = true

-- None of the calls raises anything the dispatcher minds.
def Quiet : List X → List X → Prop
  | _, [] => True
  | log, x :: xs => d.Passes (log ++ [x]) ∧ Quiet (log ++ [x]) xs

/-- The first thing that is raised and not ignored, if any, is a transport exception. -/
def Harmless : List X → List X → Prop
  | _, [] => True
  | log, x :: xs =>
    (∀ thrown, d.callback (log ++ [x]) = some thrown →
      d.ignores thrown = true ∨ thrown.isTransport = true) ∧
      (d.Passes (log ++ [x]) → Harmless (log ++ [x]) xs)

-- The recovery callback does not let an exception out of the thread.
def RecoveryReturns : Prop :=
  d.guarded = true ∨ ∀ thrown, d.recoveryCallback ≠ some (some thrown)

def recoveries : Nat := if d.recoveryCallback.isSome then 1 else 0

variable {d}

theorem Quiet.harmless {log xs : List X} (quiet : d.Quiet log xs) : d.Harmless log xs := by
  induction xs generalizing log with
  | nil => exact trivial
  | cons x xs ih => exact ⟨fun thrown raises => .inl (quiet.1 thrown raises), fun _ => ih quiet.2⟩

theorem invoke_passes {x : X} (passes : d.Passes (s.invoked ++ [x])) :
    d.invoke x s = .ok () { s with invoked := s.invoked ++ [x] } := by
  cases raises : d.callback (s.invoked ++ [x]) with
  | none => exact tryCatch_of_ok (call_none raises)
  | some thrown =>
    rw [invoke, tryCatch_of_error (call_some raises), if_pos (passes thrown raises), pure_apply]

theorem invoke_raises {x : X} {thrown : Thrown} (raises : d.callback (s.invoked ++ [x]) = some thrown)
    (minded : ¬ d.ignores thrown = true) :
    d.invoke x s = .error thrown { s with invoked := s.invoked ++ [x] } := by
  rw [invoke, tryCatch_of_error (call_some raises), if_neg minded, throw_apply]

theorem deliver_quiet {xs : List X} (quiet : d.Quiet s.invoked xs) :
    d.deliver xs s = .ok () { s with invoked := s.invoked ++ xs } := by
  induction xs generalizing s with
  | nil =>
    rw [List.append_nil]
    rfl
  | cons x xs ih =>
    rw [deliver, bind_of_ok (invoke_passes quiet.1), ih quiet.2]
    simp only [List.append_assoc, List.singleton_append]

theorem deliver_loud {xs : List X} (loud : ¬ d.Quiet s.invoked xs) :
    ∃ thrown t, d.deliver xs s = .error thrown t ∧ t.recovered = s.recovered ∧
      (thrown.isTransport = true ↔ d.Harmless s.invoked xs) := by
  induction xs generalizing s with
  | nil => exact absurd trivial loud
  | cons x xs ih =>
    -- either a later call raises, or this one does
    by_cases passes : d.Passes (s.invoked ++ [x])
    · have later : ¬ d.Quiet (s.invoked ++ [x]) xs := fun quiet => loud ⟨passes, quiet⟩
      obtain ⟨thrown, t, raised, kept, transport⟩ := ih (s := { s with invoked := s.invoked ++ [x] })
        later
      refine ⟨thrown, t, ?_, kept, transport.trans ?_⟩
      · rw [deliver, bind_of_ok (invoke_passes passes), raised]
      · exact ⟨fun harmless => ⟨fun thrown raises => .inl (passes thrown raises), fun _ => harmless⟩,
          fun harmless => harmless.2 passes⟩
    · obtain ⟨thrown, raises, minded⟩ : ∃ thrown, d.callback (s.invoked ++ [x]) = some thrown ∧
          ¬ d.ignores thrown = true := by simpa [Passes] using passes
      refine ⟨thrown, _, bind_of_error (invoke_raises raises minded), rfl, ?_⟩
      constructor
      · intro transport
        refine ⟨fun other same => .inr ?_, fun holds => absurd holds passes⟩
        rwa [← Option.some.inj (raises.symm.trans same)]
      · intro harmless
        exact (harmless.1 thrown raises).resolve_left minded

theorem recover_returns (returns : d.RecoveryReturns) :
    d.recover s = .ok () { s with recovered := s.recovered + d.recoveries } := by
  cases callback : d.recoveryCallback with
  | none => simp [recover, recoveries, callback]
  | some raises =>
    cases raises with
    | none =>
      simp only [recover, recoveries, callback]
      rfl
    | some thrown =>
      have guarded : d.guarded = true := returns.resolve_right fun never => never thrown callback
      simp only [recover, recoveries, callback, guarded, if_true]
      rfl

theorem recover_raises (raises : ¬ d.RecoveryReturns) :
    ∃ thrown t, d.recover s = .error thrown t := by
  simp only [RecoveryReturns, not_or, not_forall, not_not] at raises
  obtain ⟨unguarded, thrown, callback⟩ := raises
  refine ⟨thrown, { s with recovered := s.recovered + 1 }, ?_⟩
  simp only [recover, callback, if_neg unguarded]
  rfl

theorem turn_of_ok {goesOn : Bool} (returned : d.attempt s = .ok goesOn t) :
    d.turn s = .ok goesOn t := tryCatch_of_ok returned

theorem turn_of_transport {thrown : Thrown} (raised : d.attempt s = .error thrown t)
    (transport : thrown.isTransport = true) :
    d.turn s = (do
      d.recover
      pure false) t := by
  rw [turn, tryCatch_of_error raised, if_pos transport]

theorem turn_of_other {thrown : Thrown} (raised : d.attempt s = .error thrown t)
    (other : ¬ thrown.isTransport = true) : d.turn s = .error thrown t := by
  rw [turn, tryCatch_of_error raised, if_neg other, throw_apply]

end Dispatcher

structure Layout (d : Dispatcher M X) where
  body : UInt8 → Parser M
  reads : ∀ opCode, Parses (d.readMessage opCode) (body opCode)
  shrinks : ∀ opCode, Shrinks (body opCode)

namespace Layout

variable {d : Dispatcher M X} (layout : Layout d)

def Whole (bytes : List UInt8) (message : M) (rest : List UInt8) : Prop :=
  ∃ params middle, Headed bytes params middle ∧ d.isEvent params.opCode = true ∧
    layout.body params.opCode middle = some (message, rest)

def Advances (here next : List UInt8 × List X) : Prop :=
  ∃ message, layout.Whole here.1 message next.1 ∧
    d.Quiet here.2 (d.invocations message here.2) ∧
    next.2 = here.2 ++ d.invocations message here.2

/-- What the bytes at the start of a message, and the user's code, must not do. -/
structure Tolerates (bytes : List UInt8) (log : List X) : Prop where
  magic : ∀ b tail, bytes = b :: tail → b = responseMagic
  opCode : ∀ params rest, Headed bytes params rest → d.isEvent params.opCode = true ∨
    (params.opCode = errorResponse ∧ MessageCut params.status rest) ∨
    (params.opCode ≠ errorResponse ∧ d.recoveryCallback = none)
  callback : ∀ message rest, layout.Whole bytes message rest →
    d.Harmless log (d.invocations message log)

variable {layout} {params : EventHeaderParams} {bytes : List UInt8} {message : M} {log : List X}

theorem whole_iff (headed : Headed bytes params tail) :
    layout.Whole bytes message rest ↔
      d.isEvent params.opCode = true ∧ layout.body params.opCode tail = some (message, rest) := by
  constructor
  · rintro ⟨other, middle, headed', event, parsed⟩
    obtain ⟨rfl, rfl⟩ := headed.unique headed'
    exact ⟨event, parsed⟩
  · rintro ⟨event, parsed⟩
    exact ⟨params, tail, headed, event, parsed⟩

theorem not_whole_of_foreign (headed : Headed bytes params tail)
    (foreign : ¬ d.isEvent params.opCode = true) : ¬ layout.Whole bytes message rest :=
  fun whole => foreign ((whole_iff headed).mp whole).1

theorem tolerates_iff (headed : Headed bytes params tail) :
    layout.Tolerates bytes log ↔
      (d.isEvent params.opCode = true ∨
        (params.opCode = errorResponse ∧ MessageCut params.status tail) ∨
        (params.opCode ≠ errorResponse ∧ d.recoveryCallback = none)) ∧
      ∀ message rest, layout.Whole bytes message rest →
        d.Harmless log (d.invocations message log) := by
  constructor
  · intro tolerates
    exact ⟨tolerates.opCode params tail headed, tolerates.callback⟩
  · rintro ⟨opCode, callback⟩
    refine ⟨?_, ?_, callback⟩
    · intro b rest starts
      obtain ⟨after, starts', -⟩ := headed
      exact (List.cons.inj (starts.symm.trans starts')).1
    · intro other rest headed'
      obtain ⟨rfl, rfl⟩ := headed.unique headed'
      exact opCode

/-- The turn is the last one, and it ends cleanly exactly if all that can go wrong does not. -/
def Ends (layout : Layout d) (s : Dispatching X) : Prop :=
  (∀ next, ¬ layout.Advances (s.transport.unread, s.invoked) next) ∧
    (∀ t, d.turn s ≠ .ok true t) ∧
    ((∃ t, d.turn s = .ok false t ∧ t.recovered = s.recovered + d.recoveries) ↔
      d.RecoveryReturns ∧ layout.Tolerates s.transport.unread s.invoked)

theorem ends_of_raise {thrown : Thrown} (raised : d.attempt s = .error thrown t)
    (kept : t.recovered = s.recovered)
    (last : ∀ next, ¬ layout.Advances (s.transport.unread, s.invoked) next)
    (tolerated : thrown.isTransport = true ↔ layout.Tolerates s.transport.unread s.invoked) :
    layout.Ends s := by
  refine ⟨last, ?_⟩
  by_cases transport : thrown.isTransport = true
  · rw [Dispatcher.turn_of_transport raised transport]
    -- the callback is called inside the handler, where nothing is caught any more
    by_cases returns : d.RecoveryReturns
    · rw [bind_of_ok (Dispatcher.recover_returns returns)]
      refine ⟨nofun, fun _ => ⟨returns, tolerated.mp transport⟩, fun _ => ⟨_, rfl, ?_⟩⟩
      rw [kept]
    · obtain ⟨other, u, raises⟩ := Dispatcher.recover_raises (s := t) returns
      rw [bind_of_error raises]
      exact ⟨nofun, nofun, fun both => absurd both.1 returns⟩
  · rw [Dispatcher.turn_of_other raised transport]
    exact ⟨nofun, nofun, fun both => absurd (tolerated.mpr both.2) transport⟩

-- The silent stop runs no callback, so there must be none.
theorem ends_of_break (stopped : d.attempt s = .ok false t) (kept : t.recovered = s.recovered)
    (last : ∀ next, ¬ layout.Advances (s.transport.unread, s.invoked) next)
    (tolerated : d.recoveryCallback = none ↔ layout.Tolerates s.transport.unread s.invoked) :
    layout.Ends s := by
  refine ⟨last, ?_⟩
  rw [Dispatcher.turn_of_ok stopped]
  refine ⟨nofun, ?_, ?_⟩
  · rintro ⟨u, same, counted⟩
    cases same
    have none : d.recoveryCallback = none := by
      cases callback : d.recoveryCallback with
      | none => rfl
      | some raises =>
        simp only [Dispatcher.recoveries, callback, Option.isSome_some, if_true, kept] at counted
        omega
    exact ⟨.inr (by simp [none]), tolerated.mp none⟩
  · rintro ⟨-, tolerates⟩
    refine ⟨t, rfl, ?_⟩
    simp [Dispatcher.recoveries, tolerated.mpr tolerates, kept]

theorem attempt_of_raise {e : Exn} {c : Connection}
    (raised : readEventHeader s.transport = .error e c) :
    d.attempt s = .error (.exn e) { s with transport := c } :=
  bind_of_error (onTransport_of_error raised)

theorem not_advances_of_not_headed (layout : Layout d)
    (unheaded : ∀ params rest, ¬ Headed s.transport.unread params rest)
    (next : List UInt8 × List X) : ¬ layout.Advances (s.transport.unread, s.invoked) next := by
  rintro ⟨message, ⟨params, middle, headed, -⟩, -⟩
  exact unheaded params middle headed

theorem tolerates_of_not_headed
    (unheaded : ∀ params rest, ¬ Headed s.transport.unread params rest)
    (magic : ∀ b tail, s.transport.unread = b :: tail → b = responseMagic) :
    layout.Tolerates s.transport.unread s.invoked :=
  ⟨magic, fun params rest headed => absurd headed (unheaded params rest),
    fun _ _ ⟨params, middle, headed, _⟩ => absurd headed (unheaded params middle)⟩

theorem ends_of_not_headed (arrived : s.transport.Arrived)
    (unheaded : ∀ params rest, ¬ Headed s.transport.unread params rest) : layout.Ends s := by
  have last := not_advances_of_not_headed layout unheaded
  cases unread : s.transport.unread with
  | nil =>
    -- the time-out is a transport exception
    obtain ⟨c, raised⟩ := readEventHeader_nil arrived unread
    refine ends_of_raise (attempt_of_raise raised) rfl last (iff_of_true rfl ?_)
    exact tolerates_of_not_headed unheaded fun b tail starts => by simp [unread] at starts
  | cons b tail =>
    by_cases magic : b = responseMagic
    · subst magic
      have short : eventParams tail = none := by
        cases parsed : eventParams tail with
        | none => rfl
        | some result => exact absurd ⟨tail, unread, parsed⟩ (unheaded result.1 result.2)
      obtain ⟨c, raised⟩ := readEventHeader_cut arrived unread short
      refine ends_of_raise (attempt_of_raise raised) rfl last (iff_of_true rfl ?_)
      refine tolerates_of_not_headed unheaded fun b tail starts => ?_
      rw [unread] at starts
      exact (List.cons.inj starts).1.symm
    · -- an invalid response is none, and is not caught
      have raised := readEventHeader_foreign arrived unread magic
      refine ends_of_raise (attempt_of_raise raised) rfl last (iff_of_false nofun ?_)
      exact fun tolerates => magic (tolerates.magic b tail unread)

theorem ends_of_error (arrived : s.transport.Arrived)
    (headed : Headed s.transport.unread params tail) (error : params.opCode = errorResponse) :
    layout.Ends s := by
  obtain ⟨e, c, raised, transport⟩ := readEventHeader_error arrived headed error
  have foreign : ¬ d.isEvent params.opCode = true := by
    rw [error, d.isEvent_errorResponse]
    nofun
  have whole (message : M) (rest : List UInt8) : ¬ layout.Whole s.transport.unread message rest :=
    not_whole_of_foreign headed foreign
  refine ends_of_raise (attempt_of_raise raised) rfl ?_ (transport.trans ?_)
  · exact fun next ⟨message, here, _⟩ => whole message next.1 here
  · rw [tolerates_iff headed]
    constructor
    · exact fun cut => ⟨.inr (.inl ⟨error, cut⟩), fun message rest here =>
        absurd here (whole message rest)⟩
    · rintro ⟨event | ⟨-, cut⟩ | ⟨other, -⟩, -⟩
      · exact absurd event foreign
      · exact cut
      · exact absurd error other

theorem ends_of_foreign (arrived : s.transport.Arrived)
    (headed : Headed s.transport.unread params tail) (other : params.opCode ≠ errorResponse)
    (foreign : ¬ d.isEvent params.opCode = true) : layout.Ends s := by
  have read := readEventHeader_event arrived headed other
  have stopped : d.attempt s = .ok false { s with transport := s.transport.upTo tail } := by
    rw [Dispatcher.attempt, bind_of_ok (onTransport_of_ok read), if_neg foreign, pure_apply]
  have whole (message : M) (rest : List UInt8) : ¬ layout.Whole s.transport.unread message rest :=
    not_whole_of_foreign headed foreign
  refine ends_of_break stopped rfl ?_ ?_
  · exact fun next ⟨message, here, _⟩ => whole message next.1 here
  · rw [tolerates_iff headed]
    constructor
    · exact fun none => ⟨.inr (.inr ⟨other, none⟩), fun message rest here =>
        absurd here (whole message rest)⟩
    · rintro ⟨event | ⟨error, -⟩ | ⟨-, none⟩, -⟩
      · exact absurd event foreign
      · exact absurd error other
      · exact none

section Event

variable (arrived : s.transport.Arrived) (headed : Headed s.transport.unread params tail)
  (event : d.isEvent params.opCode = true)

include arrived headed event

theorem attempt_event : d.attempt s = (do
    let message ← onTransport (d.readMessage params.opCode)
    d.deliver (d.invocations message (← get).invoked)
    pure true) { s with transport := s.transport.upTo tail } := by
  have other : params.opCode ≠ errorResponse := by
    intro error
    rw [error, d.isEvent_errorResponse] at event
    cases event
  have read := readEventHeader_event arrived headed other
  rw [Dispatcher.attempt, bind_of_ok (onTransport_of_ok read), if_pos event]

theorem ends_of_cut (cut : layout.body params.opCode tail = none) : layout.Ends s := by
  obtain ⟨c, starved⟩ := (layout.reads params.opCode (s.transport.upTo tail) rfl).2 cut
  have whole : ∀ message rest, ¬ layout.Whole s.transport.unread message rest := by
    intro message rest whole
    have parsed := ((whole_iff headed).mp whole).2
    rw [cut] at parsed
    cases parsed
  have raised := attempt_event arrived headed event
  rw [bind_of_error (onTransport_of_error (s := { s with transport := s.transport.upTo tail })
    starved)] at raised
  refine ends_of_raise raised rfl ?_ (iff_of_true rfl ?_)
  · exact fun next ⟨message, here, _⟩ => whole message next.1 here
  · exact (tolerates_iff headed).mpr ⟨.inl event, fun message rest here =>
      absurd here (whole message rest)⟩

theorem attempt_whole (parsed : layout.body params.opCode tail = some (message, rest)) :
    d.attempt s = (do
      d.deliver (d.invocations message s.invoked)
      pure true) { s with transport := s.transport.upTo rest } := by
  have read := (layout.reads params.opCode (s.transport.upTo tail) rfl).1 message rest parsed
  rw [attempt_event arrived headed event, bind_of_ok (onTransport_of_ok
    (s := { s with transport := s.transport.upTo tail }) read)]
  rfl

theorem ends_of_loud (parsed : layout.body params.opCode tail = some (message, rest))
    (loud : ¬ d.Quiet s.invoked (d.invocations message s.invoked)) : layout.Ends s := by
  obtain ⟨thrown, t, raised, kept, transport⟩ :=
    Dispatcher.deliver_loud (s := { s with transport := s.transport.upTo rest }) loud
  have whole : layout.Whole s.transport.unread message rest :=
    (whole_iff headed).mpr ⟨event, parsed⟩
  have only : ∀ other left, layout.Whole s.transport.unread other left → other = message := by
    intro other left here
    have parsed' := ((whole_iff headed).mp here).2
    rw [parsed] at parsed'
    cases parsed'
    rfl
  have attempted := attempt_whole arrived headed event parsed
  rw [bind_of_error raised] at attempted
  refine ends_of_raise attempted kept ?_ (transport.trans ?_)
  · rintro next ⟨other, here, quiet, -⟩
    cases only other next.1 here
    exact loud quiet
  · rw [tolerates_iff headed]
    constructor
    · intro harmless
      refine ⟨.inl event, ?_⟩
      intro other left here
      cases only other left here
      exact harmless
    · exact fun both => both.2 message rest whole

theorem turn_quiet (parsed : layout.body params.opCode tail = some (message, rest))
    (quiet : d.Quiet s.invoked (d.invocations message s.invoked)) :
    d.turn s = .ok true { s with
      transport := s.transport.upTo rest
      invoked := s.invoked ++ d.invocations message s.invoked } := by
  apply Dispatcher.turn_of_ok
  rw [attempt_whole arrived headed event parsed]
  exact bind_of_ok (Dispatcher.deliver_quiet (s := { s with transport := s.transport.upTo rest })
    quiet)

end Event

-- A turn delivers a whole message without a mishap, or it is the last.
theorem turn_cases (layout : Layout d) (arrived : s.transport.Arrived) :
    layout.Ends s ∨ ∃ rest log, rest.length < s.transport.unread.length ∧
      layout.Advances (s.transport.unread, s.invoked) (rest, log) ∧
      d.turn s = .ok true { s with transport := s.transport.upTo rest, invoked := log } := by
  by_cases headed : ∃ params tail, Headed s.transport.unread params tail
  · obtain ⟨params, tail, headed⟩ := headed
    by_cases event : d.isEvent params.opCode = true
    · cases parsed : layout.body params.opCode tail with
      | none => exact .inl (ends_of_cut arrived headed event parsed)
      | some result =>
        obtain ⟨message, rest⟩ := result
        by_cases quiet : d.Quiet s.invoked (d.invocations message s.invoked)
        · refine .inr ⟨rest, _, ?_, ⟨message, ?_, quiet, rfl⟩,
            turn_quiet arrived headed event parsed quiet⟩
          · obtain ⟨after, starts, read⟩ := headed
            have header := shrinks_eventParams after params tail read
            have body := layout.shrinks params.opCode tail message rest parsed
            rw [starts, List.length_cons]
            omega
          · exact (whole_iff headed).mpr ⟨event, parsed⟩
        · exact .inl (ends_of_loud arrived headed event parsed quiet)
    · by_cases error : params.opCode = errorResponse
      · exact .inl (ends_of_error arrived headed error)
      · exact .inl (ends_of_foreign arrived headed error event)
  · exact .inl (ends_of_not_headed arrived fun params tail here => headed ⟨params, tail, here⟩)

theorem Advances.unique {here next next' : List UInt8 × List X}
    (first : layout.Advances here next) (second : layout.Advances here next') : next = next' := by
  obtain ⟨message, ⟨params, tail, headed, event, parsed⟩, -, log⟩ := first
  obtain ⟨message', whole', -, log'⟩ := second
  have parsed' := ((whole_iff headed).mp whole').2
  rw [parsed] at parsed'
  obtain ⟨rfl, rest⟩ := Prod.mk.inj (Option.some.inj parsed')
  exact Prod.ext rest (log.trans log'.symm)

theorem Advances.tolerates {here next : List UInt8 × List X} (advances : layout.Advances here next) :
    layout.Tolerates here.1 here.2 := by
  obtain ⟨message, whole, quiet, -⟩ := advances
  obtain ⟨params, tail, headed, event, parsed⟩ := whole
  refine (tolerates_iff headed).mpr ⟨.inl event, ?_⟩
  intro other rest here
  have parsed' := ((whole_iff headed).mp here).2
  rw [parsed] at parsed'
  cases parsed'
  exact quiet.harmless

def ToleratesAll (layout : Layout d) (bytes : List UInt8) (log : List X) : Prop :=
  ∀ rest log', Relation.ReflTransGen layout.Advances (bytes, log) (rest, log') →
    layout.Tolerates rest log'

theorem toleratesAll_of_last (last : ∀ next, ¬ layout.Advances (bytes, log) next) :
    layout.ToleratesAll bytes log ↔ layout.Tolerates bytes log := by
  constructor
  · exact fun all => all bytes log .refl
  · intro tolerates rest log' path
    rcases path.cases_head with same | ⟨next, step, -⟩
    · cases same
      exact tolerates
    · exact absurd step (last next)

theorem toleratesAll_of_advances {rest : List UInt8} {log' : List X}
    (advances : layout.Advances (bytes, log) (rest, log')) :
    layout.ToleratesAll bytes log ↔ layout.ToleratesAll rest log' := by
  constructor
  · exact fun all left later path => all left later (path.head advances)
  · intro all left later path
    rcases path.cases_head with same | ⟨next, step, path⟩
    · cases same
      exact advances.tolerates
    · cases advances.unique step
      exact all left later path

end Layout

/-! ### The loop -/

/-- The thread lets no exception out, and has run the recovery callback once if there is one. -/
def EndsCleanly (recoveryCallback : Option (Option Thrown))
    (result : EStateM.Result Thrown (Dispatching X) Bool) : Prop :=
  ∃ t, result = .ok true t ∧ t.recovered = if recoveryCallback.isSome then 1 else 0

-- With more turns than bytes the loop comes to its end.
theorem turns_endsCleanly {d : Dispatcher M X} (layout : Layout d) {n : Nat}
    (arrived : s.transport.Arrived) (enough : s.transport.unread.length < n)
    (fresh : s.recovered = 0) :
    EndsCleanly d.recoveryCallback (turns d.turn n s) ↔
      d.RecoveryReturns ∧ layout.ToleratesAll s.transport.unread s.invoked := by
  induction n generalizing s with
  | zero => exact absurd enough (Nat.not_lt_zero _)
  | succ n ih =>
    rcases layout.turn_cases arrived with ⟨last, stops, settles⟩ | ⟨rest, log, shorter, advances, went⟩
    · rw [layout.toleratesAll_of_last last, ← settles, turns_of_stop stops, fresh, Nat.zero_add]
      cases turned : d.turn s with
      | error thrown t => exact ⟨nofun, nofun⟩
      | ok goesOn t =>
        cases goesOn with
        | true => exact absurd turned (stops t)
        | false =>
          constructor
          · rintro ⟨u, same, counted⟩
            cases same
            exact ⟨t, rfl, counted⟩
          · rintro ⟨u, same, counted⟩
            cases same
            exact ⟨t, rfl, counted⟩
    · rw [layout.toleratesAll_of_advances advances, turns_of_goesOn went]
      exact ih rfl (Nat.lt_of_lt_of_le shorter (Nat.le_of_lt_succ enough)) fresh

theorem run_endsCleanly {d : Dispatcher M X} (layout : Layout d) (arrived : s.transport.Arrived)
    (fresh : s.recovered = 0) :
    EndsCleanly d.recoveryCallback (d.run s) ↔
      d.RecoveryReturns ∧ layout.ToleratesAll s.transport.unread s.invoked :=
  turns_endsCleanly layout arrived (Nat.lt_succ_self _) fresh

/-! ### The messages of the two dispatchers -/

def value : Parser (List UInt8) := do
  let bytes ← WireFormat.array.parse
  pure bytes.1

theorem parses_readArray : Parses readArray WireFormat.array.parse :=
  parses_read WireFormat.shrinks_array

theorem parses_readLong : Parses readLong WireFormat.long.parse :=
  parses_read WireFormat.shrinks_long

theorem parses_readValue : Parses readValue value :=
  parses_readArray.bind fun _ => parses_pure _

theorem shrinks_value : Shrinks value :=
  WireFormat.shrinks_array.bind fun _ => WireFormat.shrinks_pure _

def eventBody (codec : Codec) (opCode : UInt8) : Parser (Option Invocation) := do
  let listId ← value
  let isCustom ← WireFormat.byte.parse
  let isRetried ← WireFormat.byte.parse
  if isCustom ≠ 0 then do
    let data ← value
    pure (some (.event (.custom data isRetried) listId isCustom))
  else if opCode = cacheEntryCreatedEventResponse then do
    let key ← value
    let version ← WireFormat.long.parse
    pure (some (.event (.created key version isRetried) listId isCustom))
  else if opCode = cacheEntryModifiedEventResponse then do
    let key ← value
    let version ← WireFormat.long.parse
    pure (some (.event (.modified key version isRetried) listId isCustom))
  else if opCode = cacheEntryRemovedEventResponse then do
    let key ← value
    pure (some (.event (.removed key isRetried) listId isCustom))
  else if opCode = cacheEntryExpiredEventResponse then
    if 21 ≤ codec.protocolVersion then do
      let key ← value
      pure (some (.expired key listId isCustom))
    else pure none
  else pure none

theorem parses_readEvent (codec : Codec) (opCode : UInt8) :
    Parses (readEvent codec opCode) (eventBody codec opCode) :=
  parses_readValue.bind fun _ => parses_readByte.bind fun _ => parses_readByte.bind fun _ =>
    (parses_readValue.bind fun _ => parses_pure _).ite <|
    (parses_readValue.bind fun _ => parses_readLong.bind fun _ => parses_pure _).ite <|
    (parses_readValue.bind fun _ => parses_readLong.bind fun _ => parses_pure _).ite <|
    (parses_readValue.bind fun _ => parses_pure _).ite <|
    ((parses_readValue.bind fun _ => parses_pure _).ite (parses_pure _)).ite (parses_pure _)

theorem shrinks_eventBody (codec : Codec) (opCode : UInt8) : Shrinks (eventBody codec opCode) :=
  shrinks_value.bind fun _ => WireFormat.shrinks_byte.bind fun _ =>
    WireFormat.shrinks_byte.bind fun _ =>
    (shrinks_value.bind fun _ => WireFormat.shrinks_pure _).ite <|
    (shrinks_value.bind fun _ => WireFormat.shrinks_long.bind fun _ =>
      WireFormat.shrinks_pure _).ite <|
    (shrinks_value.bind fun _ => WireFormat.shrinks_long.bind fun _ =>
      WireFormat.shrinks_pure _).ite <|
    (shrinks_value.bind fun _ => WireFormat.shrinks_pure _).ite <|
    ((shrinks_value.bind fun _ => WireFormat.shrinks_pure _).ite (WireFormat.shrinks_pure _)).ite
      (WireFormat.shrinks_pure _)

def EventDispatcher.layout (e : EventDispatcher) : Layout e.dispatcher where
  body := eventBody e.codec
  reads := parses_readEvent e.codec
  shrinks := shrinks_eventBody e.codec

def counterEventBody : Parser CounterEvent := do
  let counterName ← WireFormat.array.parse
  let _ ← WireFormat.array.parse
  let encodedState ← WireFormat.byte.parse
  let oldValue ← WireFormat.long.parse
  let newValue ← WireFormat.long.parse
  pure {
    counterName := counterName.1
    oldValue := oldValue.toInt64
    oldState := encoded2OldState encodedState
    newValue := newValue.toInt64
    newState := encoded2NewState encodedState }

theorem parses_readCounterEvent (opCode : UInt8) :
    Parses (readCounterEvent opCode) counterEventBody :=
  parses_readArray.bind fun _ => parses_readArray.bind fun _ => parses_readByte.bind fun _ =>
    parses_readLong.bind fun _ => parses_readLong.bind fun _ => parses_pure _

theorem shrinks_counterEventBody : Shrinks counterEventBody :=
  WireFormat.shrinks_array.bind fun _ => WireFormat.shrinks_array.bind fun _ =>
    WireFormat.shrinks_byte.bind fun _ => WireFormat.shrinks_long.bind fun _ =>
      WireFormat.shrinks_long.bind fun _ => WireFormat.shrinks_pure _

def CounterDispatcher.layout (c : CounterDispatcher L) : Layout c.dispatcher where
  body _ := counterEventBody
  reads := parses_readCounterEvent
  shrinks _ := shrinks_counterEventBody

/-! ### The threads on a stream -/

-- A thread that starts to read; the stream is all that comes before the connection is lost, closed
-- or silent for too long.
def receiving (hostname : String) (port : Int) (stream : List UInt8) : Dispatching X where
  transport := { hostname, port, unread := stream, inTime := stream.length }

/-- A dispatcher thread ends cleanly exactly on the streams whose messages it tolerates,
and only the recovery of a counter dispatcher may itself go wrong. -/
theorem dispatchers_endCleanly (e : EventDispatcher) (c : CounterDispatcher L) (hostname : String)
    (port : Int) (stream : List UInt8) :
    (EndsCleanly e.recoveryCallback (e.run (receiving hostname port stream)) ↔
      e.layout.ToleratesAll stream []) ∧
    (EndsCleanly c.recoveryCallback (c.run (receiving hostname port stream)) ↔
      (∀ thrown, c.recoveryCallback ≠ some (some thrown)) ∧ c.layout.ToleratesAll stream []) := by
  constructor
  · have ends := run_endsCleanly e.layout (s := receiving hostname port stream) rfl rfl
    have returns : e.dispatcher.RecoveryReturns := .inl rfl
    exact ends.trans (and_iff_right returns)
  · have ends := run_endsCleanly c.layout (s := receiving hostname port stream) rfl rfl
    have returns : c.dispatcher.RecoveryReturns ↔
        ∀ thrown, c.recoveryCallback ≠ some (some thrown) := or_iff_right nofun
    exact ends.trans (and_congr_left fun _ => returns)

/-- A byte that is not the magic byte ends the thread with an exception, and the response to
another request stops it without the near cache being told. -/
theorem dispatcher_dies_or_stops_silently :
    ¬ EndsCleanly (some none) (EventDispatcher.run
      { codec := .codec28, processEvent := fun _ => none, recoveryCallback := some none }
      (receiving "localhost" 11222 [0xA0])) ∧
    ¬ EndsCleanly (some none) (EventDispatcher.run
      { codec := .codec28, processEvent := fun _ => none, recoveryCallback := some none }
      (receiving "localhost" 11222 [0xA1, 0x00, 0x26, 0x00, 0x00])) := by
  constructor
  · rintro ⟨t, ended, -⟩
    cases ended
  · rintro ⟨t, ended, counted⟩
    cases ended
    cases counted

end HotRod.Events
