import HotRod.Events.Endings
import HotRod.Operations.ListenerEvents

/-! The two readers of events, side by side.

`AddClientListenerOperation` reads the events before its response, `EventDispatcher` the
events after it. Event for event they call the listener alike and stop at the same byte,
but for the expired entries, of which the first reads no body, and for what the listener
raises: the first ignores most of it and goes on, the second stops. -/

set_option autoImplicit false

namespace HotRod.Events

open Semantics.Execution
open Protocol HotRodConstants
open Operations (ClientEvent ClientListener ServerEvent readValue responseType
  readPartialEventHeader readAddEventListenerResponseType eventLoop consumes_readValue
  consumes_readPartialEventHeader consumes_readAddEventListenerResponseType)
open Operations.AddClientListenerOperation (handleEvent)
open WireFormat (Bytes)

variable {s t : Dispatching Invocation} {processEvent : List Invocation → Option Thrown}

/-! ### The events before the response -/

def Thrown.isHotRodClient : Thrown → Bool
  | .exn e => e.isHotRodClient
  | .foreign => false

-- An expired entry has a body that nothing reads.
def readImmediateEvent : UInt8 → ConnectionM (Option Invocation) :=
  readEventBody fun _ _ => pure none

def processImmediateEvent (processEvent : List Invocation → Option Thrown) (respOpCode : UInt8) :
    DispatcherM Invocation PUnit := do
  match ← onTransport (readImmediateEvent respOpCode) with
  | some x => call processEvent x
  | none => pure ()

-- `catch (const HotRodClientException&)`.
def handleImmediateEvent (processEvent : List Invocation → Option Thrown) (respOpCode : UInt8) :
    DispatcherM Invocation PUnit :=
  tryCatch (do
    let status ← onTransport readPartialEventHeader
    if isSuccess status then processImmediateEvent processEvent respOpCode)
  fun thrown => if thrown.isHotRodClient then pure () else throw thrown

/-- A turn of the loop over the events, from before it reads a type. -/
def immediateTurn (processEvent : List Invocation → Option Thrown) : DispatcherM Invocation Bool := do
  let (respOpCode, _) ← onTransport readAddEventListenerResponseType
  if isEvent respOpCode then do
    handleImmediateEvent processEvent respOpCode
    pure true
  else pure false

/-! ### The listener of the operation -/

def forgetting (listener : ClientListener) (log : List Invocation) : Option Thrown :=
  match log.getLast? with
  | some (.event event listId isCustom) => (listener.processEvent event listId isCustom).map .exn
  | _ => none

theorem processImmediateEvent_eq (listener : ClientListener) (respOpCode : UInt8) :
    Operations.AddClientListenerOperation.processImmediateEvent listener respOpCode =
      (do
        match ← readImmediateEvent respOpCode with
        | some (.event event listId isCustom) =>
          Operations.AddClientListenerOperation.notify listener event listId isCustom
        | _ => pure ()) := by
  simp only [Operations.AddClientListenerOperation.processImmediateEvent, readImmediateEvent,
    readEventBody, bind_assoc]
  congr 1; funext listId
  congr 1; funext isCustom
  congr 1; funext isRetried
  split
  · simp only [bind_assoc, pure_bind]
  · split
    · simp only [bind_assoc, pure_bind]
    · split
      · simp only [bind_assoc, pure_bind]
      · split
        · simp only [bind_assoc, pure_bind]
        · split <;> simp only [pure_bind]

/-- The calls apart, the result is that of a program over the connection. -/
def Follows {A B : Type} (result : EStateM.Result Thrown (Dispatching Invocation) A)
    (inner : EStateM.Result Exn Connection B) : Prop :=
  match inner with
  | .ok _ c => ∃ a t, result = .ok a t ∧ t.transport = c
  | .error e c => ∃ t, result = .error (.exn e) t ∧ t.transport = c

theorem Follows.bind {A B C : Type} {result : EStateM.Result Thrown (Dispatching Invocation) A}
    {m : ConnectionM B} {c : Connection} (follows : Follows result (m c)) (f : B → C) :
    Follows result ((m >>= fun b => pure (f b)) c) := by
  rw [bind_apply]
  cases inner : m c with
  | ok b c' =>
    rw [inner] at follows
    exact follows
  | error e c' =>
    rw [inner] at follows
    exact follows

theorem processImmediateEvent_follows (listener : ClientListener) (respOpCode : UInt8)
    (s : Dispatching Invocation) :
    Follows (processImmediateEvent (forgetting listener) respOpCode s)
      (Operations.AddClientListenerOperation.processImmediateEvent listener respOpCode
        s.transport) := by
  rw [processImmediateEvent_eq, bind_apply]
  cases read : readImmediateEvent respOpCode s.transport with
  | error e c =>
    have raised : processImmediateEvent (forgetting listener) respOpCode s = _ :=
      bind_of_error (onTransport_of_error read)
    exact ⟨_, raised, rfl⟩
  | ok invocation c =>
    have called : processImmediateEvent (forgetting listener) respOpCode s = _ :=
      bind_of_ok (onTransport_of_ok read)
    rw [called]
    cases invocation with
    | none => exact ⟨_, _, rfl, rfl⟩
    | some x =>
      have last : (s.invoked ++ [x]).getLast? = some x := List.getLast?_concat
      cases x with
      | expired key listId isCustom =>
        have quiet : forgetting listener (s.invoked ++ [.expired key listId isCustom]) = none := by
          rw [forgetting, last]
        exact ⟨_, _, call_none (s := { s with transport := c }) quiet, rfl⟩
      | event event listId isCustom =>
        have raises : forgetting listener (s.invoked ++ [.event event listId isCustom]) =
            (listener.processEvent event listId isCustom).map .exn := by
          rw [forgetting, last]
        change Follows (call (forgetting listener) (.event event listId isCustom)
          { s with transport := c })
          (Operations.AddClientListenerOperation.notify listener event listId isCustom c)
        rw [Operations.AddClientListenerOperation.notify]
        cases result : listener.processEvent event listId isCustom with
        | none =>
          rw [result] at raises
          exact ⟨_, _, call_none (s := { s with transport := c }) raises, rfl⟩
        | some e =>
          rw [result] at raises
          exact ⟨_, call_some (s := { s with transport := c }) raises, rfl⟩

section Ignoring

open Operations.AddClientListenerOperation (ignoring)

variable {x : DispatcherM Invocation PUnit} {m : ConnectionM UInt8} {c : Connection}

theorem Follows.ignoring (follows : Follows (x s) (m c)) (status : UInt8) :
    Follows (tryCatch x (fun thrown => if thrown.isHotRodClient then pure () else throw thrown) s)
      (ignoring status m c) := by
  rw [Operations.AddClientListenerOperation.ignoring]
  cases inner : m c with
  | ok a c' =>
    rw [inner] at follows
    obtain ⟨b, t, ran, same⟩ := follows
    rw [tryCatch_of_ok inner, tryCatch_of_ok ran]
    exact ⟨b, t, rfl, same⟩
  | error e c' =>
    rw [inner] at follows
    obtain ⟨t, ran, same⟩ := follows
    rw [tryCatch_of_error inner, tryCatch_of_error ran]
    by_cases ignored : e.isHotRodClient = true
    · rw [if_pos ignored, if_pos (show (Thrown.exn e).isHotRodClient = true from ignored)]
      exact ⟨(), t, rfl, same⟩
    · rw [if_neg ignored, if_neg (show ¬ (Thrown.exn e).isHotRodClient = true from ignored)]
      exact ⟨t, rfl, same⟩

theorem ignoring_twice {n : ConnectionM UInt8} {c' : Connection} {first second : UInt8}
    (inner : m c = ignoring second n c') : ignoring first m c = ignoring second n c' := by
  rw [← inner, ignoring]
  rw [ignoring] at inner
  -- the inner handler leaves either a result or what neither of them ignores
  cases ran : n c' with
  | ok a left =>
    rw [tryCatch_of_ok ran] at inner
    rw [tryCatch_of_ok inner, inner]
  | error e left =>
    rw [tryCatch_of_error ran] at inner
    by_cases ignored : e.isHotRodClient = true
    · rw [if_pos ignored, pure_apply] at inner
      rw [tryCatch_of_ok inner, inner]
    · rw [if_neg ignored, throw_apply] at inner
      rw [tryCatch_of_error inner, if_neg ignored, throw_apply, inner]

end Ignoring

theorem handleImmediateEvent_follows (listener : ClientListener) (respOpCode status : UInt8)
    (s : Dispatching Invocation) :
    Follows (handleImmediateEvent (forgetting listener) respOpCode s)
      (handleEvent listener respOpCode status s.transport) := by
  cases header : readPartialEventHeader s.transport with
  | error e c =>
    refine Follows.ignoring (c := s.transport) ?_ status
    rw [bind_of_error header, bind_of_error (onTransport_of_error header)]
    exact ⟨_, rfl, rfl⟩
  | ok read c =>
    have called : handleImmediateEvent (forgetting listener) respOpCode s =
        (tryCatch (do
          if isSuccess read then processImmediateEvent (forgetting listener) respOpCode)
          (fun thrown => if thrown.isHotRodClient then pure () else throw thrown) :
            DispatcherM Invocation PUnit) { s with transport := c } :=
      tryCatch_bind_of_ok (onTransport_of_ok header)
    have settled : handleEvent listener respOpCode status s.transport =
        Operations.AddClientListenerOperation.ignoring read (do
          if isSuccess read then
            Operations.AddClientListenerOperation.processImmediateEvent listener respOpCode
          pure read) c := ignoring_twice (bind_of_ok header)
    rw [called, settled]
    apply Follows.ignoring
    split
    · exact (processImmediateEvent_follows listener respOpCode { s with transport := c }).bind _
    · exact ⟨(), _, rfl, rfl⟩

theorem immediateTurn_goesOn (listener : ClientListener) (status : UInt8)
    (went : immediateTurn (forgetting listener) s = .ok true t) :
    ∃ last, ∀ n, eventLoop listener (n + 1) status s.transport =
      eventLoop listener n last t.transport := by
  cases read : readAddEventListenerResponseType s.transport with
  | error e c =>
    have raised : immediateTurn (forgetting listener) s = _ :=
      bind_of_error (onTransport_of_error read)
    rw [raised] at went
    cases went
  | ok type c =>
    obtain ⟨respOpCode, respMessageId⟩ := type
    have typed : immediateTurn (forgetting listener) s = (if isEvent respOpCode then do
        handleImmediateEvent (forgetting listener) respOpCode
        pure true
      else pure false : DispatcherM Invocation Bool) { s with transport := c } :=
      bind_of_ok (onTransport_of_ok read)
    rw [typed] at went
    by_cases event : isEvent respOpCode = true
    · rw [if_pos event, bind_apply] at went
      have follows := handleImmediateEvent_follows listener respOpCode status
        { s with transport := c }
      cases handled : handleEvent listener respOpCode status c with
      | error e left =>
        simp only [Follows, handled] at follows
        obtain ⟨u, raised, -⟩ := follows
        rw [raised] at went
        cases went
      | ok last left =>
        simp only [Follows, handled] at follows
        obtain ⟨_, u, ran, same⟩ := follows
        rw [ran] at went
        cases went
        refine ⟨last, fun n => ?_⟩
        rw [eventLoop, bind_of_ok read]
        change (if isEvent respOpCode then _ else _ : ConnectionM _) c = _
        rw [if_pos event, bind_of_ok handled, same]
        rfl
    · rw [if_neg event] at went
      cases went

theorem immediateTurns_goOn (listener : ClientListener) {n : Nat} (status : UInt8)
    (went : turns (immediateTurn (forgetting listener)) n s = .ok false t) :
    ∃ last, ∀ m, eventLoop listener (m + n) status s.transport =
      eventLoop listener m last t.transport := by
  induction n generalizing s status with
  | zero =>
    cases went
    exact ⟨status, fun m => rfl⟩
  | succ n ih =>
    rw [turns, bind_apply] at went
    cases turned : immediateTurn (forgetting listener) s with
    | error thrown u =>
      rw [turned] at went
      cases went
    | ok goesOn u =>
      rw [turned] at went
      cases goesOn with
      | false => cases went
      | true =>
        obtain ⟨middle, first⟩ := immediateTurn_goesOn listener status turned
        obtain ⟨last, later⟩ := ih middle went
        exact ⟨last, fun m => (first (m + n)).trans (later m)⟩

/-! ### One event -/

def invocation (e : ServerEvent) : Option Invocation :=
  e.received.map fun (event, isCustom) => .event event e.listenerId.1 isCustom

def eventBytes (e : ServerEvent) : List UInt8 :=
  WireFormat.array.encode e.listenerId ++ e.encodeBody

def headerBytes (e : ServerEvent) : List UInt8 :=
  WireFormat.byte.encode e.status ++ WireFormat.byte.encode 0

theorem encode_eq (e : ServerEvent) :
    e.encode = responseType e.messageId e.kind.opCode ++ (headerBytes e ++ eventBytes e) := by
  simp only [ServerEvent.encode, ServerEvent.encodeRest, headerBytes, eventBytes, List.append_assoc]

theorem consumes_readEventBody (readExpired : List UInt8 → UInt8 → ConnectionM (Option Invocation))
    {e : ServerEvent} {x : Invocation} (asks : invocation e = some x) :
    Consumes (readEventBody readExpired e.kind.opCode) (eventBytes e) (some x) := by
  obtain ⟨kind, messageId, status, success, listenerId, isRetried, body⟩ := e
  apply (consumes_readValue listenerId).bind
  cases body with
  | custom flag marked data =>
    obtain rfl : Invocation.event (.custom data.1 isRetried) listenerId.1 flag = x := by
      simpa [invocation, ServerEvent.received] using asks
    refine (consumes_read WireFormat.byte flag).bind
      ((consumes_read WireFormat.byte isRetried).bind ?_)
    rw [if_pos marked]
    exact (consumes_readValue data).map _
  | entry key version =>
    refine (consumes_read WireFormat.byte 0).bind ((consumes_read WireFormat.byte
      isRetried).bind ?_)
    rw [if_neg (not_not.mpr rfl)]
    cases kind with
    | created =>
      obtain rfl : Invocation.event (.created key.1 version isRetried) listenerId.1 0 = x := by
        simpa [invocation, ServerEvent.received] using asks
      exact (consumes_readValue key).bind ((consumes_read WireFormat.long version).map _)
    | modified =>
      obtain rfl : Invocation.event (.modified key.1 version isRetried) listenerId.1 0 = x := by
        simpa [invocation, ServerEvent.received] using asks
      exact (consumes_readValue key).bind ((consumes_read WireFormat.long version).map _)
    | removed =>
      obtain rfl : Invocation.event (.removed key.1 isRetried) listenerId.1 0 = x := by
        simpa [invocation, ServerEvent.received] using asks
      exact (consumes_readValue key).map _
    | expired => simp [invocation, ServerEvent.received] at asks

-- Of an expired entry the first reader leaves the key.
theorem consumes_readImmediateEvent_expired {e : ServerEvent} (unread : invocation e = none) :
    ∃ bytes key : List UInt8, eventBytes e = bytes ++ key ∧ key ≠ [] ∧
      Consumes (readImmediateEvent e.kind.opCode) bytes none := by
  obtain ⟨kind, messageId, status, success, listenerId, isRetried, body⟩ := e
  cases body with
  | custom flag marked data => simp [invocation, ServerEvent.received] at unread
  | entry key version =>
    cases kind with
    | created => simp [invocation, ServerEvent.received] at unread
    | modified => simp [invocation, ServerEvent.received] at unread
    | removed => simp [invocation, ServerEvent.received] at unread
    | expired =>
      refine ⟨WireFormat.array.encode listenerId ++ (WireFormat.byte.encode 0 ++
        WireFormat.byte.encode isRetried), WireFormat.array.encode key, ?_, ?_, ?_⟩
      · simp only [eventBytes, ServerEvent.encodeBody, List.append_assoc]
      · exact WireFormat.array.encode_ne_nil rfl key
      · apply (consumes_readValue listenerId).bind
        refine (consumes_read WireFormat.byte 0).bind
          ((consumes_read WireFormat.byte isRetried).reaches)

theorem consumes_readEventParams (params : EventHeaderParams) (topology : UInt8) :
    Consumes readEventParams (WireFormat.vLong.encode params.messageId ++
      (WireFormat.byte.encode params.opCode ++ (WireFormat.byte.encode params.status ++
        WireFormat.byte.encode topology))) params :=
  (consumes_read WireFormat.vLong params.messageId).bind
    ((consumes_read WireFormat.byte params.opCode).bind
      ((consumes_read WireFormat.byte params.status).bind
        ((consumes_read WireFormat.byte topology).map _)))

theorem consumes_readEventHeader (e : ServerEvent) :
    Consumes readEventHeader (responseType e.messageId e.kind.opCode ++ headerBytes e)
      { messageId := e.messageId, opCode := e.kind.opCode, status := e.status } := by
  have noError : e.kind.opCode ≠ errorResponse := by cases e.kind <;> decide
  simp only [responseType, headerBytes, List.append_assoc]
  apply (consumes_read WireFormat.byte responseMagic).bind
  rw [if_neg (not_not.mpr rfl)]
  have params : Reaches (readEventParams >>= fun params =>
      if params.opCode = errorResponse then do
        checkForErrorsInResponseStatus params.status
        throw (invalidOperation params.opCode params.opCode)
      else pure params) _ _ := (consumes_readEventParams
    { messageId := e.messageId, opCode := e.kind.opCode, status := e.status } 0).reaches
  rwa [if_neg noError] at params

/-! ### One turn -/

def after (s : Dispatching Invocation) (e : ServerEvent) (x : Invocation) (rest : List UInt8) :
    Dispatching Invocation :=
  { s with transport := s.transport.past e.encode rest, invoked := s.invoked ++ [x] }

section Turn

variable {e : ServerEvent} {x : Invocation} {rest : List UInt8}

theorem past_event (e : ServerEvent) (c : Connection) (rest : List UInt8) :
    (((c.past (responseType e.messageId e.kind.opCode)
      (headerBytes e ++ (eventBytes e ++ rest))).past (headerBytes e)
      (eventBytes e ++ rest)).past (eventBytes e) rest) = c.past e.encode rest := by
  rw [c.past_past _ _ (eventBytes e ++ rest), Connection.past_past, encode_eq, List.append_assoc]

theorem immediateTurn_headed (processEvent : List Invocation → Option Thrown)
    (unread : s.transport.unread = e.encode ++ rest)
    (came : e.encode.length ≤ s.transport.inTime) :
    ∃ c, c.unread = eventBytes e ++ rest ∧ (eventBytes e).length ≤ c.inTime ∧
      c.past (eventBytes e) rest = s.transport.past e.encode rest ∧
      immediateTurn processEvent s = ((do
        tryCatch (processImmediateEvent processEvent e.kind.opCode)
          (fun thrown => if thrown.isHotRodClient then pure () else throw thrown)
        pure true) : DispatcherM Invocation Bool) { s with transport := c } := by
  have whole := past_event e s.transport rest
  rw [encode_eq, List.append_assoc, List.append_assoc] at unread
  rw [encode_eq, List.length_append, List.length_append] at came
  have type := (consumes_readAddEventListenerResponseType e.messageId e.kind.opCode).of_came unread
    (Nat.le_of_add_right_le came)
  have later := Nat.le_sub_of_add_le' came
  change _ ≤ (s.transport.past (responseType e.messageId e.kind.opCode)
    (headerBytes e ++ (eventBytes e ++ rest))).inTime at later
  have left : (s.transport.past (responseType e.messageId e.kind.opCode)
    (headerBytes e ++ (eventBytes e ++ rest))).unread = headerBytes e ++ (eventBytes e ++ rest) := rfl
  -- from here on only what is left of the bytes and of the time matters
  generalize s.transport.past (responseType e.messageId e.kind.opCode)
    (headerBytes e ++ (eventBytes e ++ rest)) = c₁ at type whole later left
  have header : readPartialEventHeader c₁ = .ok e.status (c₁.past (headerBytes e)
      (eventBytes e ++ rest)) :=
    (consumes_readPartialEventHeader e.success).of_came left (Nat.le_of_add_right_le later)
  have opened : handleImmediateEvent processEvent e.kind.opCode { s with transport := c₁ } =
      (tryCatch (processImmediateEvent processEvent e.kind.opCode)
        (fun thrown => if thrown.isHotRodClient then pure () else throw thrown) :
          DispatcherM Invocation PUnit)
        { s with transport := c₁.past (headerBytes e) (eventBytes e ++ rest) } := by
    refine (tryCatch_bind_of_ok (onTransport_of_ok (s := { s with transport := c₁ })
      header)).trans ?_
    rw [if_pos e.success]
  refine ⟨c₁.past (headerBytes e) (eventBytes e ++ rest), rfl, Nat.le_sub_of_add_le' later, whole, ?_⟩
  rw [immediateTurn, bind_of_ok (onTransport_of_ok type)]
  change (if isEvent e.kind.opCode then _ else _ : DispatcherM Invocation Bool) _ = _
  rw [if_pos e.kind.isEvent, bind_apply, bind_apply, opened]

theorem immediateTurn_event (processEvent : List Invocation → Option Thrown)
    (asks : invocation e = some x)
    (unread : s.transport.unread = e.encode ++ rest)
    (came : e.encode.length ≤ s.transport.inTime) :
    immediateTurn processEvent s =
      match processEvent (s.invoked ++ [x]) with
      | none => .ok true (after s e x rest)
      | some thrown =>
        if thrown.isHotRodClient then .ok true (after s e x rest)
        else .error thrown (after s e x rest) := by
  obtain ⟨c, left, enough, whole, headed⟩ := immediateTurn_headed processEvent unread came
  have event : readImmediateEvent e.kind.opCode c = .ok (some x) (s.transport.past e.encode rest) := by
    rw [← whole]
    exact (consumes_readEventBody _ asks).of_came left enough
  have called : processImmediateEvent processEvent e.kind.opCode { s with transport := c } =
      call processEvent x { s with transport := s.transport.past e.encode rest } :=
    (bind_of_ok (onTransport_of_ok (s := { s with transport := c }) event)).trans rfl
  rw [headed, bind_apply]
  cases raises : processEvent (s.invoked ++ [x]) with
  | none =>
    rw [call_none (s := { s with transport := s.transport.past e.encode rest }) raises] at called
    rw [tryCatch_of_ok called]
    rfl
  | some thrown =>
    rw [call_some (s := { s with transport := s.transport.past e.encode rest }) raises] at called
    rw [tryCatch_of_error called]
    by_cases ignored : thrown.isHotRodClient = true
    · simp only [ignored, if_true]
      rfl
    · simp only [if_neg ignored]
      rfl

theorem immediateTurn_expired (processEvent : List Invocation → Option Thrown)
    (expired : invocation e = none)
    (unread : s.transport.unread = e.encode ++ rest)
    (came : e.encode.length ≤ s.transport.inTime) :
    ∃ key t, key ≠ [] ∧ t.transport.unread = key ++ rest ∧
      immediateTurn processEvent s = .ok true t := by
  obtain ⟨c, left, enough, -, headed⟩ := immediateTurn_headed processEvent unread came
  obtain ⟨bytes, key, split, some, reads⟩ := consumes_readImmediateEvent_expired expired
  rw [split, List.append_assoc] at left
  rw [split, List.length_append] at enough
  have event : readImmediateEvent e.kind.opCode c = .ok none (c.past bytes (key ++ rest)) :=
    reads.of_came left (Nat.le_of_add_right_le enough)
  have called : processImmediateEvent processEvent e.kind.opCode { s with transport := c } =
      .ok () { s with transport := c.past bytes (key ++ rest) } :=
    (bind_of_ok (onTransport_of_ok (s := { s with transport := c }) event)).trans rfl
  refine ⟨key, { s with transport := c.past bytes (key ++ rest) }, some, rfl, ?_⟩
  rw [headed, bind_apply, tryCatch_of_ok called]
  rfl

theorem thread_reads (codec : Codec) (asks : invocation e = some x) {c : Connection}
    (unread : c.unread = e.encode ++ rest) (came : e.encode.length ≤ c.inTime) :
    ∃ params c₁, params.opCode = e.kind.opCode ∧ readEventHeader c = .ok params c₁ ∧
      readEvent codec e.kind.opCode c₁ = .ok (some x) (c.past e.encode rest) := by
  have header := consumes_readEventHeader e
  have event : Consumes (readEvent codec e.kind.opCode) _ _ := consumes_readEventBody _ asks
  rw [encode_eq, ← List.append_assoc] at unread came ⊢
  rw [List.append_assoc] at unread
  rw [List.length_append] at came
  refine ⟨_, _, rfl, header.of_came unread (Nat.le_of_add_right_le came), ?_⟩
  rw [event.of_came rfl (Nat.le_sub_of_add_le' came), pure_apply, Connection.past_past]

variable (d : EventDispatcher)

theorem attempt_event_eq (asks : invocation e = some x)
    (unread : s.transport.unread = e.encode ++ rest)
    (came : e.encode.length ≤ s.transport.inTime) :
    d.dispatcher.attempt s = (do
      d.dispatcher.deliver [x]
      pure true) { s with transport := s.transport.past e.encode rest } := by
  obtain ⟨params, c₁, opCode, header, event⟩ := thread_reads d.codec asks unread came
  have mine : d.dispatcher.isEvent params.opCode = true := by
    rw [opCode]
    exact e.kind.isEvent
  rw [← opCode] at event
  rw [Dispatcher.attempt, bind_of_ok (onTransport_of_ok header), if_pos mine]
  exact bind_of_ok (onTransport_of_ok (s := { s with transport := c₁ }) event)

theorem threadTurn_none (asks : invocation e = some x)
    (unread : s.transport.unread = e.encode ++ rest)
    (came : e.encode.length ≤ s.transport.inTime)
    (quiet : d.processEvent (s.invoked ++ [x]) = none) :
    d.dispatcher.turn s = .ok true (after s e x rest) := by
  apply Dispatcher.turn_of_ok
  have passes : d.dispatcher.Passes (s.invoked ++ [x]) := by
    intro thrown raises
    rw [show d.dispatcher.callback (s.invoked ++ [x]) = none from quiet] at raises
    cases raises
  rw [attempt_event_eq d asks unread came]
  exact bind_of_ok (Dispatcher.deliver_quiet
    (s := { s with transport := s.transport.past e.encode rest }) ⟨passes, trivial⟩)

theorem threadTurn_some {thrown : Thrown} (asks : invocation e = some x)
    (unread : s.transport.unread = e.encode ++ rest)
    (came : e.encode.length ≤ s.transport.inTime)
    (raises : d.processEvent (s.invoked ++ [x]) = some thrown) :
    (∀ t, d.dispatcher.turn s ≠ .ok true t) ∧
      (final (d.dispatcher.turn s)).transport = (after s e x rest).transport ∧
      (final (d.dispatcher.turn s)).invoked = (after s e x rest).invoked := by
  have raised : d.dispatcher.attempt s = .error thrown (after s e x rest) := by
    rw [attempt_event_eq d asks unread came]
    exact bind_of_error (bind_of_error (Dispatcher.invoke_raises
      (s := { s with transport := s.transport.past e.encode rest }) raises nofun))
  by_cases transport : thrown.isTransport = true
  · have returns : d.dispatcher.RecoveryReturns := .inl rfl
    rw [Dispatcher.turn_of_transport raised transport,
      bind_of_ok (Dispatcher.recover_returns returns)]
    exact ⟨nofun, rfl, rfl⟩
  · rw [Dispatcher.turn_of_other raised transport]
    exact ⟨nofun, rfl, rfl⟩

end Turn

/-! ### Sequences of events -/

section Sequences

variable {events : List ServerEvent} {rest : List UInt8}

def Facing (s : Dispatching Invocation) (events : List ServerEvent) (rest : List UInt8) : Prop :=
  s.transport.unread = events.flatMap ServerEvent.encode ++ rest ∧
    (events.flatMap ServerEvent.encode).length ≤ s.transport.inTime

/-- The two readers have stopped at the same place after the same calls. -/
def SamePlace (first second : Dispatching Invocation) (unread : List UInt8) : Prop :=
  first.invoked = second.invoked ∧ first.transport.unread = unread ∧
    second.transport.unread = unread

/-- Event for event, the two readers make the same calls and consume its bytes. -/
def InStep (first second : DispatcherM Invocation Bool) (events : List ServerEvent)
    (rest : List UInt8) (s : Dispatching Invocation) : Prop :=
  ∀ k ≤ events.length, SamePlace (final (turns first k s)) (final (turns second k s))
    ((events.drop k).flatMap ServerEvent.encode ++ rest)

/-- No event is an expired entry without a converter, and no call but the last raises. -/
def AllHeard (processEvent : List Invocation → Option Thrown) :
    List Invocation → List ServerEvent → Prop
  | _, [] => True
  | log, e :: events => ∃ x, invocation e = some x ∧
      (events ≠ [] → processEvent (log ++ [x]) = none) ∧ AllHeard processEvent (log ++ [x]) events

variable {first second : DispatcherM Invocation Bool}

theorem inStep_nil (facing : Facing s [] rest) : InStep first second [] rest s := by
  intro k short
  obtain rfl : k = 0 := Nat.le_zero.mp short
  exact ⟨rfl, facing.1, facing.1⟩

theorem inStep_cons {e : ServerEvent} (facing : Facing s (e :: events) rest)
    (went : first s = .ok true t) (went' : second s = .ok true t) :
    InStep first second (e :: events) rest s ↔ InStep first second events rest t := by
  constructor
  · intro inStep k short
    have next := inStep (k + 1) (Nat.succ_le_succ short)
    rwa [turns_of_goesOn went, turns_of_goesOn went'] at next
  · intro inStep k short
    cases k with
    | zero => exact ⟨rfl, facing.1, facing.1⟩
    | succ k =>
      rw [turns_of_goesOn went, turns_of_goesOn went']
      exact inStep k (Nat.le_of_succ_le_succ short)

theorem final_turns_of_stop {turn : DispatcherM Invocation Bool} {n : Nat}
    (stops : ∀ t, turn s ≠ .ok true t) : final (turns turn (n + 1) s) = final (turn s) := by
  rw [turns_of_stop stops]
  cases turn s <;> rfl

theorem final_turns_one (turn : DispatcherM Invocation Bool) :
    final (turns turn 1 s) = final (turn s) := by
  rw [turns, bind_apply]
  cases turn s with
  | error thrown t => rfl
  | ok goesOn t => cases goesOn <;> rfl

theorem facing_after {e : ServerEvent} (facing : Facing s (e :: events) rest) (x : Invocation) :
    Facing (after s e x (events.flatMap ServerEvent.encode ++ rest)) events rest := by
  obtain ⟨-, came⟩ := facing
  rw [List.flatMap_cons, List.length_append] at came
  exact ⟨rfl, Nat.le_sub_of_add_le' came⟩

theorem facing_head {e : ServerEvent} (facing : Facing s (e :: events) rest) :
    s.transport.unread = e.encode ++ (events.flatMap ServerEvent.encode ++ rest) ∧
      e.encode.length ≤ s.transport.inTime := by
  obtain ⟨unread, came⟩ := facing
  rw [List.flatMap_cons, List.append_assoc] at unread
  rw [List.flatMap_cons, List.length_append] at came
  exact ⟨unread, Nat.le_of_add_right_le came⟩

variable (d : EventDispatcher)

theorem not_inStep_of_expired {e : ServerEvent} (facing : Facing s (e :: events) rest)
    (expired : invocation e = none) :
    ¬ InStep (immediateTurn processEvent) second (e :: events) rest s := by
  obtain ⟨unread, came⟩ := facing_head facing
  obtain ⟨key, t, some, left, went⟩ := immediateTurn_expired processEvent expired unread came
  intro inStep
  -- one turn is enough to see the key
  obtain ⟨-, here, -⟩ := inStep 1 (Nat.succ_le_succ (Nat.zero_le _))
  rw [turns_of_goesOn went, List.drop_one, List.tail_cons] at here
  exact some (List.append_left_eq_self.mp (left.symm.trans here))

theorem not_inStep_of_raise {e next : ServerEvent} {x : Invocation} {thrown : Thrown}
    (facing : Facing s (e :: next :: events) rest) (asks : invocation e = some x)
    (raises : d.processEvent (s.invoked ++ [x]) = some thrown) :
    ¬ InStep first d.dispatcher.turn (e :: next :: events) rest s := by
  obtain ⟨unread, came⟩ := facing_head facing
  obtain ⟨stops, place, -⟩ := threadTurn_some d asks unread came raises
  intro inStep
  -- after the first turn the two may agree; the second is one that the thread does not take
  obtain ⟨-, -, here⟩ := inStep 2 (Nat.succ_le_succ (Nat.succ_le_succ (Nat.zero_le _)))
  have left : (after s e x ((next :: events).flatMap ServerEvent.encode ++ rest)).transport.unread =
      next.encode ++ (events.flatMap ServerEvent.encode ++ rest) := by
    rw [after, List.flatMap_cons, List.append_assoc]
    rfl
  rw [final_turns_of_stop stops, place, left] at here
  have nothing : next.encode = [] := List.append_left_eq_self.mp here
  rw [encode_eq] at nothing
  cases nothing

theorem inStep_last {e : ServerEvent} {x : Invocation} (facing : Facing s [e] rest)
    (asks : invocation e = some x) :
    InStep (immediateTurn d.processEvent) d.dispatcher.turn [e] rest s := by
  obtain ⟨unread, came⟩ := facing_head facing
  intro k short
  rcases Nat.le_one_iff_eq_zero_or_eq_one.mp short with rfl | rfl
  · exact ⟨rfl, facing.1, facing.1⟩
  · have immediate : final (immediateTurn d.processEvent s) = after s e x rest := by
      rw [immediateTurn_event d.processEvent asks unread came]
      cases d.processEvent (s.invoked ++ [x]) with
      | none => rfl
      | some thrown => exact apply_ite final _ _ _ |>.trans (ite_self _)
    rw [final_turns_one, final_turns_one, immediate]
    cases raises : d.processEvent (s.invoked ++ [x]) with
    | none =>
      rw [threadTurn_none d asks unread came raises]
      exact ⟨rfl, rfl, rfl⟩
    | some thrown =>
      obtain ⟨-, place, calls⟩ := threadTurn_some d asks unread came raises
      rw [SamePlace, place, calls]
      exact ⟨rfl, rfl, rfl⟩

-- The two readers agree, event for event, exactly if no event is an expired entry and nothing but
-- the last call raises.
theorem inStep_iff (facing : Facing s events rest) :
    InStep (immediateTurn d.processEvent) d.dispatcher.turn events rest s ↔
      AllHeard d.processEvent s.invoked events := by
  induction events generalizing s with
  | nil => exact iff_of_true (inStep_nil facing) trivial
  | cons e events ih =>
    obtain ⟨unread, came⟩ := facing_head facing
    cases asks : invocation e with
    | none =>
      refine iff_of_false (not_inStep_of_expired facing asks) ?_
      rintro ⟨x, asks', -⟩
      rw [asks] at asks'
      cases asks'
    | some x =>
      have unfolded : AllHeard d.processEvent s.invoked (e :: events) ↔
          (events ≠ [] → d.processEvent (s.invoked ++ [x]) = none) ∧
            AllHeard d.processEvent (s.invoked ++ [x]) events := by
        simp only [AllHeard, asks, Option.some.injEq, exists_eq_left']
      rw [unfolded]
      -- a call that raises is fine where it is the last one
      cases raises : d.processEvent (s.invoked ++ [x]) with
      | none =>
        have went := immediateTurn_event d.processEvent asks unread came
        rw [raises] at went
        rw [inStep_cons facing went (threadTurn_none d asks unread came raises),
          ih (facing_after facing x)]
        exact (and_iff_right fun _ => rfl).symm
      | some thrown =>
        cases events with
        | nil => exact iff_of_true (inStep_last d facing asks) ⟨fun more => absurd rfl more, trivial⟩
        | cons next events =>
          refine iff_of_false (not_inStep_of_raise d facing asks raises) ?_
          rintro ⟨quiet, -⟩
          cases quiet (List.cons_ne_nil next events)

def before (s : Dispatching Invocation) (events : List ServerEvent) (rest : List UInt8)
    (more : Nat) : Dispatching Invocation :=
  { s with transport := { s.transport with
      unread := events.flatMap ServerEvent.encode ++ rest
      inTime := (events.flatMap ServerEvent.encode).length + more } }

/-- Whatever the codec and the listener, the operation and the thread decode a sequence of
events alike exactly if none is an expired entry and nothing but the last call raises. -/
theorem decoders_agree_iff (s : Dispatching Invocation) (events : List ServerEvent)
    (rest : List UInt8) (more : Nat) :
    InStep (immediateTurn d.processEvent) d.dispatcher.turn events rest (before s events rest more) ↔
      AllHeard d.processEvent s.invoked events :=
  inStep_iff d ⟨rfl, Nat.le_add_right _ _⟩

end Sequences

-- The entry of the key 6B expires.
def expiredEvent : ServerEvent where
  kind := .expired
  messageId := 0
  status := noErrorStatus
  success := rfl
  listenerId := .empty
  isRetried := 0
  body := .entry ⟨[0x6B], Nat.one_lt_two_pow (by decide)⟩ 0

/-- The thread removes the entry, and the operation looks for an event in its key. -/
theorem expired_key_unread :
    ¬ InStep (immediateTurn fun _ => none) (EventDispatcher.dispatcher
      { codec := .codec28, processEvent := fun _ => none, recoveryCallback := none }).turn
      [expiredEvent] []
      (before { transport := { hostname := "localhost", port := 11222 } } [expiredEvent] [] 0) :=
  not_inStep_of_expired ⟨rfl, Nat.le_add_right _ _⟩ rfl

end HotRod.Events
