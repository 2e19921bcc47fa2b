import HotRod.Operations.Exchanges

/-! `AddClientListenerOperation` and the events before its response.

The server may send events of the current state ahead of the response. The loop
ignores every `HotRodClientException` on the way, time-outs included, and reads
nothing of an expired entry. Where neither happens, it comes to the response with
nothing but the response to read. -/

set_option autoImplicit false

namespace HotRod.Operations

open Semantics.Execution
open Protocol HotRodConstants
open WireFormat (Bytes)

variable {listener : ClientListener} {s t : Connection} {rest : List UInt8}

/-! ### Events -/

inductive EventKind where
  | created | modified | removed | expired
  deriving DecidableEq, Repr

def EventKind.opCode : EventKind → UInt8
  | created => cacheEntryCreatedEventResponse
  | modified => cacheEntryModifiedEventResponse
  | removed => cacheEntryRemovedEventResponse
  | expired => cacheEntryExpiredEventResponse

theorem EventKind.isEvent (kind : EventKind) : isEvent kind.opCode = true := by
  cases kind <;> rfl

inductive EventBody where
  | custom (isCustom : UInt8) (marked : isCustom ≠ 0) (data : Bytes)
  | entry (key : Bytes) (version : UInt64)

structure ServerEvent where
  kind : EventKind
  messageId : UInt64
  status : UInt8
  success : isSuccess status = true
  listenerId : Bytes
  isRetried : UInt8
  body : EventBody

-- Up to the operation code, as `readAddEventListenerResponseType` reads it.
def responseType (messageId : UInt64) (opCode : UInt8) : List UInt8 :=
  WireFormat.byte.encode responseMagic ++ (WireFormat.vLong.encode messageId ++
    WireFormat.byte.encode opCode)

namespace ServerEvent

def encodeBody (e : ServerEvent) : List UInt8 :=
  match e.body with
  | .custom isCustom _ data =>
    WireFormat.byte.encode isCustom ++ (WireFormat.byte.encode e.isRetried ++
      WireFormat.array.encode data)
  | .entry key version =>
    WireFormat.byte.encode 0 ++ (WireFormat.byte.encode e.isRetried ++
      match e.kind with
      | .created | .modified => WireFormat.array.encode key ++ WireFormat.long.encode version
      | .removed | .expired => WireFormat.array.encode key)

def encodeRest (e : ServerEvent) : List UInt8 :=
  WireFormat.byte.encode e.status ++ (WireFormat.byte.encode 0
    ++ (WireFormat.array.encode e.listenerId ++ e.encodeBody))

def encode (e : ServerEvent) : List UInt8 := responseType e.messageId e.kind.opCode ++ e.encodeRest

def received (e : ServerEvent) : Option (ClientEvent × UInt8) :=
  match e.body, e.kind with
  | .custom isCustom _ data, _ => some (.custom data.1 e.isRetried, isCustom)
  | .entry key version, .created => some (.created key.1 version e.isRetried, 0)
  | .entry key version, .modified => some (.modified key.1 version e.isRetried, 0)
  | .entry key _, .removed => some (.removed key.1 e.isRetried, 0)
  | .entry .., .expired => none

/-- The event is read, and the listener raises nothing the loop does not ignore. -/
def Heard (listener : ClientListener) (e : ServerEvent) : Prop :=
  ∃ event isCustom, e.received = some (event, isCustom) ∧
    ∀ raised, listener.processEvent event e.listenerId.1 isCustom = some raised →
      raised.isHotRodClient = true

end ServerEvent

open AddClientListenerOperation

theorem reaches_processImmediateEvent {e : ServerEvent} {event : ClientEvent} {isCustom : UInt8}
    (received : e.received = some (event, isCustom)) :
    Reaches (processImmediateEvent listener e.kind.opCode)
      (WireFormat.array.encode e.listenerId ++ e.encodeBody)
      (notify listener event e.listenerId.1 isCustom) := by
  obtain ⟨kind, messageId, status, success, listenerId, isRetried, body⟩ := e
  apply (consumes_readValue listenerId).bind
  cases body with
  | custom flag marked data =>
    obtain ⟨rfl, rfl⟩ : ClientEvent.custom data.1 isRetried = event ∧ flag = isCustom := by
      simpa [ServerEvent.received] using received
    refine (consumes_read WireFormat.byte flag).bind
      ((consumes_read WireFormat.byte isRetried).bind ?_)
    rw [if_pos marked]
    exact (consumes_readValue data).reaches
  | entry key version =>
    refine (consumes_read WireFormat.byte 0).bind ((consumes_read WireFormat.byte
      isRetried).bind ?_)
    rw [if_neg (not_not.mpr rfl)]
    cases kind with
    | created =>
      obtain ⟨rfl, rfl⟩ : ClientEvent.created key.1 version isRetried = event ∧ 0 = isCustom := by
        simpa [ServerEvent.received] using received
      exact (consumes_readValue key).bind (consumes_read WireFormat.long version).reaches
    | modified =>
      obtain ⟨rfl, rfl⟩ : ClientEvent.modified key.1 version isRetried = event ∧ 0 = isCustom := by
        simpa [ServerEvent.received] using received
      exact (consumes_readValue key).bind (consumes_read WireFormat.long version).reaches
    | removed =>
      obtain ⟨rfl, rfl⟩ : ClientEvent.removed key.1 isRetried = event ∧ 0 = isCustom := by
        simpa [ServerEvent.received] using received
      exact (consumes_readValue key).reaches
    | expired => simp [ServerEvent.received] at received

theorem consumes_readPartialEventHeader {status : UInt8} (success : isSuccess status = true) :
    Consumes readPartialEventHeader (WireFormat.byte.encode status ++ WireFormat.byte.encode 0)
      status := by
  have last : Consumes (do
      let _ ← readByte
      pure status) (WireFormat.byte.encode 0) status := (consumes_read WireFormat.byte
        0).map fun _ => status
  apply (consumes_read WireFormat.byte status).bind
  simp only [success, Bool.not_true, Bool.false_eq_true, if_false]
  exact last

theorem consumes_readAddEventListenerResponseType (messageId : UInt64) (opCode : UInt8) :
    Consumes readAddEventListenerResponseType (responseType messageId opCode)
      (opCode, messageId) := by
  apply (consumes_read WireFormat.byte responseMagic).bind
  rw [if_neg (not_not.mpr rfl)]
  exact (consumes_read WireFormat.vLong messageId).bind
    ((consumes_read WireFormat.byte opCode).map _)

theorem ignoring_heard {e : ServerEvent} (heard : e.Heard listener)
    (unread : s.unread = WireFormat.array.encode e.listenerId ++ e.encodeBody ++ rest)
    (came : (WireFormat.array.encode e.listenerId ++ e.encodeBody).length ≤ s.inTime) :
    ignoring e.status (do
      if isSuccess e.status then processImmediateEvent listener e.kind.opCode
      pure e.status) s =
      .ok e.status (s.past (WireFormat.array.encode e.listenerId ++ e.encodeBody) rest) := by
  obtain ⟨event, isCustom, received, ignored⟩ := heard
  have process : Reaches (processImmediateEvent listener e.kind.opCode)
      (WireFormat.array.encode e.listenerId ++ e.encodeBody)
        (notify listener event e.listenerId.1 isCustom) :=
    reaches_processImmediateEvent received
  have reads := (process.bind fun _ => (pure e.status : ConnectionM UInt8)).of_came unread came
  rw [if_pos e.success, ignoring]
  cases raises : listener.processEvent event e.listenerId.1 isCustom with
  | none =>
    simp only [notify, raises, unlessRaised] at reads
    exact tryCatch_of_ok reads
  | some raised =>
    simp only [notify, raises, unlessRaised] at reads
    rw [tryCatch_of_error reads, if_pos (ignored raised raises), pure_apply]

theorem handleEvent_heard {e : ServerEvent} (heard : e.Heard listener) (status : UInt8)
    (unread : s.unread = e.encodeRest ++ rest) (came : e.encodeRest.length ≤ s.inTime) :
    handleEvent listener e.kind.opCode status s = .ok e.status (s.past e.encodeRest rest) := by
  have split : e.encodeRest = WireFormat.byte.encode e.status ++ WireFormat.byte.encode 0
      ++ (WireFormat.array.encode e.listenerId ++ e.encodeBody) := by
    rw [ServerEvent.encodeRest, List.append_assoc]
  rw [split, List.append_assoc] at unread
  rw [split, List.length_append] at came
  have first := (consumes_readPartialEventHeader e.success).of_came unread
    (Nat.le_of_add_right_le came)
  have second := ignoring_heard heard (s := s.past
    (WireFormat.byte.encode e.status ++ WireFormat.byte.encode 0)
    (WireFormat.array.encode e.listenerId ++ e.encodeBody ++ rest)) rfl (Nat.le_sub_of_add_le' came)
  rw [Connection.past_past, ← split] at second
  exact tryCatch_of_ok ((bind_of_ok first).trans second)

/-! ### The loop -/

-- The loop from before it reads a type.
def eventLoop (listener : ClientListener) (turns : Nat) (status : UInt8) :
    ConnectionM (UInt8 × UInt64 × UInt8) := do
  let (respOpCode, respMessageId) ← readAddEventListenerResponseType
  immediateEvents listener turns respOpCode respMessageId status

theorem receive_eq (o : HotRodOperation) (listener : ClientListener) (s : Connection) :
    AddClientListenerOperation.receive o listener s =
      (eventLoop listener s.unread.length noErrorStatus
        >>= fun (respOpCode, respMessageId, status) =>
        finish o respOpCode respMessageId status) s := by
  simp only [AddClientListenerOperation.receive, eventLoop, bind_assoc]
  rfl

theorem eventLoop_event {e : ServerEvent} (heard : e.Heard listener) (turns : Nat) (status : UInt8)
    (unread : s.unread = e.encode ++ rest) (came : e.encode.length ≤ s.inTime) :
    eventLoop listener (turns + 1) status s = eventLoop listener turns e.status
      (s.past e.encode rest) := by
  rw [ServerEvent.encode, List.append_assoc] at unread
  rw [ServerEvent.encode, List.length_append] at came
  have type := (consumes_readAddEventListenerResponseType e.messageId e.kind.opCode).of_came unread
    (Nat.le_of_add_right_le came)
  have handled := handleEvent_heard heard status (s := s.past
    (responseType e.messageId e.kind.opCode)
    (e.encodeRest ++ rest)) rfl (Nat.le_sub_of_add_le' came)
  rw [Connection.past_past] at handled
  rw [eventLoop, bind_of_ok type]
  change (if isEvent e.kind.opCode then _ else _ : ConnectionM _) _ = _
  rw [if_pos e.kind.isEvent, bind_of_ok handled]
  rfl

theorem eventLoop_events {events : List ServerEvent} (heard : ∀ e ∈ events, e.Heard listener)
    (turns : Nat) {status : UInt8} (success : isSuccess status = true)
    (unread : s.unread = events.flatMap ServerEvent.encode ++ rest)
    (came : (events.flatMap ServerEvent.encode).length ≤ s.inTime) :
    ∃ last, isSuccess last = true ∧ eventLoop listener (turns + events.length) status s =
      eventLoop listener turns last (s.past (events.flatMap ServerEvent.encode) rest) := by
  induction events generalizing s status with
  | nil =>
    refine ⟨status, success, ?_⟩
    have same := (reaches_nil (eventLoop listener turns status)).of_came (s := s) unread
      (Nat.zero_le _)
    exact same
  | cons e events ih =>
    rw [List.flatMap_cons, List.append_assoc] at unread
    rw [List.flatMap_cons, List.length_append] at came
    have first := eventLoop_event (heard e List.mem_cons_self) (turns + events.length) status unread
      (Nat.le_of_add_right_le came)
    obtain ⟨last, ends, later⟩ :=
      ih (fun e member => heard e (List.mem_cons_of_mem _ member)) e.success
      (s := s.past e.encode (events.flatMap ServerEvent.encode ++ rest)) rfl
        (Nat.le_sub_of_add_le' came)
    rw [Connection.past_past, ← List.flatMap_cons] at later
    exact ⟨last, ends, first.trans later⟩

theorem length_le_flatMap_encode (events : List ServerEvent) :
    events.length ≤ (events.flatMap ServerEvent.encode).length := by
  induction events with
  | nil => exact Nat.le_refl 0
  | cons e events ih =>
    have some : 1 ≤ e.encode.length := Nat.succ_le_succ (Nat.zero_le _)
    rw [List.flatMap_cons, List.length_append, List.length_cons]
    omega

/-! ### The response -/

section Response

variable (o : HotRodOperation) {messageId : UInt64} {opCode status : UInt8}
    {topology : Option TopologyUpdate}

theorem immediateEvents_ends (plain : isEvent opCode = false) (turns : Nat) (last : UInt8) :
    immediateEvents listener turns opCode messageId last = pure (opCode, messageId, last) := by
  cases turns with
  | zero => rfl
  | succ turns => rw [immediateEvents, if_neg (by rw [plain]; nofun)]

theorem reaches_response (listener : ClientListener) (own : messageId = o.messageId ∨ messageId = 0)
    (plain : isEvent opCode = false) (status : UInt8) (topology : Option TopologyUpdate)
    {last : UInt8} (success : isSuccess last = true) (turns : Nat) :
    Reaches (eventLoop listener turns last >>= fun (respOpCode, respMessageId, status) =>
        finish o respOpCode respMessageId status) (header messageId opCode status topology)
      (actOnHeader o.factory (o.params .addClientListener) opCode status topology >>= fun status =>
        setFailed !isSuccess status) := by
  have split : header messageId opCode status topology =
      responseType messageId opCode ++ partialHeader status topology := by
    simp only [header, responseType, List.append_assoc]
  rw [split, eventLoop, bind_assoc]
  apply (consumes_readAddEventListenerResponseType messageId opCode).bind
  simp only [immediateEvents_ends plain, pure_bind, finish, success, if_true]
  rw [if_neg fun mismatch => own.elim mismatch.1 mismatch.2]
  exact (reaches_readPartialHeader o.factory (o.params .addClientListener) opCode status
    topology).bind _

theorem receive_heard {events : List ServerEvent} (heard : ∀ e ∈ events, e.Heard listener)
    (own : messageId = o.messageId ∨ messageId = 0) (plain : isEvent opCode = false)
    (unread : s.unread = events.flatMap ServerEvent.encode ++
    (header messageId opCode status topology ++ rest))
    (came : (events.flatMap ServerEvent.encode).length ≤ s.inTime) :
    (∃ e t, AddClientListenerOperation.receive o listener s = .error e t ∧ e.isTransport = true) ∨
      ∃ t, t.unread = rest ∧ t.output = s.output ∧ AddClientListenerOperation.receive o listener s =
        (actOnHeader o.factory (o.params .addClientListener) opCode status topology
          >>= fun status =>
          setFailed !isSuccess status) t := by
  obtain ⟨turns, enough⟩ : ∃ turns, s.unread.length = turns + events.length := by
    have longer := length_le_flatMap_encode events
    refine ⟨s.unread.length - events.length, ?_⟩
    rw [unread, List.length_append]
    omega
  have fresh : isSuccess noErrorStatus = true := rfl
  obtain ⟨last, success, looped⟩ := eventLoop_events heard turns fresh unread came
  have reads := reaches_response o listener own plain status topology success turns
  rw [receive_eq, enough, bind_apply, looped, ← bind_apply]
  by_cases inTime : (header messageId opCode status topology).length ≤
      (s.past (events.flatMap ServerEvent.encode) (header messageId opCode status topology ++
        rest)).inTime
  · rw [reads.of_came rfl inTime]
    exact .inr ⟨(s.past _ _).past _ rest, rfl, rfl, rfl⟩
  · rw [reads.of_late rfl inTime]
    exact .inl ⟨_, _, rfl, rfl⟩

end Response

/-! ### The operation -/

section Operation

variable {o : HotRodOperation} {listenerId bytes : List UInt8} {arrivals : Option (Nat × List Nat)}
  {events : List ServerEvent} {status : UInt8} {topology : Option TopologyUpdate}
  {messageId : UInt64}
  {message : Bytes}

/-- The events come before the first time-out. -/
def Timely (events : List ServerEvent) (arrivals : Option (Nat × List Nat)) : Prop :=
  ∀ n later, arrivals = some (n, later) → (events.flatMap ServerEvent.encode).length ≤ n

-- The handler of the operation marks it as failed and raises again.
theorem addClientListener_receives (awaiting : Awaiting s bytes arrivals) :
    (∃ e t, AddClientListenerOperation.executeOperation o listener listenerId s = .error e t ∧
      e.isTransport = true) ∨
      ∃ n later u, arrivals = some (n, later) ∧ u.unread = bytes ∧ u.output = [] ∧ u.inTime = n ∧
        AddClientListenerOperation.executeOperation o listener listenerId s =
          tryCatch (AddClientListenerOperation.receive o listener) (fun e => do
            setFailed true
            throw e) u := by
  have reset : Awaiting { s with failed := false } bytes arrivals :=
    ⟨awaiting.unread, awaiting.inTime, awaiting.output, awaiting.coming⟩
  obtain ⟨headerBytes, header⟩ := writeHeader_eq o .addClientListener { s with failed := false }
  have reseted : setFailed false s = .ok () { s with failed := false } := rfl
  rw [AddClientListenerOperation.executeOperation, bind_of_ok reseted, bind_of_ok header,
    bind_of_ok (write_apply _ _), filled_filled]
  match arrivals, reset with
  | none, reset =>
    rw [bind_of_error (flush_refused reset _)]
    exact .inl ⟨_, _, rfl, rfl⟩
  | some (n, later), reset =>
    rw [bind_of_ok (flush_sent reset _)]
    exact .inr ⟨n, later, _, rfl, rfl, rfl, rfl, rfl⟩

theorem drains_rethrow {m : ConnectionM PUnit} (drains : Drains (m s)) :
    Drains (tryCatch m (fun e => do
      setFailed true
      throw e) s) := by
  cases result : m s with
  | ok a t => rwa [tryCatch_of_ok result, ← result]
  | error e t =>
    rw [result] at drains
    rw [tryCatch_of_error result]
    exact drains

theorem strands_rethrow {m : ConnectionM PUnit} (strands : Strands (m s)) :
    Strands (tryCatch m (fun e => do
      setFailed true
      throw e) s) := by
  cases result : m s with
  | ok a t => rwa [tryCatch_of_ok result, ← result]
  | error e t =>
    rw [result] at strands
    rw [tryCatch_of_error result]
    exact strands

theorem addClientListener_heard (heard : ∀ e ∈ events, e.Heard listener)
    (timely : Timely events arrivals) {opCode : UInt8}
    (own : messageId = o.messageId ∨ messageId = 0) (plain : isEvent opCode = false)
    (awaiting : Awaiting s (events.flatMap ServerEvent.encode
      ++ (header messageId opCode status topology ++ rest)) arrivals) :
    (∃ e t, AddClientListenerOperation.executeOperation o listener listenerId s = .error e t ∧
      e.isTransport = true) ∨
      ∃ u t, t.unread = rest ∧ t.output = [] ∧ AddClientListenerOperation.receive o listener u =
        (actOnHeader o.factory (o.params .addClientListener) opCode status topology
          >>= fun status =>
          setFailed !isSuccess status) t ∧
        AddClientListenerOperation.executeOperation o listener listenerId s =
          tryCatch (AddClientListenerOperation.receive o listener) (fun e => do
            setFailed true
            throw e) u := by
  rcases addClientListener_receives awaiting with early | ⟨n, later, u, arrived, unread, sent, came,
    executes⟩
  · exact .inl early
  rcases receive_heard o heard own plain unread (came ▸ timely n later arrived) with
    ⟨e, t, raised, transport⟩ | ⟨t, read, kept, receives⟩
  · refine .inl ⟨e, { t with failed := true }, ?_, transport⟩
    rw [executes, tryCatch_of_error raised]
    rfl
  · exact .inr ⟨u, t, read, kept.trans sent, receives, executes⟩

theorem addClientListener_response_drains (heard : ∀ e ∈ events, e.Heard listener)
    (timely : Timely events arrivals) (awaiting : Awaiting s (events.flatMap ServerEvent.encode
      ++ (header o.messageId OpCode.addClientListener.toOpRespCode status topology ++ []))
        arrivals) :
    Drains (AddClientListenerOperation.executeOperation o listener listenerId s) := by
  rcases addClientListener_heard heard timely (.inl rfl) (OpCode.toOpRespCode_not_event _)
    awaiting with
    ⟨e, t, raised, transport⟩ | ⟨u, t, read, sent, receives, executes⟩
  · rw [raised]
    exact .inl transport
  · rw [executes]
    apply drains_rethrow
    rw [receives, actOnHeader_own]
    cases topologyRaises o.factory 0 topology with
    | some e => exact .inr ⟨read, sent⟩
    | none => exact ⟨read, sent⟩

theorem addClientListener_error_drains (heard : ∀ e ∈ events, e.Heard listener)
    (timely : Timely events arrivals) (own : messageId = o.messageId ∨ messageId = 0)
    (awaiting : Awaiting s (events.flatMap ServerEvent.encode
      ++ (header messageId errorResponse status topology ++ WireFormat.array.encode message))
        arrivals)
    (quiet : topologyRaises o.factory 0 topology = none) (told : hasMessage status = true) :
    Drains (AddClientListenerOperation.executeOperation o listener listenerId s) := by
  rcases addClientListener_heard heard timely own rfl awaiting with
    ⟨e, t, raised, transport⟩ | ⟨u, t, read, sent, receives, executes⟩
  · rw [raised]
    exact .inl transport
  · rw [executes]
    apply drains_rethrow
    rw [receives]
    exact actOnHeader_error_drains o read sent quiet told

theorem addClientListener_error_strands (heard : ∀ e ∈ events, e.Heard listener)
    (timely : Timely events arrivals) (own : messageId = o.messageId ∨ messageId = 0)
    (awaiting : Awaiting s (events.flatMap ServerEvent.encode
      ++ (header messageId errorResponse status topology ++ WireFormat.array.encode message))
        arrivals)
    (untold : topologyRaises o.factory 0 topology ≠ none ∨ hasMessage status = false) :
    Strands (AddClientListenerOperation.executeOperation o listener listenerId s) := by
  rcases addClientListener_heard heard timely own rfl awaiting with
    ⟨e, t, raised, transport⟩ | ⟨u, t, read, -, receives, executes⟩
  · rw [raised]
    exact .inl transport
  · rw [executes]
    apply strands_rethrow
    rw [receives]
    exact actOnHeader_error_strands o read untold

end Operation

end HotRod.Operations
