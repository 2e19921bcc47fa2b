import HotRod.Operations.ListenerEvents
import HotRod.Operations.Pairing

/-! A pooled connection between two uses.

A transport goes from use to use: attempts of `RetryOnFailureOperation::execute`
and turns of `TransportFactory::pingServers`. Whether the next use finds it with
nothing to read and nothing to send depends on which exceptions were raised
between the request and the last byte of its answer. -/

set_option autoImplicit false

namespace HotRod.Operations

open Semantics.Execution Semantics.Transition
open Protocol HotRodConstants
open WireFormat (Bytes)

variable {cmd : Command} {s : Connection} {t : Transport}

/-! ### Answers and uses -/

/-- What a server may answer: a response with a body that belongs to its status, or
an error with a message, which may have come about before the id was known. -/
inductive Answer (cmd : Command) where
  | response (status : UInt8) (topology : Option TopologyUpdate) (body : List UInt8)
    (allowed : cmd.Body status body)
  | error (echoed : Bool) (status : UInt8) (topology : Option TopologyUpdate) (message : Bytes)

def Answer.encode (messageId : UInt64) : Answer cmd → List UInt8
  | .response status topology body _ => header messageId cmd.opCode.toOpRespCode status
    topology ++ body
  | .error echoed status topology message =>
    header (if echoed then messageId else 0) errorResponse status topology ++
      WireFormat.array.encode message

/-- One use of a connection: the operation, the events and the answer its server
sends, when they come, the `failed` member as an attempt before left it and what
the pool raises when it gets the transport back. -/
structure Exchange (cmd : Command) where
  operation : HotRodOperation
  events : List ServerEvent
  eventless : cmd.listens = false → events = []
  answer : Answer cmd
  arrivals : Option (Nat × List Nat)
  failed : Bool
  pool : List (Option Exn)

namespace Exchange

def bytes (x : Exchange cmd) : List UInt8 :=
  x.events.flatMap ServerEvent.encode ++ x.answer.encode x.operation.messageId

def start (x : Exchange cmd) (s : Connection) : Connection :=
  { s with
    inTime := s.unread.length
    afterTimeout := []
    coming := some { bytes := x.bytes, arrivals := x.arrivals }
    failed := false }

theorem awaiting (x : Exchange cmd) (idle : s.Synchronised) :
    Awaiting (x.start s) x.bytes x.arrivals :=
  ⟨idle.1, congrArg List.length idle.1, idle.2, rfl⟩

end Exchange

def Command.kind : Command → Operation
  | resetCounter _ | removeCounter _ => .void
  | addClientListener .. => .addClientListener
  | removeClientListener _ => .removeClientListener
  | addCounterListener _ _ keepTransport => .addCounterListener keepTransport
  | _ => .plain

-- An exception without the mark came before the `try` block.
def outcome : EStateM.Result Exn Connection PUnit → Outcome PUnit
  | .ok _ c => .returned () !c.failed
  | .error e c => .raised e !c.failed

def Exchange.script (x : Exchange cmd) (t : Transport) (s : Connection) : Script PUnit where
  transport := .ok t
  outcome := outcome (cmd.executeOperation x.operation (x.start s))
  valid := (final (cmd.executeOperation x.operation (x.start s))).valid
  pool := x.pool

def Exchange.calls (x : Exchange cmd) (t : Transport) (s : Connection) : List PoolCall :=
  (final (attempt cmd.kind (x.script t s) { failed := x.failed, answers := x.pool })).calls

/-! ### `pingServers` -/

/-- One server of the loop: what the pool lends, what the ping raises, and what the
pool raises when it gets the transport back. -/
structure PingTurn where
  server : InetSocketAddress
  borrowed : Except Exn Transport
  pinged : Option Exn
  returned : Option Exn

-- Only `catch (const Exception&)` stands between a turn and the caller.
def pingServers : List PingTurn → List PoolCall × Option Exn
  | [] => ([], none)
  | turn :: rest =>
    match turn.borrowed with
    | .error e => if e.isException then pingServers rest else ([], some e)
    | .ok transport =>
      match turn.pinged.filter fun e => !e.isException with
      | some e => ([], some e)
      | none =>
        let call := PoolCall.returnObject turn.server transport
        match turn.returned with
        | some e => ([call], some e)
        | none => (call :: (pingServers rest).1, (pingServers rest).2)

-- `TransportObjectFactory::ping`: no cache, no flags and the topology id -1.
def TransportObjectFactory.ping (o : HotRodOperation) : ConnectionM PingResult :=
  PingOperation.execute
    { o with flags := 0, cacheName := [], topologyId := 0xFFFFFFFF, dataFormat := none }

def Exchange.turn (x : Exchange .ping) (t : Transport) (s : Connection) : PingTurn where
  server := t.serverAddress
  borrowed := .ok t
  pinged := raised (TransportObjectFactory.ping x.operation (x.start s))
  returned := x.pool.head?.join

/-! ### Lives -/

inductive Use where
  | execute (cmd : Command) (x : Exchange cmd)
  | ping (x : Exchange .ping)

def use (t : Transport) (s : Connection) : Use → Option Connection
  | .execute cmd x =>
    if .returnObject t.serverAddress t ∈ x.calls t s then some
      (final (cmd.executeOperation x.operation (x.start s)))
    else none
  | .ping x =>
    if .returnObject t.serverAddress t ∈ (pingServers [x.turn t s]).1 then
      some (final (TransportObjectFactory.ping x.operation (x.start s)))
    else none

/-! ### Answers that are read -/

/-- The operation reads what the answer has after its header: it comes that far, and
it knows the status. -/
def Answer.Settled (factory : Protocol.TransportFactory) : Answer cmd → Prop
  | .response status topology body _ =>
    if topologyRaises factory 0 topology = none then cmd.Clean status = true else body = []
  | .error _ status topology _ => topologyRaises factory 0 topology = none ∧
    hasMessage status = true

namespace Exchange

/-- The events are read, they come in time, and their listener raises nothing that
is not ignored. -/
def Heard (x : Exchange cmd) : Prop :=
  match cmd with
  | .addClientListener listener _ => (∀ e ∈ x.events, e.Heard listener) ∧ Timely x.events x.arrivals
  | _ => True

def Settled (x : Exchange cmd) : Prop :=
  cmd.writeRaises = none ∧ x.Heard ∧ x.answer.Settled x.operation.factory

/-- The condition for a ping, which is put back after a time-out as well. -/
def PingSettled (x : Exchange .ping) : Prop :=
  (∃ n later, x.arrivals = some (n, later) ∧ x.bytes.length ≤ n) ∧
    x.answer.Settled x.operation.factory

end Exchange

def Use.Heard : Use → Prop
  | .execute _ x => x.Heard
  | .ping _ => True

def Use.Settled : Use → Prop
  | .execute _ x => x.Settled
  | .ping x => x.PingSettled

/-! ### Attempts -/

theorem rethrown_isTransport (op : Operation) (t : Transport) {e : Exn} (early : Bool)
    (transport : e.isTransport = true) :
    (rethrown op t e early).isTransport = true := by
  match e with
  | .transport host port message => cases op <;> cases early <;> rfl

theorem calls_of_transport (x : Exchange cmd) (t : Transport) {e : Exn} {c : Connection}
    (failure : cmd.executeOperation x.operation (x.start s) = .error e c)
    (transport : e.isTransport = true) :
    .returnObject t.serverAddress t ∉ x.calls t s := by
  have raises : tryBlock cmd.kind (x.script t s) { failed := x.failed, answers := x.pool } =
      .error (.raised (rethrown cmd.kind t e !c.failed))
        { failed := failedAfter cmd.kind (!c.failed) x.failed
          transport := some t
          answers := x.pool } := by
    rw [tryBlock_of_ok rfl]
    apply bind_of_error
    rw [Exchange.script, failure, outcome]
    exact executeOperation_raised cmd.kind t e (!c.failed) _
  have named := rethrown_isTransport cmd.kind t (!c.failed) transport
  rw [Exchange.calls, (attempt_calls raises).1, handle_some rfl]
  generalize rethrown cmd.kind t e (!c.failed) = thrown at named
  match thrown with
  | .transport host port message => simp [handed]

section Execute

variable {x : Exchange cmd}

theorem own_id (echoed : Bool) (messageId : UInt64) :
    (if echoed then messageId else 0) = messageId ∨ (if echoed then messageId else 0) = 0 := by
  cases echoed
  · exact .inr rfl
  · exact .inl rfl

theorem plain_bytes (pooled : cmd.listens = false) :
    x.bytes = x.answer.encode x.operation.messageId := by
  rw [Exchange.bytes, x.eventless pooled]
  rfl

theorem receive_drains {finish : UInt8 → ConnectionM PUnit} (finishes : Finishes cmd finish)
    (settled : x.answer.Settled x.operation.factory) {u : Connection}
    (unread : u.unread = x.answer.encode x.operation.messageId) (sent : u.output = []) :
    Drains (x.operation.receive cmd.opCode finish u) := by
  cases answer : x.answer with
  | response status topology body allowed =>
    rw [answer] at settled unread
    refine receive_response_drains x.operation unread sent
      (fun raises => ?_) fun quiet u left sent => ?_
    · simpa [Answer.Settled, raises] using settled
    · have clean : cmd.Clean status = true := by simpa [Answer.Settled, quiet] using settled
      exact finishes.drains allowed clean left sent
  | error echoed status topology message =>
    rw [answer] at settled unread
    exact receive_error_drains x.operation (own_id echoed _) unread sent settled.1 settled.2

theorem receive_strands {finish : UInt8 → ConnectionM PUnit} (finishes : Finishes cmd finish)
    (unsettled : ¬ x.answer.Settled x.operation.factory) {u : Connection}
    (unread : u.unread = x.answer.encode x.operation.messageId) :
    Strands (x.operation.receive cmd.opCode finish u) := by
  cases answer : x.answer with
  | response status topology body allowed =>
    rw [answer] at unsettled unread
    refine receive_response_strands x.operation unread (fun raises => ?_) fun quiet u left => ?_
    · simpa [Answer.Settled, raises] using unsettled
    · have unclean : cmd.Clean status = false := by simpa [Answer.Settled, quiet] using unsettled
      exact finishes.strands allowed unclean left
  | error echoed status topology message =>
    rw [answer] at unsettled unread
    exact receive_error_strands x.operation (own_id echoed _) unread (by
      simpa [Answer.Settled, ← or_iff_not_imp_left] using not_and_or.mp unsettled)

theorem listener_ends {listener : ClientListener} {listenerId : List UInt8}
    {x : Exchange (.addClientListener listener listenerId)} (idle : s.Synchronised)
    (heard : x.Heard) :
    (x.answer.Settled x.operation.factory →
      Drains (AddClientListenerOperation.executeOperation x.operation listener listenerId
        (x.start s))) ∧
    (¬ x.answer.Settled x.operation.factory →
      Strands (AddClientListenerOperation.executeOperation x.operation listener listenerId
        (x.start s))) := by
  have awaiting := x.awaiting idle
  rw [Exchange.bytes] at awaiting
  cases answer : x.answer with
  | response status topology body allowed =>
    have empty : body = [] := allowed
    subst empty
    rw [answer] at awaiting
    refine ⟨fun _ => addClientListener_response_drains heard.1 heard.2 awaiting,
      fun unsettled => ?_⟩
    simp [Answer.Settled, Command.Clean] at unsettled
  | error echoed status topology message =>
    rw [answer] at awaiting
    refine ⟨fun settled => addClientListener_error_drains heard.1 heard.2 (own_id echoed _) awaiting
      settled.1 settled.2,
      fun unsettled => addClientListener_error_strands heard.1 heard.2 (own_id echoed _)
        awaiting ?_⟩
    simpa [Answer.Settled, ← or_iff_not_imp_left] using not_and_or.mp unsettled

theorem execute_drains (idle : s.Synchronised) (settled : x.Settled) :
    Drains (cmd.executeOperation x.operation (x.start s)) := by
  obtain ⟨ready, heard, answered⟩ := settled
  cases pooled : cmd.listens with
  | true =>
    match cmd, pooled with
    | .addClientListener listener listenerId, _ => exact (listener_ends idle heard).1 answered
  | false =>
    obtain ⟨finish, sends, finishes⟩ := cmd.exchanges x.operation ready pooled
    rcases sends (x.awaiting idle) with ⟨e, t, raised, transport⟩ | ⟨u, unread, sent, eq⟩
    · rw [raised]
      exact .inl transport
    · rw [eq]
      rw [plain_bytes pooled] at unread
      exact receive_drains finishes answered unread sent

theorem execute_strands (idle : s.Synchronised) (heard : x.Heard) (unsettled : ¬ x.Settled) :
    Strands (cmd.executeOperation x.operation (x.start s)) := by
  cases raises : cmd.writeRaises with
  | some e =>
    -- only PREPARE can fail while it writes, and what it has written stays in the buffer
    match cmd, raises with
    | .prepareCommit xid context, raises =>
      obtain ⟨u, failure, unsent⟩ :=
        PrepareCommitOperation.raises_unsent x.operation xid raises (x.start s)
      apply strands_discard
      rw [failure]
      exact .inr fun synchronised => unsent synchronised.2
  | none =>
    have left : ¬ x.answer.Settled x.operation.factory := fun answered =>
      unsettled ⟨raises, heard, answered⟩
    cases pooled : cmd.listens with
    | true =>
      match cmd, pooled with
      | .addClientListener listener listenerId, _ => exact (listener_ends idle heard).2 left
    | false =>
      obtain ⟨finish, sends, finishes⟩ := cmd.exchanges x.operation raises pooled
      rcases sends (x.awaiting idle) with ⟨e, t, raised, transport⟩ | ⟨u, unread, -, eq⟩
      · rw [raised]
        exact .inl transport
      · rw [eq]
        rw [plain_bytes pooled] at unread
        exact receive_strands finishes left unread

end Execute

/-! ### Pings -/

section Ping

variable (o : HotRodOperation) {result : UInt8 → PingResult} {u : Connection} {status : UInt8}
  {topology : Option TopologyUpdate}

theorem ping_response (unread : u.unread =
    header o.messageId OpCode.ping.toOpRespCode status topology ++ [])
    (sent : u.output = []) :
    (final (o.receive .ping (fun status => pure (result status)) u)).Synchronised ↔
      (header o.messageId OpCode.ping.toOpRespCode status topology).length ≤ u.inTime := by
  constructor
  · intro synchronised
    by_contra late
    exact receive_late o (.inl rfl) unread late synchronised
  · intro came
    rw [(reaches_receive o (.inl rfl) _).of_came unread came, actOnHeader_own]
    cases topologyRaises o.factory 0 topology with
    | some e => exact ⟨rfl, sent⟩
    | none => exact ⟨rfl, sent⟩

theorem ping_error {messageId : UInt64} (own : messageId = o.messageId ∨ messageId = 0)
    {message : Bytes} (unread : u.unread = header messageId errorResponse status topology ++
      WireFormat.array.encode message)
    (sent : u.output = []) :
    (final (o.receive .ping (fun status => pure (result status)) u)).Synchronised ↔
      u.unread.length ≤ u.inTime ∧ topologyRaises o.factory 0 topology = none ∧
        hasMessage status = true := by
  have size : u.unread.length =
      (header messageId errorResponse status topology).length +
        (WireFormat.array.encode message).length := by
    rw [unread, List.length_append]
  by_cases came : (header messageId errorResponse status topology).length ≤ u.inTime
  · rw [(reaches_receive o own _).of_came unread came]
    by_cases settled : topologyRaises o.factory 0 topology = none ∧ hasMessage status = true
    · rw [actOnHeader_error_told o rfl settled.1 settled.2, and_iff_left settled, size]
      split_ifs with read
      · simp only [Connection.past] at read
        exact iff_of_true (afterError_synchronised.mpr ⟨rfl, sent⟩) (by omega)
      · refine iff_of_false (fun synchronised => ?_) ?_
        · exact Connection.not_synchronised_cut (Nat.not_le.mp read)
            (afterError_synchronised.mp synchronised)
        · simp only [Connection.past] at read
          omega
    · rw [actOnHeader_error_untold o (by simpa [← or_iff_not_imp_left] using not_and_or.mp settled)]
      exact iff_of_false (not_synchronised_of_message rfl) fun all => settled all.2
  · refine iff_of_false (receive_late o own unread came) fun all => ?_
    omega

theorem ping_receive (answer : Answer .ping) (unread : u.unread = answer.encode o.messageId)
    (sent : u.output = []) :
    (final (o.receive .ping (fun status => pure (result status)) u)).Synchronised ↔
      u.unread.length ≤ u.inTime ∧ answer.Settled o.factory := by
  cases answer with
  | response status topology body allowed =>
    have empty : body = [] := allowed
    subst empty
    have settled : (Answer.response status topology [] allowed).Settled o.factory := by
      simp [Answer.Settled, Command.Clean]
    rw [and_iff_left settled, ping_response o unread sent, unread, Answer.encode, List.append_nil]
    rfl
  | error echoed status topology message => exact ping_error o (own_id echoed _) unread sent

theorem ping_synchronised {x : Exchange .ping} (idle : s.Synchronised) :
    (final (TransportObjectFactory.ping x.operation (x.start s))).Synchronised ↔ x.PingSettled := by
  have awaiting := x.awaiting idle
  rw [TransportObjectFactory.ping, PingOperation.execute, Exchange.PingSettled]
  cases arrivals : x.arrivals with
  | none =>
    rw [arrivals] at awaiting
    obtain ⟨u, refused, unsent⟩ := exchange_refused _ .ping _ awaiting
    rw [refused]
    refine iff_of_false (fun synchronised => unsent synchronised.2) ?_
    rintro ⟨⟨n, later, sent, -⟩, -⟩
    cases sent
  | some arrival =>
    obtain ⟨n, later⟩ := arrival
    rw [arrivals] at awaiting
    rw [exchange_sent _ .ping _ awaiting, ping_receive _ x.answer (plain_bytes rfl) rfl]
    simp [answered]

end Ping

/-! ### Lives of a connection -/

theorem use_execute {x : Exchange cmd} {m : Connection} (put : use t s (.execute cmd x) = some m) :
    .returnObject t.serverAddress t ∈ x.calls t s ∧
      m = final (cmd.executeOperation x.operation (x.start s)) := by
  rw [use] at put
  split_ifs at put with called
  exact ⟨called, (Option.some.inj put).symm⟩

theorem use_ping {x : Exchange .ping} {m : Connection} (put : use t s (.ping x) = some m) :
    m = final (TransportObjectFactory.ping x.operation (x.start s)) := by
  rw [use] at put
  split_ifs at put
  exact (Option.some.inj put).symm

theorem synchronised_of_settled {u : Use} {m : Connection} (idle : s.Synchronised)
    (settled : u.Settled) (put : use t s u = some m) : m.Synchronised := by
  cases u with
  | ping x =>
    rw [use_ping put]
    exact (ping_synchronised idle).mpr settled
  | execute cmd x =>
    obtain ⟨called, rfl⟩ := use_execute put
    have drains := execute_drains idle settled
    cases result : cmd.executeOperation x.operation (x.start s) with
    | ok a m =>
      rw [result] at drains
      exact drains
    | error e m =>
      rw [result] at drains
      exact drains.resolve_left fun transport => calls_of_transport x t result transport called

-- A use that is not settled is noticed, unless its events were lost as well.
theorem settled_of_synchronised {u : Use} {m : Connection} (idle : s.Synchronised) (heard : u.Heard)
    (put : use t s u = some m) (left : m.Synchronised) : u.Settled := by
  cases u with
  | ping x =>
    rw [use_ping put] at left
    exact (ping_synchronised idle).mp left
  | execute cmd x =>
    obtain ⟨called, rfl⟩ := use_execute put
    by_contra unsettled
    have strands := execute_strands idle heard unsettled
    cases result : cmd.executeOperation x.operation (x.start s) with
    | ok a m =>
      rw [result] at strands left
      exact strands left
    | error e m =>
      rw [result] at strands left
      exact strands.elim (fun transport => calls_of_transport x t result transport
        called) fun stranded => stranded left

/-- Whenever a use puts the connection back, all answers have been read and all
requests sent. -/
def SynchronisedThroughout (t : Transport) (s : Connection) (uses : List Use) : Prop :=
  ∀ n m, run (use t) s (uses.take n) = some m → m.Synchronised

/-- Over every life of a connection: settled uses hand it on with nothing to read
and nothing to send, and no other use does that whose events are heard. -/
theorem connections_synchronised (t : Transport) {uses : List Use} (idle : s.Synchronised)
    {last : Connection} (kept : run (use t) s uses = some last) :
    ((∀ u ∈ uses, u.Settled) → SynchronisedThroughout t s uses) ∧
    (SynchronisedThroughout t s uses → ∀ u ∈ uses, u.Heard → u.Settled) := by
  constructor
  · intro settled n m reached
    have early : ∀ u ∈ uses.take n, u.Settled := fun u member =>
      settled u (List.mem_of_mem_take member)
    exact run_invariant Connection.Synchronised idle
      (fun s u m idle settled put => synchronised_of_settled idle settled put)
      (guarded_of_forall early s) reached
  · intro synchronised u member heard
    obtain ⟨before, after, rfl⟩ := List.append_of_mem member
    rw [run_append] at kept
    obtain ⟨m, reached, later⟩ := Option.bind_eq_some_iff.mp kept
    obtain ⟨m', put, -⟩ := run_cons_eq_some.mp later
    have here : m.Synchronised := synchronised before.length m (by rw [List.take_left, reached])
    have next : m'.Synchronised := by
      apply synchronised (before.length + 1) m'
      rw [List.take_length_add_append, List.take_succ_cons, List.take_zero, run_append, reached,
        Option.bind_some]
      exact run_cons_eq_some.mpr ⟨m', put, rfl⟩
    exact settled_of_synchronised here heard put next

section Lives

def server : Transport := ⟨0, ⟨"10.0.0.1", 11222⟩⟩

def fresh : Connection := { hostname := "10.0.0.1", port := 11222 }

def request : HotRodOperation where
  codec := .codec20
  flags := 0
  cacheName := []
  topologyId := 0
  dataFormat := none
  messageId := 1
  factory := { getTopologyId := none, topologyAge := 0, update := fun _ _ => none }

def lookup (answer : Answer (.get [0x6B])) : Use :=
  .execute (.get [0x6B]) {
    operation := request
    events := []
    eventless := fun _ => rfl
    answer
    arrivals := some (64, [])
    failed := false
    pool := [] }

def found : Use :=
  lookup (.response noErrorStatus none (WireFormat.array.encode ⟨[0x76], by decide⟩) ⟨_, rfl⟩)

theorem connections_synchronised_found :
    (∃ last, run (use server) fresh [found, found] = some last) ∧
      SynchronisedThroughout server fresh [found, found] := by
  refine ⟨⟨_, rfl⟩, (connections_synchronised server ⟨rfl, rfl⟩ rfl).1 ?_⟩
  have settled : found.Settled :=
    ⟨rfl, trivial, by simp [Answer.Settled, topologyRaises, Command.Clean]⟩
  simp only [List.mem_cons, List.not_mem_nil, or_false, or_self, forall_eq]
  exact settled

def suspected : Use := lookup (.error true 0x87 none ⟨[0x6F], by decide⟩)

/-- The connection is put back with the message of the error unread. -/
theorem connection_unsynchronised :
    ¬ ∀ (t : Transport) (s : Connection) (uses : List Use), s.Synchronised →
      SynchronisedThroughout t s uses := by
  intro synchronised
  have read := synchronised server fresh [suspected] ⟨rfl, rfl⟩ 1 _ rfl
  exact absurd read.1 (by decide)

end Lives

end HotRod.Operations
