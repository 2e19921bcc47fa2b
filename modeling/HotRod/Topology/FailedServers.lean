import HotRod.Operations.Pairing
import HotRod.Semantics.Transition
import HotRod.Topology.TopologyInfo

/-! Where `execute` remembers the servers that failed: in a variable of the call, or,
in the specialization for `void`, in the factory, which clears it at a cluster switch
only.

The loop is the one of `turn`. Here it chooses its servers itself, and each server
answers as the history of the servers has it. -/

set_option autoImplicit false

namespace HotRod.Topology

open Semantics.Execution Semantics.Transition HotRod.Operations

variable {T C : Type} [LinearOrder C]

structure Memory (C : Type) where
  currCluster : C
  balancer : RoundRobinBalancingStrategy InetSocketAddress := {}
  failedServers : List InetSocketAddress := []

/-- An attempt with the server that was chosen, and the topologies that the answer brings. -/
structure Answer (T : Type) where
  script : Script T
  views : List (List InetSocketAddress) := []

/-- An operation and what it is going to meet. `answers n server` is the n-th attempt,
if it is made with that server. `ping` and `prepare` are about the cluster switches;
`prepared n` is whether the balancer gets the servers of the cluster before the n-th
switch raises, if it does, and `views n` what the answers to its pings bring. -/
structure Request (T : Type) where
  answers : Nat → InetSocketAddress → Answer T
  ping : Nat → InetSocketAddress → Option Exn := fun _ _ => none
  prepare : Nat → Option Exn := fun _ => none
  prepared : Nat → Bool := fun _ => true
  views : Nat → List (List InetSocketAddress) := fun _ => []

structure ClusterConfiguration (C : Type) [LinearOrder C] where
  maxRetries : Nat
  serversMap : SortedMap C (List InetSocketAddress)

def Request.surroundings (request : Request T) (config : ClusterConfiguration C) : Surroundings C where
  maxRetries := config.maxRetries
  serversMap := config.serversMap
  ping := request.ping
  prepare := request.prepare

/-- `execute` between two turns. `failedServers` is the variable of the generic loop; in
the other loop it only records what that variable would have. -/
structure Search (C T : Type) where
  memory : Memory C
  loop : Loop C T
  failedServers : List InetSocketAddress := []
  tried : List (Option InetSocketAddress) := []

def Search.start (memory : Memory C) : Search C T where
  memory
  loop := { currCluster := memory.currCluster }

-- The set that `getTransport` is given.
def Search.passed (op : Operation) (s : Search C T) : List InetSocketAddress :=
  if op = .void then s.memory.failedServers else s.failedServers

def noServer : Exn := .hotRodClient "Balancing: No more server available."

-- The attempt that is made: `nextServer` raises if all servers are passed over.
def Request.met (request : Request T) (n : Nat) : Option InetSocketAddress → Answer T
  | some server => request.answers n server
  | none => { script := { transport := .error noServer, outcome := .raised noServer false } }

def begun (loop : Loop C T) (script : Script T) : Attempt where
  failed := loop.failed
  answers := script.pool

def failing (op : Operation) (loop : Loop C T) (script : Script T) : List InetSocketAddress :=
  match raised (tryBlock op script (begun loop script)) with
  | some (.raised (.transport host port _)) => [.new host port]
  | _ => []

-- The cluster that the turn leads to, also if the switch raises.
def switchesTo (op : Operation) (env : Surroundings C) (loop : Loop C T) (script : Script T) :
    Option C :=
  match attempt op script (begun loop script) with
  | .ok (.error _) _ =>
    if (env.maxRetries : Int) - 1 ≤ loop.retryCount then
      match getNextWorkingServersConfiguration (env.ping loop.switches) loop.currCluster
          env.serversMap.entries with
      | .ok found => found
      | .error _ => none
    else none
  | _ => none

def Request.given (request : Request T) (config : ClusterConfiguration C) (n : Nat) (name : C) :
    List (List InetSocketAddress) :=
  (if request.prepared n then [(config.serversMap.get? name).getD []] else []) ++ request.views n

def note (op : Operation) (isa : List InetSocketAddress) (s : Search C T) : Search C T :=
  { s with
    failedServers := isa ++ s.failedServers
    memory := if op = .void then { s.memory with failedServers := isa ++ s.memory.failedServers }
      else s.memory }

def Search.next (op : Operation) (s : Search C T) :
    Option InetSocketAddress × RoundRobinBalancingStrategy InetSocketAddress :=
  s.memory.balancer.nextServer (s.passed op)

def Search.answer (op : Operation) (request : Request T) (s : Search C T) : Answer T :=
  request.met s.tried.length (s.next op).1

-- One turn of `execute`.
def search (op : Operation) (config : ClusterConfiguration C) (request : Request T)
    (s : Search C T) (_ : Unit) : Option (Search C T) :=
  let answer := s.answer op request
  (turn op (request.surroundings config) s.loop answer.script).map fun loop =>
    let noted := note op (failing op s.loop answer.script) s
    let memory := match switchesTo op (request.surroundings config) s.loop answer.script with
      | none => { noted.memory with balancer := answer.views.foldl (·.setServers ·) (s.next op).2 }
      | some name =>
        { currCluster := name
          balancer := (request.given config s.loop.switches name).foldl (·.setServers ·) {} }
    { noted with loop, memory, tried := s.tried ++ [(s.next op).1] }

/-- That many turns of `execute`. -/
def execute (op : Operation) (config : ClusterConfiguration C) (memory : Memory C)
    (request : Request T) (turns : Nat) : Option (Search C T) :=
  run (search op config request) (.start memory) (List.replicate turns ())

structure Call (T : Type) where
  op : Operation
  request : Request T
  turns : Nat

/-- An operation leaves its traces in the factory when it has ended. -/
def perform (config : ClusterConfiguration C) (memory : Memory C) (call : Call T) :
    Option (Memory C) :=
  (execute call.op config memory call.request call.turns).bind fun s =>
    if s.loop.ended.isSome then some s.memory else none

def Search.seen (s : Search C T) : List (Option InetSocketAddress) × Option (Ended T) :=
  (s.tried, s.loop.ended)

/-- Turn by turn the two loops try the same servers and end in the same way. -/
def Refines (config : ClusterConfiguration C) (memory : Memory C) (request : Request T) : Prop :=
  ∀ turns, (execute .void config memory request turns).map Search.seen =
    (execute .plain config memory request turns).map Search.seen

/-! ### When the two sets say the same -/

/-- A turn that brings up no server the two loops remember differently, and ends in no
exception that only the generic loop handles. -/
structure Steady (config : ClusterConfiguration C) (request : Request T) (s : Search C T) :
    Prop where
  handled : ∀ e, raised (tryBlock .void (s.answer .void request).script
    (begun s.loop (s.answer .void request).script)) = some (.raised e) → e.isCounterBound = false
  viewed : ∀ servers ∈ (s.answer .void request).views, ∀ a ∈ servers,
    (a ∈ s.memory.failedServers ↔ a ∈ s.failedServers)
  switched : ∀ name, switchesTo .void (request.surroundings config) s.loop
      (s.answer .void request).script = some name →
    ∀ servers ∈ request.given config s.loop.switches name, ∀ a ∈ servers,
      a ∉ failing .void s.loop (s.answer .void request).script ++ s.failedServers

/-- No server of the balancer failed in an earlier operation, and every turn is steady. -/
structure Remembered (config : ClusterConfiguration C) (memory : Memory C) (request : Request T) :
    Prop where
  fresh : ∀ a ∈ memory.balancer.servers, a ∉ memory.failedServers
  steady : ∀ turns, Guarded (search .void config request) (fun s _ => Steady config request s)
    (.start memory) (List.replicate turns ())

/-- The generic loop beside the one for `void`. -/
structure Alike (v g : Search C T) : Prop where
  currCluster : v.memory.currCluster = g.memory.currCluster
  balancer : v.memory.balancer = g.memory.balancer
  loop : v.loop = g.loop
  failedServers : v.failedServers = g.failedServers
  tried : v.tried = g.tried
  remembered : ∀ a ∈ v.memory.balancer.servers,
    (a ∈ v.memory.failedServers ↔ a ∈ v.failedServers)

/-! ### One attempt -/

theorem executeOperation_void (t : Transport) (outcome : Outcome T) :
    executeOperation .void t outcome = executeOperation .plain t outcome := by
  cases outcome <;> rfl

theorem tryBlock_void (script : Script T) : tryBlock .void script = tryBlock .plain script := by
  unfold tryBlock
  simp only [executeOperation_void]
  rfl

theorem handle_void {e : Exn} (handled : e.isCounterBound = false) (valid : Bool) :
    handle .void valid e = handle .plain valid e := by
  cases e <;> first | rfl | cases handled

theorem attempt_of_crash {op : Operation} {script : Script T} {s u : Attempt} {fault : Fault}
    (crash : ∀ e, fault ≠ .raised e) (block : tryBlock op script s = .error fault u) :
    attempt op script s = .error fault u := by
  have mapped : ((Except.ok : T → Except Exn T) <$> tryBlock op script) s = .error fault u := by
    rw [map_apply, block]
  rw [attempt, tryCatch_of_error mapped]
  cases fault with
  | raised e => exact absurd rfl (crash e)
  | nullDereference | outOfBounds | foreignDelete => rfl

theorem attempt_void {script : Script T} {s : Attempt}
    (handled : ∀ e, raised (tryBlock .void script s) = some (.raised e) → e.isCounterBound = false) :
    attempt .void script s = attempt .plain script s := by
  cases block : tryBlock .void script s with
  | ok r u => rw [attempt_of_returned block, attempt_of_returned (tryBlock_void script ▸ block)]
  | error fault u =>
    cases fault with
    | raised e =>
      rw [attempt_of_raised block, attempt_of_raised (tryBlock_void script ▸ block),
        handle_void (handled e (by rw [block]; rfl))]
    | nullDereference | outOfBounds | foreignDelete =>
      rw [attempt_of_crash (by simp) block, attempt_of_crash (by simp) (tryBlock_void script ▸ block)]

variable {config : ClusterConfiguration C} {request : Request T} {v g : Search C T}

theorem turn_void (env : Surroundings C) {loop : Loop C T} {script : Script T}
    (handled : ∀ e, raised (tryBlock .void script (begun loop script)) = some (.raised e) →
      e.isCounterBound = false) : turn .void env loop script = turn .plain env loop script := by
  have same := attempt_void handled
  simp only [begun] at same
  unfold turn record
  simp only [same, tryBlock_void]

theorem switchesTo_void (env : Surroundings C) {loop : Loop C T} {script : Script T}
    (handled : ∀ e, raised (tryBlock .void script (begun loop script)) = some (.raised e) →
      e.isCounterBound = false) :
    switchesTo .void env loop script = switchesTo .plain env loop script := by
  unfold switchesTo
  rw [attempt_void handled]

omit [LinearOrder C] in
theorem failing_void (loop : Loop C T) (script : Script T) :
    failing .void loop script = failing .plain loop script := by
  unfold failing
  rw [tryBlock_void]

theorem mem_setServers {views : List (List InetSocketAddress)}
    {balancer : RoundRobinBalancingStrategy InetSocketAddress} {a : InetSocketAddress}
    (member : a ∈ (views.foldl (·.setServers ·) balancer).servers) :
    a ∈ balancer.servers ∨ ∃ servers ∈ views, a ∈ servers := by
  induction views generalizing balancer with
  | nil => exact .inl member
  | cons servers rest ih =>
    obtain here | ⟨others, listed, there⟩ := ih member
    · exact .inr ⟨servers, List.mem_cons_self, here⟩
    · exact .inr ⟨others, List.mem_cons_of_mem _ listed, there⟩

omit [LinearOrder C] in
theorem Alike.next (alike : Alike v g) : v.next .void = g.next .plain := by
  unfold Search.next Search.passed
  rw [if_pos rfl, if_neg (by decide), ← alike.balancer, ← alike.failedServers]
  exact RoundRobinBalancingStrategy.nextFrom_congr _ alike.remembered

theorem search_alike (alike : Alike v g) (steady : Steady config request v) (u : Unit) :
    Option.Rel Alike (search .void config request v u) (search .plain config request g u) := by
  have answer : v.answer .void request = g.answer .plain request := by
    unfold Search.answer
    rw [alike.next, alike.tried]
  have turns := turn_void (request.surroundings config) steady.handled
  have switches := switchesTo_void (request.surroundings config) steady.handled
  simp only [search]
  rw [← answer, ← alike.loop, ← alike.next, ← turns, ← switches, ← failing_void]
  cases turn .void (request.surroundings config) v.loop (v.answer .void request).script with
  | none => exact .none
  | some loop =>
    refine .some ?_
    have tried := congrArg (· ++ [(v.next .void).1]) alike.tried
    have failedServers := congrArg
      (failing .void v.loop (v.answer .void request).script ++ ·) alike.failedServers
    cases switched : switchesTo .void (request.surroundings config) v.loop
        (v.answer .void request).script with
    | none =>
      refine ⟨alike.currCluster, rfl, rfl, failedServers, tried, fun a member => ?_⟩
      have known : a ∈ v.memory.failedServers ↔ a ∈ v.failedServers := by
        obtain old | ⟨servers, listed, there⟩ := mem_setServers member
        · rw [Search.next, RoundRobinBalancingStrategy.nextServer,
            RoundRobinBalancingStrategy.nextFrom_servers] at old
          exact alike.remembered a old
        · exact steady.viewed servers listed a there
      simp only [note, if_true, List.mem_append, known]
    | some name =>
      refine ⟨rfl, rfl, rfl, failedServers, tried, fun a member => ?_⟩
      -- the switch has cleared the set of the factory
      refine iff_of_false List.not_mem_nil ?_
      obtain old | ⟨servers, listed, there⟩ := mem_setServers member
      · cases old
      · exact steady.switched name switched servers listed a there

-- The two loops side by side, from a balancer whose servers have not failed before.
theorem execute_alike {memory : Memory C} (remembered : Remembered config memory request)
    (turns : Nat) :
    Option.Rel Alike (execute .void config memory request turns)
      (execute .plain config memory request turns) := by
  have start : Alike (.start memory : Search C T) (.start memory) := by
    refine ⟨rfl, rfl, rfl, rfl, rfl, fun a member => ?_⟩
    exact iff_of_false (remembered.fresh a member) List.not_mem_nil
  exact run_simulation Alike start (fun _ _ u alike steady => search_alike alike steady u)
    (remembered.steady turns)

theorem refines_of_remembered {memory : Memory C} (remembered : Remembered config memory request) :
    Refines config memory request := by
  intro turns
  refine map_eq_of_rel (execute_alike remembered turns) fun v g alike => ?_
  simp only [Search.seen, alike.tried, alike.loop]

/-! ### Histories -/

/-- In every history of operations on one factory, each operation run through the loop
for `void` tries the same servers and ends in the same way as in the generic loop, if
the operations of the history that are run so find the failed servers of their own call
only. -/
theorem void_refines_generic (config : ClusterConfiguration C) (memory : Memory C)
    (calls : List (Call T))
    (guarded : Guarded (perform config)
      (fun memory call => call.op = .void → Remembered config memory call.request) memory calls) :
    Guarded (perform config)
      (fun memory call => call.op = .void → Refines config memory call.request) memory calls :=
  guarded.imp_of_invariant (fun _ => True) trivial (fun _ _ _ _ _ _ => trivial)
    fun _ _ _ remembered void => refines_of_remembered (remembered void)

def node1 : InetSocketAddress := ⟨"node1", 11222⟩

def node2 : InetSocketAddress := ⟨"node2", 11222⟩

def history (down : List InetSocketAddress) : Request Nat where
  answers n server := { script := {
    transport := if server ∈ down then .error (.transport server.hostname server.port.toNat "refused")
      else .ok ⟨n, server⟩
    outcome := .returned 1 true } }

def oneCluster : ClusterConfiguration Nat where
  maxRetries := 1
  serversMap := SortedMap.empty

def oneServer : Memory Nat where
  currCluster := 0
  balancer := { servers := [node1] }

/-- The server fails once. When it is back, the generic loop gets its result, and the
other one does not try it. -/
theorem recovered_server_not_tried :
    ∃ memory, perform oneCluster oneServer ⟨.void, history [node1], 1⟩ = some memory ∧
      (execute .void oneCluster memory (history []) 1).map Search.seen =
        some ([none], some (.raised (.raised noServer))) ∧
      (execute .plain oneCluster memory (history []) 1).map Search.seen =
        some ([some node1], some (.returned 1)) ∧
      ¬ Refines oneCluster memory (history []) := by
  have recovered : (execute .plain oneCluster { oneServer with failedServers := [node1] }
      (history []) 1).map Search.seen = some ([some node1], some (.returned 1)) := rfl
  have passedOver : (execute .void oneCluster { oneServer with failedServers := [node1] }
      (history []) 1).map Search.seen = some ([none], some (.raised (.raised noServer))) := rfl
  refine ⟨_, rfl, passedOver, recovered, fun refines => ?_⟩
  cases passedOver.symm.trans ((refines 1).trans recovered)

theorem steady_history (down : List InetSocketAddress) (maxRetries : Nat) (s : Search Nat Nat) :
    Steady ⟨maxRetries, SortedMap.empty⟩ (history down) s where
  handled := by
    unfold Search.answer
    cases (s.next .void).1 with
    | none =>
      rintro e raise
      cases raise
      rfl
    | some server =>
      simp only [Request.met, history]
      split
      · rintro e raise
        cases raise
        rfl
      · rintro e raise
        cases raise
  viewed := by
    unfold Search.answer
    cases (s.next .void).1 <;> exact fun servers listed => by cases listed
  switched := by
    intro name switched
    simp only [switchesTo] at switched
    split at switched
    · split at switched <;> cases switched
    · cases switched

theorem void_refines_generic_failover :
    Refines ⟨3, SortedMap.empty⟩ { currCluster := 0, balancer := { servers := [node1, node2] } }
      (history [node2]) := by
  have remembered : Remembered (⟨3, SortedMap.empty⟩ : ClusterConfiguration Nat)
      { currCluster := 0, balancer := { servers := [node1, node2] } } (history [node2]) := by
    refine ⟨fun a _ => List.not_mem_nil, fun turns => ?_⟩
    exact (guarded_true _ _).imp_of_invariant (fun _ => True) trivial (fun _ _ _ _ _ _ => trivial)
      fun s _ _ _ => steady_history [node2] 3 s
  have guarded := void_refines_generic ⟨3, SortedMap.empty⟩
    { currCluster := 0, balancer := { servers := [node1, node2] } }
    [⟨.void, history [node2], 2⟩] ⟨fun _ => remembered, fun _ _ => trivial⟩
  exact guarded.1 rfl

end HotRod.Topology
