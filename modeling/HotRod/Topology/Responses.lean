import HotRod.Topology.NewTopology

/-! Topology blocks in the responses to the requests of several threads, and cluster
switches among them.

`readNewTopologyAndHash` holds the factory's lock only inside the two calls that change
something, so anything may happen between its steps, on this connection or another. -/

set_option autoImplicit false

namespace HotRod.Topology

open Semantics.Execution Semantics.Transition HotRod.Transport HotRod.Protocol

/-- What a request leaves in its `HeaderParams`; `topology` is the number of the object that
it refers to. `switches` is a record of the switches before it. -/
structure Inquiry (N : Type) where
  topology : Nat
  cacheName : N
  topologyAge : Int
  switches : Nat

inductive Handling where
  | sent
  | named (newTopologyId : Int)
  | parsed (newTopologyId : Int) (block : Block)
  | lookedUp (newTopologyId : Int) (block : Block) (currentTopology : Int)
  | updating (newTopologyId : Int) (block : Block)
  | listed (block : Block)
  | hashing (topologyId : Int) (block : Block)

/-- The check was passed, and something is still to be installed. -/
def Handling.Installing : Handling → Prop
  | updating _ _ | listed _ | hashing _ _ => True
  | _ => False

/-- `topologyIds` are the objects that the requests refer to. `received` is a record of the
ids that were read. -/
structure Responses (N K : Type) [LinearOrder N] [LinearOrder K] where
  factory : TransportFactory N K := {}
  topologyIds : SortedMap Nat Int := SortedMap.empty
  threads : SortedMap Thread (Inquiry N × Handling) := SortedMap.empty
  switches : Nat := 0
  received : List (N × Int) := []

/-- A step of one thread, or a switch. `leave` ends a response without a block, or one
whose block cannot be read to its end. -/
inductive Progress (N K : Type) where
  | send (thread : Thread) (topology : Nat) (cacheName : N)
  | readId (thread : Thread) (newTopologyId : Int)
  | readBlock (thread : Thread) (block : Block)
  | leave (thread : Thread)
  | lookUp (thread : Thread)
  | compare (thread : Thread)
  | updateServers (thread : Thread) (makes : List (Option Exn))
  | readSent (thread : Thread)
  | updateHashFunction (thread : Thread)
  | switch (servers : List K) (makes : List (Option Exn))

variable {N K : Type} [LinearOrder N] [LinearOrder K] (config : Configuration)
  (address : Address → K)

-- A cluster switch up to its pings, which are requests like others.
def switchServers (servers : List K) (makes : List (Option Exn)) : FactoryM N K PUnit := do
  modify fun s => { s with
    topologyAge := 0
    initialServers := servers
    failedServers := []
    balancer := {} }
  createAndPreparePool config makes
  modify fun s => { s with balancer := s.balancer.setServers s.initialServers }

theorem switchTo_eq (servers : List K) (makes : List (Option Exn)) (pings : List (Ping K)) :
    (switchTo config servers makes pings : FactoryM N K Bool) = (do
      switchServers config servers makes
      pingServers config (← get).initialServers pings) := by
  unfold switchTo switchServers
  simp only [bind_assoc]

namespace Responses

def sent (s : Responses N K) (topology : Nat) : Int := getId s.topologyIds topology

def goOn (s : Responses N K) (thread : Thread) (request : Inquiry N) (handling : Handling) :
    Responses N K :=
  { s with threads := s.threads.insert thread (request, handling) }

def done (s : Responses N K) (thread : Thread) : Responses N K :=
  { s with threads := s.threads.erase thread }

def name (s : Responses N K) (request : Inquiry N) (newTopologyId : Int) : Responses N K :=
  { s with
    topologyIds := s.topologyIds.insert request.topology newTopologyId
    received := s.received ++ [(request.cacheName, newTopologyId)] }

-- `tf.updateServers(addresses)`; what it raises ends the response.
def updates (s : Responses N K) (thread : Thread) (request : Inquiry N) (block : Block)
    (makes : List (Option Exn)) : Responses N K :=
  match Topology.updateServers config makes (block.addresses.map address) s.factory with
  | .ok _ factory => { s with factory }.goOn thread request (.listed block)
  | .error _ factory => { s with factory }.done thread

-- `tf.updateHashFunction(...)`.
def rehashes (s : Responses N K) (thread : Thread) (cacheName : N) (topologyId : Int)
    (block : Block) : Responses N K :=
  let topologyInfo := s.factory.topologyInfo.updateTopology
    (block.segmentOwners.map (List.map (Option.map address))) block.numSegments
    block.hashFunctionVersion cacheName topologyId
  { s with factory := { s.factory with topologyInfo } }.done thread

end Responses

open Responses

def proceed (s : Responses N K) : Progress N K → Option (Responses N K)
  | .send thread topology cacheName =>
    if thread ∈ s.threads then none
    else
      some (s.goOn thread { topology, cacheName, topologyAge := 0, switches := s.switches } .sent)
  | .readId thread newTopologyId =>
    match s.threads.get? thread with
    | some (request, .sent) =>
      some ((s.name request newTopologyId).goOn thread request (.named newTopologyId))
    | _ => none
  | .readBlock thread block =>
    match s.threads.get? thread with
    | some (request, .named newTopologyId) =>
      some (s.goOn thread request (.parsed newTopologyId block))
    | _ => none
  | .leave thread =>
    match s.threads.get? thread with
    | some (_, .sent) | some (_, .named _) => some (s.done thread)
    | _ => none
  | .lookUp thread =>
    match s.threads.get? thread with
    | some (request, .parsed newTopologyId block) =>
      let (currentTopology, topologyInfo) :=
        s.factory.topologyInfo.getTopologyId request.cacheName
      some ({ s with factory := { s.factory with topologyInfo } }.goOn thread request
        (.lookedUp newTopologyId block currentTopology))
    | _ => none
  | .compare thread =>
    match s.threads.get? thread with
    | some (request, .lookedUp newTopologyId block currentTopology) =>
      if request.topologyAge = s.factory.topologyAge ∧ currentTopology ≠ newTopologyId then
        -- the reference is assigned a second time
        some ({ s with topologyIds := s.topologyIds.insert request.topology newTopologyId }.goOn
          thread request (.updating newTopologyId block))
      else some (s.done thread)
    | _ => none
  | .updateServers thread makes =>
    match s.threads.get? thread with
    | some (request, .updating _ block) => some (s.updates config address thread request block makes)
    | _ => none
  | .readSent thread =>
    match s.threads.get? thread with
    | some (request, .listed block) =>
      some (s.goOn thread request (.hashing (s.sent request.topology) block))
    | _ => none
  | .updateHashFunction thread =>
    match s.threads.get? thread with
    | some (request, .hashing topologyId block) =>
      some (s.rehashes address thread request.cacheName topologyId block)
    | _ => none
  | .switch servers makes => some { s with
      factory := final (switchServers config servers makes s.factory)
      switches := s.switches + 1 }

def Progress.thread? : Progress N K → Option Thread
  | .send thread _ _ | .readId thread _ | .readBlock thread _ | .leave thread | .lookUp thread
  | .compare thread | .updateServers thread _ | .readSent thread | .updateHashFunction thread =>
    some thread
  | .switch _ _ => none

variable {s t : Responses N K}

inductive Moves (s : Responses N K) (thread : Thread) (request : Inquiry N) :
    Progress N K → Handling → Responses N K → Prop where
  | readId (newTopologyId : Int) : Moves s thread request (.readId thread newTopologyId) .sent
      ((s.name request newTopologyId).goOn thread request (.named newTopologyId))
  | readBlock (newTopologyId : Int) (block : Block) : Moves s thread request
      (.readBlock thread block) (.named newTopologyId)
      (s.goOn thread request (.parsed newTopologyId block))
  | leaveSent : Moves s thread request (.leave thread) .sent (s.done thread)
  | leaveNamed (newTopologyId : Int) : Moves s thread request (.leave thread)
      (.named newTopologyId) (s.done thread)
  | lookUp (newTopologyId : Int) (block : Block) : Moves s thread request (.lookUp thread)
      (.parsed newTopologyId block)
      ({ s with factory := { s.factory with
          topologyInfo := (s.factory.topologyInfo.getTopologyId request.cacheName).2 } }.goOn thread
        request (.lookedUp newTopologyId block
          (s.factory.topologyInfo.getTopologyId request.cacheName).1))
  | passes (newTopologyId : Int) (block : Block) (currentTopology : Int)
      (same : request.topologyAge = s.factory.topologyAge)
      (other : currentTopology ≠ newTopologyId) : Moves s thread request (.compare thread)
      (.lookedUp newTopologyId block currentTopology)
      ({ s with topologyIds := s.topologyIds.insert request.topology newTopologyId }.goOn thread
        request (.updating newTopologyId block))
  | ignores (newTopologyId : Int) (block : Block) (currentTopology : Int)
      (fails : ¬ (request.topologyAge = s.factory.topologyAge ∧ currentTopology ≠ newTopologyId)) :
      Moves s thread request (.compare thread) (.lookedUp newTopologyId block currentTopology)
      (s.done thread)
  | updates (newTopologyId : Int) (block : Block) (makes : List (Option Exn))
      (factory : TransportFactory N K) (returned : Topology.updateServers config makes
        (block.addresses.map address) s.factory = .ok () factory) :
      Moves s thread request (.updateServers thread makes) (.updating newTopologyId block)
      ({ s with factory }.goOn thread request (.listed block))
  | raises (newTopologyId : Int) (block : Block) (makes : List (Option Exn)) (e : Fault)
      (factory : TransportFactory N K) (raise : Topology.updateServers config makes
        (block.addresses.map address) s.factory = .error e factory) :
      Moves s thread request (.updateServers thread makes) (.updating newTopologyId block)
      ({ s with factory }.done thread)
  | readSent (block : Block) : Moves s thread request (.readSent thread) (.listed block)
      (s.goOn thread request (.hashing (s.sent request.topology) block))
  | rehashes (topologyId : Int) (block : Block) : Moves s thread request
      (.updateHashFunction thread) (.hashing topologyId block)
      (s.rehashes address thread request.cacheName topologyId block)

theorem moves_of_proceed {progress : Progress N K} {thread : Thread}
    (mine : progress.thread? = some thread) (taken : proceed config address s progress = some t) :
    (∃ topology cacheName, progress = .send thread topology cacheName ∧ thread ∉ s.threads ∧
      t = s.goOn thread { topology, cacheName, topologyAge := 0, switches := s.switches } .sent) ∨
    ∃ request handling, s.threads.get? thread = some (request, handling) ∧
      Moves config address s thread request progress handling t := by
  cases progress with
  | send other topology cacheName =>
    cases mine
    simp only [proceed] at taken
    split at taken
    · cases taken
    · rename_i absent
      cases taken
      exact .inl ⟨topology, cacheName, rfl, absent, rfl⟩
  | readId other newTopologyId =>
    cases mine
    simp only [proceed] at taken
    split at taken
    · rename_i request found
      cases taken
      exact .inr ⟨request, _, found, .readId newTopologyId⟩
    · cases taken
  | readBlock other block =>
    cases mine
    simp only [proceed] at taken
    split at taken
    · rename_i request newTopologyId found
      cases taken
      exact .inr ⟨request, _, found, .readBlock newTopologyId block⟩
    · cases taken
  | leave other =>
    cases mine
    simp only [proceed] at taken
    split at taken
    · rename_i request found
      cases taken
      exact .inr ⟨request, _, found, .leaveSent⟩
    · rename_i request newTopologyId found
      cases taken
      exact .inr ⟨request, _, found, .leaveNamed newTopologyId⟩
    · cases taken
  | lookUp other =>
    cases mine
    simp only [proceed] at taken
    split at taken
    · rename_i request newTopologyId block found
      cases taken
      exact .inr ⟨request, _, found, .lookUp newTopologyId block⟩
    · cases taken
  | compare other =>
    cases mine
    simp only [proceed] at taken
    split at taken
    · rename_i request newTopologyId block currentTopology found
      split at taken
      · rename_i passes
        cases taken
        exact .inr ⟨request, _, found, .passes newTopologyId block _ passes.1 passes.2⟩
      · rename_i fails
        cases taken
        exact .inr ⟨request, _, found, .ignores newTopologyId block _ fails⟩
    · cases taken
  | updateServers other makes =>
    cases mine
    simp only [proceed] at taken
    split at taken
    · rename_i request newTopologyId block found
      cases taken
      refine .inr ⟨request, _, found, ?_⟩
      unfold Responses.updates
      split
      · rename_i factory returned
        exact .updates newTopologyId block makes factory returned
      · rename_i e factory raise
        exact .raises newTopologyId block makes e factory raise
    · cases taken
  | readSent other =>
    cases mine
    simp only [proceed] at taken
    split at taken
    · rename_i request block found
      cases taken
      exact .inr ⟨request, _, found, .readSent block⟩
    · cases taken
  | updateHashFunction other =>
    cases mine
    simp only [proceed] at taken
    split at taken
    · rename_i request topologyId block found
      cases taken
      exact .inr ⟨request, _, found, .rehashes topologyId block⟩
    · cases taken
  | switch servers makes => cases mine

/-! ### A thread that is not interrupted -/

/-- The steps of one response whose block is or is not installed. -/
def uninterrupted (thread : Thread) (newTopologyId : Int) (block : Block) (installs : Bool)
    (makes : List (Option Exn)) : List (Progress N K) :=
  [.readId thread newTopologyId, .readBlock thread block, .lookUp thread, .compare thread] ++
    if installs then [.updateServers thread makes, .readSent thread, .updateHashFunction thread]
    else []

/-- The state in which the block is read and the installed id is known. -/
def Responses.informed (s : Responses N K) (thread : Thread) (request : Inquiry N)
    (newTopologyId : Int) (block : Block) : Responses N K :=
  let asked := s.factory.topologyInfo.getTopologyId request.cacheName
  { s.name request newTopologyId with
    factory := { s.factory with topologyInfo := asked.2 }
    threads := s.threads.insert thread (request, .lookedUp newTopologyId block asked.1) }

theorem run_informed {thread : Thread} {request : Inquiry N} (newTopologyId : Int) (block : Block)
    (rest : List (Progress N K)) (sent : s.threads.get? thread = some (request, .sent)) :
    run (proceed config address) s
        (.readId thread newTopologyId :: .readBlock thread block :: .lookUp thread :: rest) =
      run (proceed config address) (s.informed thread request newTopologyId block) rest := by
  simp [run, proceed, sent, goOn, name, informed]

theorem run_installing {thread : Thread} {request : Inquiry N} {newTopologyId : Int}
    {block : Block} (makes : List (Option Exn)) {factory : TransportFactory N K}
    (updating : s.threads.get? thread = some (request, .updating newTopologyId block))
    (named : s.sent request.topology = newTopologyId)
    (installed : install config makes address request.cacheName newTopologyId block s.factory =
      .ok () factory) :
    ∃ t, run (proceed config address) s
        [.updateServers thread makes, .readSent thread, .updateHashFunction thread] = some t ∧
      t.factory = factory ∧ t.sent request.topology = newTopologyId := by
  rw [install, bind_apply] at installed
  cases first : Topology.updateServers config makes (block.addresses.map address) s.factory with
  | error e u =>
    rw [first] at installed
    cases installed
  | ok _ u =>
    rw [first] at installed
    cases installed
    refine ⟨({ s with factory := u }.goOn thread request (.hashing newTopologyId block)).rehashes
      address thread request.cacheName newTopologyId block, ?_, rfl, named⟩
    have sends : ({ s with factory := u }.goOn thread request (.listed block)).sent
        request.topology = newTopologyId := named
    simp only [run, proceed, updating, updates, first, Option.bind_some, goOn,
      SortedMap.get?_insert_self, SortedMap.insert_insert] at sends ⊢
    rw [sends]

-- Without other threads the steps of a response do what `readNewTopologyAndHash` does with the
-- factory and the id.
theorem proceed_of_readNewTopologyAndHash {thread : Thread} {request : Inquiry N}
    {makes : List (Option Exn)} {transport later after : Connection} {newTopologyId : Int}
    {block : Block} {u : Client N K}
    (sent : s.threads.get? thread = some (request, .sent))
    (id : readTopologyId transport = .ok newTopologyId later)
    (rest : readBlock later = .ok block after)
    (returned : readNewTopologyAndHash config makes address request.topology request.cacheName
      request.topologyAge { transport, topologyIds := s.topologyIds, factory := s.factory } =
      .ok () u) :
    ∃ installs t, run (proceed config address) s
        (uninterrupted thread newTopologyId block installs makes) = some t ∧
      t.factory = u.factory ∧ t.sent request.topology = getId u.topologyIds request.topology := by
  have asked : onFactory (getTopologyId request.cacheName)
      { transport := after, topologyIds := s.topologyIds.insert request.topology newTopologyId
        factory := s.factory } =
      .ok (s.factory.topologyInfo.getTopologyId request.cacheName).1
        { transport := after, topologyIds := s.topologyIds.insert request.topology newTopologyId
          factory := (s.informed thread request newTopologyId block).factory } := rfl
  rw [readNewTopologyAndHash, bind_of_ok (onTransport_of_ok id), bind_of_ok (modify_apply _ _),
    bind_of_ok (onTransport_of_ok rest), bind_of_ok asked, bind_of_ok (get_apply _)] at returned
  have informs (following : List (Progress N K)) :=
    run_informed config address newTopologyId block following sent
  have waits : (s.informed thread request newTopologyId block).threads.get? thread =
      some (request, .lookedUp newTopologyId block
        (s.factory.topologyInfo.getTopologyId request.cacheName).1) :=
    SortedMap.get?_insert_self _ _ _
  have named : (s.informed thread request newTopologyId block).sent request.topology =
      newTopologyId := by simp [Responses.informed, Responses.sent, name, getId_insert]
  have assigned : getId (s.topologyIds.insert request.topology newTopologyId) request.topology =
      newTopologyId := by rw [getId_insert, if_pos rfl]
  by_cases passes : request.topologyAge =
      (s.informed thread request newTopologyId block).factory.topologyAge ∧
    (s.factory.topologyInfo.getTopologyId request.cacheName).1 ≠ newTopologyId
  · rw [if_pos passes, onFactory] at returned
    have compared : proceed config address (s.informed thread request newTopologyId block)
        (.compare thread) = some ({ s.informed thread request newTopologyId block with
          topologyIds := (s.informed thread request newTopologyId block).topologyIds.insert
            request.topology newTopologyId }.goOn thread request
              (.updating newTopologyId block)) := by
      simp only [proceed, waits, if_pos passes]
    cases result : install config makes address request.cacheName newTopologyId block
        (s.informed thread request newTopologyId block).factory with
    | error e factory =>
      rw [result] at returned
      cases returned
    | ok _ factory =>
      rw [result] at returned
      cases returned
      obtain ⟨t, installs, same, sends⟩ := run_installing config address makes
        (s := { s.informed thread request newTopologyId block with
          topologyIds := (s.informed thread request newTopologyId block).topologyIds.insert
            request.topology newTopologyId }.goOn thread request (.updating newTopologyId block))
        (SortedMap.get?_insert_self _ _ _) (by simp [Responses.sent, goOn, getId_insert]) result
      refine ⟨true, t, (informs _).trans ?_, same, sends.trans assigned.symm⟩
      exact run_cons_eq_some.mpr ⟨_, compared, installs⟩
  · rw [if_neg passes] at returned
    cases returned
    refine ⟨false, (s.informed thread request newTopologyId block).done thread,
      (informs _).trans ?_, rfl, named.trans assigned.symm⟩
    have compared : proceed config address (s.informed thread request newTopologyId block)
        (.compare thread) = some ((s.informed thread request newTopologyId block).done thread) := by
      simp only [proceed, waits, if_neg passes]
    exact run_cons_eq_some.mpr ⟨_, compared, rfl⟩

/-! ### Switches -/

/-- What a topology is in the factory: the server lists, the keys of the pool and the
segment owners. -/
structure SameTopology (s t : TransportFactory N K) : Prop where
  balanced : t.balancer.servers = s.balancer.servers
  listed : t.initialServers = s.initialServers
  keys : t.connectionPool.idle.keys = s.connectionPool.idle.keys
  owners : t.topologyInfo.consistentHashByCacheName = s.topologyInfo.consistentHashByCacheName

/-- A step with the response to a request from before the last switch. -/
def Late (s : Responses N K) (progress : Progress N K) : Prop :=
  ∃ thread request handling, progress.thread? = some thread ∧
    s.threads.get? thread = some (request, handling) ∧ request.switches < s.switches

/-- A late block has the id that was looked up for its cache, and no switch comes
between the check of a block and the installation. -/
def Fenced (s : Responses N K) : Progress N K → Prop
  | .compare thread => ∀ request newTopologyId block currentTopology,
      s.threads.get? thread = some (request, .lookedUp newTopologyId block currentTopology) →
      request.switches < s.switches → currentTopology = newTopologyId
  | .switch _ _ => ∀ thread request handling, s.threads.get? thread = some (request, handling) →
      ¬ handling.Installing
  | _ => True

/-- What is being installed was asked for after the last switch. -/
def Settled (s : Responses N K) : Prop :=
  ∀ thread request handling, s.threads.get? thread = some (request, handling) →
    handling.Installing → s.switches ≤ request.switches

theorem Settled.frame (settled : Settled s) (threads : t.threads = s.threads)
    (switches : t.switches = s.switches) : Settled t := by
  intro thread request handling found
  rw [threads] at found
  exact switches ▸ settled thread request handling found

theorem Settled.goOn (settled : Settled s) {thread : Thread} {request : Inquiry N}
    {handling : Handling} (recent : handling.Installing → s.switches ≤ request.switches) :
    Settled (s.goOn thread request handling) := by
  intro other request' handling' found
  simp only [Responses.goOn, SortedMap.get?_insert] at found
  split at found
  · cases found
    exact recent
  · exact settled other request' handling' found

theorem Settled.done (settled : Settled s) (thread : Thread) : Settled (s.done thread) := by
  intro other request handling found
  simp only [Responses.done, SortedMap.get?_erase] at found
  split at found
  · cases found
  · exact settled other request handling found

theorem Settled.proceed (settled : Settled s) {progress : Progress N K}
    (fenced : Fenced s progress) (taken : proceed config address s progress = some t) :
    Settled t := by
  cases mine : progress.thread? with
  | none =>
    cases progress with
    | switch servers makes =>
      cases taken
      exact fun thread request handling found installing =>
        absurd installing (fenced thread request handling found)
    | _ => cases mine
  | some thread =>
    rcases moves_of_proceed config address mine taken with
      ⟨topology, cacheName, rfl, absent, rfl⟩ | ⟨request, handling, found, moves⟩
    · exact settled.goOn False.elim
    · have recent := settled thread request handling found
      cases moves with
      | readId newTopologyId => exact (settled.frame rfl rfl).goOn False.elim
      | readBlock newTopologyId block => exact settled.goOn False.elim
      | leaveSent => exact settled.done thread
      | leaveNamed newTopologyId => exact settled.done thread
      | lookUp newTopologyId block => exact (settled.frame rfl rfl).goOn False.elim
      | passes newTopologyId block currentTopology same other =>
        refine (settled.frame rfl rfl).goOn fun _ => ?_
        -- a late block would have had the id that was looked up
        by_contra late
        exact other (fenced request newTopologyId block currentTopology found (not_le.mp late))
      | ignores newTopologyId block currentTopology fails => exact settled.done thread
      | updates newTopologyId block makes factory returned =>
        exact (settled.frame rfl rfl).goOn fun _ => recent trivial
      | raises newTopologyId block makes e factory raise =>
        exact (settled.frame rfl rfl).done thread
      | readSent block => exact settled.goOn fun _ => recent trivial
      | rehashes topologyId block => exact (settled.frame rfl rfl).done thread

theorem kept_of_moves {thread : Thread} {request : Inquiry N} {handling : Handling}
    {progress : Progress N K} (moves : Moves config address s thread request progress handling t)
    (waiting : ¬ handling.Installing) : SameTopology s.factory t.factory := by
  cases moves with
  | updates newTopologyId block makes factory returned => exact absurd trivial waiting
  | raises newTopologyId block makes e factory raise => exact absurd trivial waiting
  | readSent block => exact absurd trivial waiting
  | rehashes topologyId block => exact absurd trivial waiting
  | _ => exact ⟨rfl, rfl, rfl, rfl⟩

/-- In every order of requests, steps of responses and switches that meets the condition,
a response to a request from before the last switch changes nothing in the topology. -/
theorem late_responses_fenced (factory : TransportFactory N K) (topologyIds : SortedMap Nat Int)
    (before : List (Progress N K)) (progress : Progress N K)
    (guarded : Guarded (proceed config address) Fenced { factory, topologyIds } before)
    (reached : run (proceed config address) { factory, topologyIds } before = some s)
    (taken : proceed config address s progress = some t) (late : Late s progress) :
    SameTopology s.factory t.factory := by
  have settled : Settled s := by
    refine run_invariant Settled (fun thread request handling found => ?_)
      (fun s progress t settled fenced taken => settled.proceed config address fenced taken)
      guarded reached
    cases found
  obtain ⟨thread, request, handling, mine, found, old⟩ := late
  rcases moves_of_proceed config address mine taken with
    ⟨topology, cacheName, rfl, absent, rfl⟩ | ⟨request', handling', found', moves⟩
  · exact ⟨rfl, rfl, rfl, rfl⟩
  · cases found.symm.trans found'
    exact kept_of_moves config address moves fun installing =>
      absurd (settled thread request handling found installing) (not_le.mpr old)

/-! ### Ages -/

theorem onPool_poolSet {A : Type} (call : PoolM K A) (s : TransportFactory N K) :
    Meets (onPool call s) (fun _ t => ∃ pool, t = poolSet s pool)
      (fun _ t => ∃ pool, t = poolSet s pool) := by
  unfold onPool
  cases call s.connectionPool <;> exact ⟨_, rfl⟩

theorem onPool_bind_poolSet {A B : Type} (call : PoolM K A) {next : A → FactoryM N K B}
    (rest : ∀ a s, Meets (next a s) (fun _ t => ∃ pool, t = poolSet s pool)
      (fun _ t => ∃ pool, t = poolSet s pool))
    (s : TransportFactory N K) :
    Meets ((onPool call >>= next) s) (fun _ t => ∃ pool, t = poolSet s pool)
      (fun _ t => ∃ pool, t = poolSet s pool) := by
  refine (onPool_poolSet call s).bind ?_
  rintro a t ⟨pool, rfl⟩
  refine (rest a (poolSet s pool)).mono (fun _ t => ?_) fun _ t => ?_
  all_goals
    rintro ⟨pool', rfl⟩
    exact ⟨pool', rfl⟩

theorem addServers_poolSet (added : List K) (s : TransportFactory N K) :
    Meets (addServers config added s) (fun _ t => ∃ pool, t = poolSet s pool)
      (fun _ t => ∃ pool, t = poolSet s pool) := by
  induction added generalizing s with
  | nil => exact ⟨s.connectionPool, rfl⟩
  | cons server rest ih => exact onPool_bind_poolSet (addObject config server) (fun _ => ih) s

theorem removeServers_poolSet (failed : List K) (s : TransportFactory N K) :
    Meets (removeServers failed s) (fun _ t => ∃ pool, t = poolSet s pool)
      (fun _ t => ∃ pool, t = poolSet s pool) := by
  induction failed generalizing s with
  | nil => exact ⟨s.connectionPool, rfl⟩
  | cons server rest ih => exact onPool_bind_poolSet (clear server) (fun _ => ih) s

def SameInfo (s t : TransportFactory N K) : Prop :=
  t.topologyInfo = s.topologyInfo ∧ t.topologyAge = s.topologyAge

theorem installServers_sets (newServers : List K) (s : TransportFactory N K) :
    Meets (installServers config newServers (sort s.initialServers) s)
      (fun _ t => SameInfo s t ∧ t.initialServers = newServers ∧
        (t.balancer.servers = newServers ∨
          t.balancer = s.balancer ∧ t.initialServers = s.initialServers))
      (fun _ t => SameInfo s t) := by
  simp only [installServers]
  split
  · rename_i none
    obtain ⟨failed, rfl⟩ := none
    have no : s.initialServers = [] := by
      rw [← List.length_eq_zero_iff, ← (List.perm_insertionSort (· ≤ ·) s.initialServers).length_eq]
      cases topo : sort s.initialServers with
      | nil => exact List.length_eq_zero_iff.mpr topo
      | cons server rest =>
        rw [topo] at failed
        cases failed
    exact ⟨⟨rfl, rfl⟩, no, .inr ⟨rfl, rfl⟩⟩
  · refine ((addServers_poolSet config _ s).mono (fun _ _ => id) fun _ t => ?_).bind ?_
    · rintro ⟨pool, rfl⟩
      exact ⟨rfl, rfl⟩
    rintro - t ⟨pool, rfl⟩
    have whole : Meets ((removeServers (setDifference (sort s.initialServers) newServers) >>=
        fun _ => modify fun s => { s with initialServers := newServers })
          { poolSet s pool with balancer := s.balancer.setServers newServers })
        (fun _ t => SameInfo s t ∧ t.initialServers = newServers ∧
          (t.balancer.servers = newServers ∨
          t.balancer = s.balancer ∧ t.initialServers = s.initialServers))
        (fun _ t => SameInfo s t) := by
      refine ((removeServers_poolSet _ _).mono (fun _ _ => id) fun _ t => ?_).bind ?_
      · rintro ⟨pool', rfl⟩
        exact ⟨rfl, rfl⟩
      · rintro - t ⟨pool', rfl⟩
        exact ⟨⟨rfl, rfl⟩, rfl, .inl rfl⟩
    exact whole

-- An update of the servers keeps the hashes and the age, and unless it raises the new servers are
-- in both lists.
theorem updateServers_sets (makes : List (Option Exn)) (newServers : List K)
    (s : TransportFactory N K) :
    Meets (updateServers config makes newServers s)
      (fun _ t => SameInfo s t ∧ t.initialServers = sort newServers ∧
        (t.balancer.servers = sort newServers ∨
          t.balancer = s.balancer ∧ t.initialServers = s.initialServers))
      (fun _ t => SameInfo s t) := by
  have installs := installServers_sets config (sort newServers)
    { s with connectionPool := { s.connectionPool with makes } }
  simp only [updateServers]
  cases result : installServers config (sort newServers) (sort s.initialServers)
      { s with connectionPool := { s.connectionPool with makes } } with
  | ok _ t =>
    rw [result] at installs
    exact installs
  | error e t =>
    rw [result] at installs
    exact installs

theorem switchServers_age (servers : List K) (makes : List (Option Exn))
    (s : TransportFactory N K) :
    (final (switchServers config servers makes s)).topologyAge = 0 := by
  let begun : TransportFactory N K := { s with
    topologyAge := 0
    initialServers := servers
    failedServers := []
    balancer := {}
    connectionPool := { makes } }
  have opens : Meets (addServers config servers begun) (fun _ t => t.topologyAge = 0)
      (fun _ t => t.topologyAge = 0) := by
    refine (addServers_poolSet config servers begun).mono (fun _ t => ?_) fun _ t => ?_
    all_goals
      rintro ⟨pool, rfl⟩
      rfl
  have whole : Meets ((addServers config servers >>= fun _ =>
      modify fun s => { s with balancer := s.balancer.setServers s.initialServers }) begun)
      (fun _ t => t.topologyAge = 0) (fun _ t => t.topologyAge = 0) :=
    opens.bind fun _ t age => age
  exact whole.final

/-- The ages of the factory and of all requests are the same. -/
def SameAge (s : Responses N K) : Prop :=
  s.factory.topologyAge = 0 ∧ ∀ thread request handling,
    s.threads.get? thread = some (request, handling) → request.topologyAge = 0

theorem SameAge.goOn (same : SameAge s) (aged : t.factory.topologyAge = 0)
    (threads : t.threads = s.threads) {thread : Thread} {request : Inquiry N}
    (requested : request.topologyAge = 0) (handling : Handling) :
    SameAge (t.goOn thread request handling) := by
  refine ⟨aged, fun other request' handling' found => ?_⟩
  simp only [Responses.goOn, threads, SortedMap.get?_insert] at found
  split at found
  · cases found
    exact requested
  · exact same.2 other request' handling' found

theorem SameAge.done (same : SameAge s) (aged : t.factory.topologyAge = 0)
    (threads : t.threads = s.threads) (thread : Thread) : SameAge (t.done thread) := by
  refine ⟨aged, fun other request handling found => ?_⟩
  simp only [Responses.done, threads, SortedMap.get?_erase] at found
  split at found
  · cases found
  · exact same.2 other request handling found

theorem SameAge.proceed (same : SameAge s) {progress : Progress N K}
    (taken : proceed config address s progress = some t) : SameAge t := by
  cases mine : progress.thread? with
  | none =>
    cases progress with
    | switch servers makes =>
      cases taken
      exact ⟨switchServers_age config servers makes s.factory, same.2⟩
    | _ => cases mine
  | some thread =>
    rcases moves_of_proceed config address mine taken with
      ⟨topology, cacheName, rfl, absent, rfl⟩ | ⟨request, handling, found, moves⟩
    · exact same.goOn same.1 rfl rfl _
    · have requested := same.2 thread request handling found
      cases moves with
      | updates newTopologyId block makes factory returned =>
        have sets := updateServers_sets config makes (block.addresses.map address) s.factory
        rw [returned] at sets
        exact same.goOn (t := { s with factory }) (sets.1.2.trans same.1) rfl requested _
      | raises newTopologyId block makes e factory raise =>
        have sets := updateServers_sets config makes (block.addresses.map address) s.factory
        rw [raise] at sets
        exact same.done (t := { s with factory }) (sets.2.trans same.1) rfl thread
      | readId newTopologyId => exact same.goOn same.1 rfl requested _
      | readBlock newTopologyId block => exact same.goOn same.1 rfl requested _
      | lookUp newTopologyId block => exact same.goOn same.1 rfl requested _
      | passes newTopologyId block currentTopology same' other =>
        exact same.goOn same.1 rfl requested _
      | readSent block => exact same.goOn same.1 rfl requested _
      | leaveSent => exact same.done same.1 rfl thread
      | leaveNamed newTopologyId => exact same.done same.1 rfl thread
      | ignores newTopologyId block currentTopology fails => exact same.done same.1 rfl thread
      | rehashes topologyId block => exact same.done same.1 rfl thread

theorem topologyAge_agrees (factory : TransportFactory N K) (topologyIds : SortedMap Nat Int)
    (steps : List (Progress N K)) (fresh : factory.topologyAge = 0)
    (reached : run (proceed config address) { factory, topologyIds } steps = some s) :
    SameAge s := by
  refine run_invariant_of_step SameAge ⟨fresh, fun thread request handling found => ?_⟩
    (fun s progress t same taken => same.proceed config address taken) reached
  cases found

/-! ### A response that is late -/

def oldCluster : TransportFactory Nat Nat where
  balancer := { servers := [0] }
  initialServers := [0]
  topologyInfo := ({} : TopologyInfo Nat (Option Nat)).updateTopology [[some 0]] 1 3 0 1

def serverAt (port : UInt16) : Block where
  addresses := [(.empty, port)]
  hashFunctionVersion := 0
  numSegments := 1
  segmentOwners := [[]]

/-- The response to a request to the old cluster brings its topology 2. It has been read
when the client switches to a cluster of the server 1. -/
def overtakenBySwitch : List (Progress Nat Nat) :=
  [.send 7 0 0, .readId 7 2, .readBlock 7 (serverAt 5), .switch [1] [], .lookUp 7, .compare 7]

/-- The old cluster's topology replaces the servers of the new one. -/
theorem late_response_installed :
    ∃ s t, run (proceed {} fun a => a.2.toNat) { factory := oldCluster } overtakenBySwitch = some s ∧
      proceed {} (fun a => a.2.toNat) s (.updateServers 7 []) = some t ∧
      Late s (.updateServers 7 []) ∧ s.factory.initialServers = [1] ∧
      t.factory.initialServers = [5] ∧ ¬ SameTopology s.factory t.factory := by
  refine ⟨_, _, rfl, rfl, ?_, ?_, ?_, ?_⟩
  · exact ⟨7, ⟨0, 0, 0, 0⟩, .updating 2 (serverAt 5), rfl, rfl, by decide⟩
  · decide +kernel
  · decide +kernel
  · intro kept
    exact absurd kept.listed (by decide +kernel)

theorem late_response_ignored :
    ∃ s t, run (proceed {} fun a => a.2.toNat) { factory := oldCluster }
        [.send 7 0 0, .readId 7 1, .readBlock 7 (serverAt 5), .switch [1] [], .lookUp 7] = some s ∧
      proceed {} (fun a => a.2.toNat) s (.compare 7) = some t ∧ SameTopology s.factory t.factory := by
  refine ⟨_, _, rfl, rfl, ?_⟩
  refine late_responses_fenced {} (fun a => a.2.toNat) oldCluster SortedMap.empty
    [.send 7 0 0, .readId 7 1, .readBlock 7 (serverAt 5), .switch [1] [], .lookUp 7] (.compare 7)
    (.cons rfl trivial (.cons rfl trivial (.cons rfl trivial (.cons rfl ?_ (.cons rfl trivial
      trivial))))) rfl rfl ⟨7, ⟨0, 0, 0, 0⟩, .lookedUp 1 (serverAt 5) 1, rfl, rfl, by decide⟩
  intro thread request handling found
  have only := List.mem_singleton.mp ((SortedMap.get?_eq_some _).mp found)
  cases only
  exact id

end HotRod.Topology
