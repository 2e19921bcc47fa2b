import HotRod.Topology.Responses

/-! One cache on one cluster: the topology that is installed among those that came.

The cluster numbers its topologies, and a response carries the number and the block of
one of them. The requests of the cache refer to the object `own`; the pings of its name and
the requests of another handle of it do not. `Orderly` is the order in which nothing is lost. -/

set_option autoImplicit false

namespace HotRod.Topology

open Semantics.Execution Semantics.Transition HotRod.Transport HotRod.Protocol
  HotRod.Transport.ConnectionPool

variable {N K : Type} [LinearOrder N] [LinearOrder K] (config : Configuration)
  (address : Address → K) (topologies : Int → Block) (own : Nat) (cacheName : N)

def ListsOf (topologyId : Int) (factory : TransportFactory N K) : Prop :=
  factory.initialServers = sort ((topologies topologyId).addresses.map address) ∧
    factory.balancer.servers = factory.initialServers

structure Installed (topologyId : Int) (factory : TransportFactory N K) : Prop where
  lists : ListsOf address topologies topologyId factory
  hash : factory.topologyInfo.consistentHashByCacheName.get? cacheName =
    some (some (.init ((topologies topologyId).segmentOwners.map (List.map (Option.map address)))
      (topologies topologyId).numSegments))
  id : factory.topologyInfo.topologyIdsByCache.get? cacheName = some topologyId

/-- No response is being handled; requests may be on the way. -/
def Quiet (s : Responses N K) : Prop :=
  ∀ thread request handling, s.threads.get? thread = some (request, handling) → handling = .sent

/-- The topology with the greatest id of those received is installed, and its id is sent. -/
def UpToDate (s : Responses N K) : Prop :=
  ∀ topologyId, (cacheName, topologyId) ∈ s.received → (∀ e ∈ s.received, e.2 ≤ topologyId) →
    Installed address topologies cacheName topologyId s.factory ∧ s.sent own = topologyId

/-- The requests and pings are for the cache and there is no switch. The ids of the cluster are
not negative, and a response brings the topology of its id. -/
def OneCluster (s : Responses N K) : Progress N K → Prop
  | .send _ _ cacheName' => cacheName' = cacheName
  | .readId _ newTopologyId => 0 ≤ newTopologyId
  | .readBlock thread block => ∀ request newTopologyId,
      s.threads.get? thread = some (request, .named newTopologyId) →
      block = topologies newTopologyId
  | .switch _ _ => False
  | _ => True

/-- No id is smaller than one received, and a new one comes to a request of the cache's own
object when no other response is being handled. A block is read to its end, and every new
connection is made. -/
def Orderly (s : Responses N K) : Progress N K → Prop
  | .readId thread newTopologyId => (∀ e ∈ s.received, e.2 ≤ newTopologyId) ∧
      ((cacheName, newTopologyId) ∈ s.received ∨ Quiet s ∧ ∀ request handling,
        s.threads.get? thread = some (request, handling) → request.topology = own)
  | .leave thread => ∀ request newTopologyId,
      s.threads.get? thread ≠ some (request, .named newTopologyId)
  | .updateServers _ makes => ∀ make ∈ makes, make = none
  | _ => True

structure Fresh (factory : TransportFactory N K) : Prop where
  -- The client as it starts: the configured servers, and the id -1 for the cache.
  age : factory.topologyAge = 0
  balanced : factory.balancer.servers = factory.initialServers
  id : factory.topologyInfo.topologyIdsByCache.get? cacheName = some (-1)

/-! ### Connections that are made -/

def AllMade (pool : ConnectionPool K) : Prop := ∀ make ∈ pool.makes, make = none

theorem makeIdle_made {key : K} {pool : ConnectionPool K} (made : AllMade pool) {q : IdleQueue}
    (found : pool.idle.get? key = some (some q)) :
    Meets (makeIdle key pool) (fun _ t => AllMade t ∧ ∃ q, t.idle.get? key = some (some q))
      (fun _ _ => False) := by
  have planned : pool.makes.head?.join = none := by
    cases first : pool.makes with
    | nil => rfl
    | cons make rest => rw [List.head?_cons, made make (first ▸ List.mem_cons_self)]; rfl
  rw [makeIdle, bind_apply, makeObject_eq, planned]
  simp only
  rw [bind_of_ok (pushIdle_eq (s := { pool with makes := pool.makes.tail, made := pool.made + 1 })
    found pool.made)]
  exact ⟨fun make member => made make (List.mem_of_mem_tail member),
    { q with items := q.items ++ [pool.made] }, SortedMap.get?_insert_self _ _ _⟩

theorem growIdle_made {key : K} {pool : ConnectionPool K} (made : AllMade pool) {q : IdleQueue}
    (found : pool.idle.get? key = some (some q)) (grown : Nat) :
    Meets (growIdle key grown pool) (fun _ t => AllMade t) (fun _ _ => False) := by
  induction grown generalizing pool q with
  | zero => exact made
  | succ grown ih =>
    refine (makeIdle_made made found).bind ?_
    rintro - t ⟨later, q', found'⟩
    exact ih later found'

theorem addObject_made {pool : ConnectionPool K} (made : AllMade pool) (key : K) :
    Meets (addObject config key pool) (fun _ t => AllMade t) (fun _ _ => False) := by
  by_cases known : key ∈ pool.idle
  · simpa [addObject, bind_apply, known] using made
  · simp only [addObject, ensureMinIdle, bind_apply, get_apply, known, if_false, modify_apply]
    have opened : AllMade (openQueues key pool) := made
    exact growIdle_made opened (SortedMap.get?_insert_self _ _ _) _

theorem addServers_made {s : TransportFactory N K} (made : AllMade s.connectionPool)
    (added : List K) :
    Meets (addServers config added s) (fun _ _ => True) (fun _ _ => False) := by
  induction added generalizing s with
  | nil => trivial
  | cons server rest ih =>
    refine (onPool_meets (addObject_made config made server)).mono (fun _ _ => id) ?_ |>.bind ?_
    · rintro e t ⟨pool, -, no⟩
      exact no
    · rintro - t ⟨pool, rfl, later⟩
      exact ih later

theorem updateServers_made (makes : List (Option Exn)) (made : ∀ make ∈ makes, make = none)
    (newServers : List K) (s : TransportFactory N K) :
    Meets (updateServers config makes newServers s) (fun _ _ => True) (fun _ _ => False) := by
  have adds : Meets (addServers config (setDifference (sort newServers) (sort s.initialServers))
      { s with connectionPool := { s.connectionPool with makes } }) (fun _ _ => True)
      (fun _ _ => False) :=
    addServers_made (s := { s with connectionPool := { s.connectionPool with makes } }) config made _
  exact updateServers_of_addServers config (fun _ => False) adds

/-! ### The invariant -/

variable {address topologies own cacheName} {s t : Responses N K}

-- Before the first topology there is nothing to install.
def InPlace (address : Address → K) (topologies : Int → Block) (cacheName : N) (greatest : Int)
    (factory : TransportFactory N K) : Prop :=
  greatest = -1 ∨ Installed address topologies cacheName greatest factory

/-- A response that is being handled is one with the greatest id; `sends` is what holds of
the object of its request, `listed` and `inPlace` of the factory. -/
def Handling.On (topologies : Int → Block) (greatest : Int) (sends listed inPlace : Prop) :
    Handling → Prop
  | sent => True
  | named newTopologyId => newTopologyId = greatest
  | parsed newTopologyId block => newTopologyId = greatest ∧ block = topologies greatest
  | lookedUp newTopologyId block currentTopology => newTopologyId = greatest ∧
      block = topologies greatest ∧ (currentTopology = greatest → inPlace)
  | updating newTopologyId block => newTopologyId = greatest ∧ block = topologies greatest ∧ sends
  | Handling.listed block => block = topologies greatest ∧ sends ∧ listed
  | hashing topologyId block => topologyId = greatest ∧ block = topologies greatest ∧ listed

theorem Handling.On.mono {greatest : Int} {sends sends' listed listed' inPlace inPlace' : Prop}
    {handling : Handling} (on : handling.On topologies greatest sends listed inPlace)
    (keeps : sends → sends') (lists : listed → listed') (places : inPlace → inPlace') :
    handling.On topologies greatest sends' listed' inPlace' := by
  cases handling with
  | sent => trivial
  | named newTopologyId => exact on
  | parsed newTopologyId block => exact on
  | lookedUp newTopologyId block currentTopology =>
    exact ⟨on.1, on.2.1, fun same => places (on.2.2 same)⟩
  | updating newTopologyId block => exact ⟨on.1, on.2.1, keeps on.2.2⟩
  | listed block => exact ⟨on.1, keeps on.2.1, lists on.2.2⟩
  | hashing topologyId block => exact ⟨on.1, on.2.1, lists on.2.2⟩

/-- The response is going to be installed. -/
def Handling.Brings (greatest : Int) : Handling → Prop
  | sent => False
  | lookedUp _ _ currentTopology => currentTopology ≠ greatest
  | _ => True

/-- The greatest id of those received, or -1. -/
structure Greatest (cacheName : N) (received : List (N × Int)) (greatest : Int) : Prop where
  bounds : ∀ e ∈ received, 0 ≤ e.2 ∧ e.2 ≤ greatest
  seen : greatest ≠ -1 → (cacheName, greatest) ∈ received

structure Succeeding (address : Address → K) (topologies : Int → Block) (own : Nat)
    (cacheName : N) (greatest : Int) (s : Responses N K) : Prop where
  top : Greatest cacheName s.received greatest
  sent : s.sent own = greatest
  age : s.factory.topologyAge = 0
  balanced : s.factory.balancer.servers = s.factory.initialServers
  known : ∃ id, s.factory.topologyInfo.topologyIdsByCache.get? cacheName = some id ∧
    id ≤ greatest ∧ (id = greatest → InPlace address topologies cacheName greatest s.factory)
  requests : ∀ thread request handling, s.threads.get? thread = some (request, handling) →
    request.cacheName = cacheName ∧ request.topologyAge = 0 ∧
    handling.On topologies greatest (s.sent request.topology = greatest)
      (ListsOf address topologies greatest s.factory)
      (InPlace address topologies cacheName greatest s.factory)
  brought : InPlace address topologies cacheName greatest s.factory ∨
    ∃ thread request handling, s.threads.get? thread = some (request, handling) ∧
      handling.Brings greatest

theorem Succeeding.upToDate {greatest : Int}
    (succeeding : Succeeding address topologies own cacheName greatest s) (quiet : Quiet s) :
    UpToDate address topologies own cacheName s := by
  intro topologyId member greater
  obtain ⟨bounds, seen⟩ := succeeding.top
  obtain ⟨nonnegative, below⟩ := bounds _ member
  have some_received : greatest ≠ -1 := fun none => by omega
  have same : topologyId = greatest := le_antisymm below (greater _ (seen some_received))
  subst same
  refine ⟨?_, succeeding.sent⟩
  rcases succeeding.brought with inPlace | ⟨thread, request, handling, found, brings⟩
  · exact inPlace.resolve_left some_received
  · cases quiet thread request handling found
    exact brings.elim

/-- What a step of one thread may change besides the thread. -/
structure StaysAt (address : Address → K) (topologies : Int → Block) (cacheName : N)
    (greatest : Int) (s t : Responses N K) : Prop where
  threads : t.threads = s.threads
  received : t.received = s.received
  sent : ∀ topology, s.sent topology = greatest → t.sent topology = greatest
  age : t.factory.topologyAge = 0
  balanced : t.factory.balancer.servers = t.factory.initialServers
  known : ∃ id, t.factory.topologyInfo.topologyIdsByCache.get? cacheName = some id ∧
    id ≤ greatest ∧ (id = greatest → InPlace address topologies cacheName greatest t.factory)
  lists : ListsOf address topologies greatest s.factory →
    ListsOf address topologies greatest t.factory
  places : InPlace address topologies cacheName greatest s.factory →
    InPlace address topologies cacheName greatest t.factory

theorem Succeeding.stays {greatest : Int}
    (succeeding : Succeeding address topologies own cacheName greatest s) :
    StaysAt address topologies cacheName greatest s s :=
  ⟨rfl, rfl, fun _ => id, succeeding.age, succeeding.balanced, succeeding.known, id, id⟩

theorem Succeeding.goOn {greatest : Int}
    (succeeding : Succeeding address topologies own cacheName greatest s)
    (stays : StaysAt address topologies cacheName greatest s t) {thread : Thread}
    {request : Inquiry N} {handling : Handling} (mine : request.cacheName = cacheName)
    (aged : request.topologyAge = 0)
    (on : handling.On topologies greatest (t.sent request.topology = greatest)
      (ListsOf address topologies greatest t.factory)
      (InPlace address topologies cacheName greatest t.factory))
    (brings : ∀ request handling', s.threads.get? thread = some (request, handling') →
      handling'.Brings greatest → handling.Brings greatest ∨
        InPlace address topologies cacheName greatest t.factory) :
    Succeeding address topologies own cacheName greatest (t.goOn thread request handling) where
  top := stays.received.symm ▸ succeeding.top
  sent := stays.sent own succeeding.sent
  age := stays.age
  balanced := stays.balanced
  known := stays.known
  requests other request' handling' found := by
    simp only [Responses.goOn, stays.threads, SortedMap.get?_insert] at found
    split at found
    · cases found
      exact ⟨mine, aged, on⟩
    · obtain ⟨his, old, was⟩ := succeeding.requests other request' handling' found
      exact ⟨his, old, was.mono (stays.sent _) stays.lists stays.places⟩
  brought := by
    rcases succeeding.brought with inPlace | ⟨other, request', handling', found, was⟩
    · exact .inl (stays.places inPlace)
    · by_cases same : other = thread
      · subst same
        rcases brings request' handling' found was with later | inPlace
        · exact .inr ⟨other, request, handling, SortedMap.get?_insert_self _ _ _, later⟩
        · exact .inl inPlace
      · refine .inr ⟨other, request', handling', ?_, was⟩
        simp only [Responses.goOn, stays.threads, SortedMap.get?_insert, if_neg same, found]

theorem Succeeding.done {greatest : Int}
    (succeeding : Succeeding address topologies own cacheName greatest s)
    (stays : StaysAt address topologies cacheName greatest s t) {thread : Thread}
    (brings : ∀ request handling, s.threads.get? thread = some (request, handling) →
      handling.Brings greatest → InPlace address topologies cacheName greatest t.factory) :
    Succeeding address topologies own cacheName greatest (t.done thread) where
  top := stays.received.symm ▸ succeeding.top
  sent := stays.sent own succeeding.sent
  age := stays.age
  balanced := stays.balanced
  known := stays.known
  requests other request handling found := by
    simp only [Responses.done, stays.threads, SortedMap.get?_erase] at found
    split at found
    · cases found
    · obtain ⟨his, old, was⟩ := succeeding.requests other request handling found
      exact ⟨his, old, was.mono (stays.sent _) stays.lists stays.places⟩
  brought := by
    rcases succeeding.brought with inPlace | ⟨other, request, handling, found, was⟩
    · exact .inl (stays.places inPlace)
    · by_cases same : other = thread
      · subst same
        exact .inl (brings request handling found was)
      · refine .inr ⟨other, request, handling, ?_, was⟩
        simp only [Responses.done, stays.threads, SortedMap.get?_erase_of_ne _ same, found]

theorem Succeeding.repeated {greatest : Int}
    (succeeding : Succeeding address topologies own cacheName greatest s)
    (some_received : 0 ≤ greatest)
    {thread : Thread} {request : Inquiry N}
    (found : s.threads.get? thread = some (request, .sent)) :
    Succeeding address topologies own cacheName greatest
      ((s.name request greatest).goOn thread request (.named greatest)) := by
  obtain ⟨mine, aged, -⟩ := succeeding.requests thread request _ found
  have top : Greatest cacheName (s.received ++ [(request.cacheName, greatest)]) greatest := by
    refine ⟨fun e member => ?_, fun _ => by simp [mine]⟩
    rcases List.mem_append.mp member with earlier | last
    · exact succeeding.top.bounds e earlier
    · cases List.mem_singleton.mp last
      exact ⟨some_received, le_refl _⟩
  have named : ∀ topology, s.sent topology = greatest →
      (s.name request greatest).sent topology = greatest := by
    intro topology sends
    rw [Responses.sent, Responses.name, getId_insert, ← Responses.sent, sends, ite_self]
  have known : Succeeding address topologies own cacheName greatest (s.name request greatest) :=
    { succeeding with
      top
      sent := named own succeeding.sent
      requests := fun other request' handling' found' => by
        obtain ⟨his, old, was⟩ := succeeding.requests other request' handling' found'
        exact ⟨his, old, was.mono (named _) id id⟩ }
  exact known.goOn known.stays mine aged rfl fun _ _ _ _ => .inl trivial

theorem Succeeding.next {greatest newTopologyId : Int}
    (succeeding : Succeeding address topologies own cacheName greatest s)
    (greater : greatest < newTopologyId) (nonnegative : 0 ≤ newTopologyId) (quiet : Quiet s)
    {thread : Thread} {request : Inquiry N} (owned : request.topology = own)
    (found : s.threads.get? thread = some (request, .sent)) :
    Succeeding address topologies own cacheName newTopologyId
      ((s.name request newTopologyId).goOn thread request (.named newTopologyId)) := by
  obtain ⟨mine, aged, -⟩ := succeeding.requests thread request _ found
  obtain ⟨id, here, below, -⟩ := succeeding.known
  refine ⟨⟨fun e member => ?_, fun _ => ?_⟩, ?_, succeeding.age, succeeding.balanced,
    ⟨id, here, ?_, ?_⟩, fun other request' handling' found' => ?_, ?_⟩
  · rcases List.mem_append.mp member with earlier | last
    · obtain ⟨positive, bounded⟩ := succeeding.top.bounds e earlier
      exact ⟨positive, bounded.trans greater.le⟩
    · cases List.mem_singleton.mp last
      exact ⟨nonnegative, le_refl _⟩
  · simp [Responses.name, Responses.goOn, mine]
  · simp [Responses.name, Responses.goOn, Responses.sent, getId_insert, owned]
  · omega
  · exact fun same => absurd same (by omega)
  · simp only [Responses.goOn, Responses.name, SortedMap.get?_insert] at found'
    split at found'
    · cases found'
      exact ⟨mine, aged, rfl⟩
    · obtain ⟨his, old, -⟩ := succeeding.requests other request' handling' found'
      cases quiet other request' handling' found'
      exact ⟨his, old, trivial⟩
  · exact .inr ⟨thread, request, .named newTopologyId, SortedMap.get?_insert_self _ _ _, trivial⟩

/-! ### Steps of a response -/

section Steps

variable {greatest : Int} {thread : Thread} {request : Inquiry N}

omit [LinearOrder K] in
theorem getTopologyId_known {info : TopologyInfo N (Option K)} {id : Int}
    (known : info.topologyIdsByCache.get? cacheName = some id) :
    (info.getTopologyId cacheName).1 = id ∧
      (info.getTopologyId cacheName).2.topologyIdsByCache.get? cacheName = some id := by
  simp [TopologyInfo.getTopologyId, known]

theorem Succeeding.lookUp (succeeding : Succeeding address topologies own cacheName greatest s)
    {newTopologyId : Int} {block : Block}
    (found : s.threads.get? thread = some (request, .parsed newTopologyId block)) :
    Succeeding address topologies own cacheName greatest
      ({ s with factory := { s.factory with
          topologyInfo := (s.factory.topologyInfo.getTopologyId request.cacheName).2 } }.goOn thread
        request (.lookedUp newTopologyId block
          (s.factory.topologyInfo.getTopologyId request.cacheName).1)) := by
  obtain ⟨mine, aged, same, content⟩ := succeeding.requests thread request _ found
  obtain ⟨known, here, below, there⟩ := succeeding.known
  obtain ⟨asked, kept⟩ := getTopologyId_known here
  rw [mine, asked]
  have places : InPlace address topologies cacheName greatest s.factory →
      InPlace address topologies cacheName greatest { s.factory with
        topologyInfo := (s.factory.topologyInfo.getTopologyId cacheName).2 } := by
    rintro (none | installed)
    · exact .inl none
    · have current : known = greatest := Option.some.inj (here.symm.trans installed.id)
      exact .inr ⟨installed.lists, installed.hash, current ▸ kept⟩
  have stays : StaysAt address topologies cacheName greatest s { s with factory := { s.factory with
      topologyInfo := (s.factory.topologyInfo.getTopologyId cacheName).2 } } :=
    ⟨rfl, rfl, fun _ => id, succeeding.age, succeeding.balanced,
      ⟨known, kept, below, fun current => places (there current)⟩, id, places⟩
  refine succeeding.goOn stays mine aged ⟨same, content, fun current => places (there current)⟩ ?_
  intro _ _ _ _
  by_cases current : known = greatest
  · exact .inr (places (there current))
  · exact .inl current

theorem Succeeding.passes (succeeding : Succeeding address topologies own cacheName greatest s)
    {newTopologyId : Int} {block : Block} {currentTopology : Int}
    (found : s.threads.get? thread = some (request, .lookedUp newTopologyId block currentTopology)) :
    Succeeding address topologies own cacheName greatest
      ({ s with topologyIds := s.topologyIds.insert request.topology newTopologyId }.goOn thread
        request (.updating newTopologyId block)) := by
  obtain ⟨mine, aged, same, content, -⟩ := succeeding.requests thread request _ found
  have sent : ∀ topology, s.sent topology = greatest → Responses.sent { s with
      topologyIds := s.topologyIds.insert request.topology newTopologyId } topology =
      greatest := by
    intro topology sends
    rw [Responses.sent, getId_insert, ← Responses.sent, sends, same, ite_self]
  have sends : Responses.sent { s with
      topologyIds := s.topologyIds.insert request.topology newTopologyId } request.topology =
      greatest := by rw [Responses.sent, getId_insert, if_pos rfl, same]
  have stays : StaysAt address topologies cacheName greatest s { s with
      topologyIds := s.topologyIds.insert request.topology newTopologyId } :=
    { succeeding.stays with sent }
  exact succeeding.goOn stays mine aged ⟨same, content, sends⟩ fun _ _ _ _ => .inl trivial

theorem Succeeding.ignores (succeeding : Succeeding address topologies own cacheName greatest s)
    {newTopologyId : Int} {block : Block} {currentTopology : Int}
    (found : s.threads.get? thread = some (request, .lookedUp newTopologyId block currentTopology))
    (fails : ¬ (request.topologyAge = s.factory.topologyAge ∧ currentTopology ≠ newTopologyId)) :
    Succeeding address topologies own cacheName greatest (s.done thread) := by
  obtain ⟨-, aged, same, -, there⟩ := succeeding.requests thread request _ found
  refine succeeding.done succeeding.stays fun _ _ _ _ => there ?_
  by_contra other
  exact fails ⟨aged.trans succeeding.age.symm, same ▸ other⟩

theorem Succeeding.updates (succeeding : Succeeding address topologies own cacheName greatest s)
    {newTopologyId : Int} {block : Block} {makes : List (Option Exn)}
    {factory : TransportFactory N K}
    (found : s.threads.get? thread = some (request, .updating newTopologyId block))
    (returned : updateServers config makes (block.addresses.map address) s.factory =
      .ok () factory) :
    Succeeding address topologies own cacheName greatest
      ({ s with factory }.goOn thread request (.listed block)) := by
  obtain ⟨mine, aged, -, content, sends⟩ := succeeding.requests thread request _ found
  have sets := updateServers_sets config makes (block.addresses.map address) s.factory
  rw [returned] at sets
  obtain ⟨⟨info, age⟩, listed, both⟩ := sets
  have balanced : factory.balancer.servers = factory.initialServers := by
    rcases both with sorted | ⟨unchanged, unlisted⟩
    · exact sorted.trans listed.symm
    · rw [unchanged, unlisted]
      exact succeeding.balanced
  have lists : ListsOf address topologies greatest factory := ⟨content ▸ listed, balanced⟩
  have places : InPlace address topologies cacheName greatest s.factory →
      InPlace address topologies cacheName greatest factory := by
    rintro (none | installed)
    · exact .inl none
    · exact .inr ⟨lists, info ▸ installed.hash, info ▸ installed.id⟩
  obtain ⟨known, here, below, there⟩ := succeeding.known
  have stays : StaysAt address topologies cacheName greatest s { s with factory } :=
    ⟨rfl, rfl, fun _ => id, age.trans succeeding.age, balanced,
      ⟨known, info ▸ here, below, fun current => places (there current)⟩, fun _ => lists, places⟩
  exact succeeding.goOn stays mine aged ⟨content, sends, lists⟩ fun _ _ _ _ => .inl trivial

theorem Succeeding.readSent (succeeding : Succeeding address topologies own cacheName greatest s)
    {block : Block} (found : s.threads.get? thread = some (request, .listed block)) :
    Succeeding address topologies own cacheName greatest
      (s.goOn thread request (.hashing (s.sent request.topology) block)) := by
  obtain ⟨mine, aged, content, sends, lists⟩ := succeeding.requests thread request _ found
  exact succeeding.goOn succeeding.stays mine aged ⟨sends, content, lists⟩ fun _ _ _ _ =>
    .inl trivial

theorem Succeeding.rehashes (succeeding : Succeeding address topologies own cacheName greatest s)
    {topologyId : Int} {block : Block}
    (found : s.threads.get? thread = some (request, .hashing topologyId block)) :
    Succeeding address topologies own cacheName greatest
      (s.rehashes address thread request.cacheName topologyId block) := by
  obtain ⟨mine, aged, same, content, lists⟩ := succeeding.requests thread request _ found
  subst content
  rw [mine, same]
  let factory : TransportFactory N K := { s.factory with
    topologyInfo := s.factory.topologyInfo.updateTopology
      ((topologies greatest).segmentOwners.map (List.map (Option.map address)))
      (topologies greatest).numSegments (topologies greatest).hashFunctionVersion cacheName
      greatest }
  have id : factory.topologyInfo.topologyIdsByCache.get? cacheName = some greatest :=
    SortedMap.get?_insert_self _ _ _
  have installed : Installed address topologies cacheName greatest factory :=
    ⟨lists, SortedMap.get?_insert_self _ _ _, id⟩
  have stays : StaysAt address topologies cacheName greatest s { s with factory } :=
    ⟨rfl, rfl, fun _ sends => sends, succeeding.age, succeeding.balanced,
      ⟨greatest, id, le_refl _, fun _ => .inr installed⟩, fun _ => lists, fun _ => .inr installed⟩
  exact succeeding.done stays fun _ _ _ _ => .inr installed

end Steps

-- The greatest id may become greater; all else is kept.
theorem Succeeding.proceed {greatest : Int}
    (succeeding : Succeeding address topologies own cacheName greatest s) {progress : Progress N K}
    (domain : OneCluster topologies cacheName s progress)
    (orderly : Orderly own cacheName s progress)
    (taken : proceed config address s progress = some t) :
    ∃ greatest', Succeeding address topologies own cacheName greatest' t := by
  cases mine : progress.thread? with
  | none =>
    cases progress with
    | switch servers makes => exact domain.elim
    | _ => cases mine
  | some thread =>
    rcases moves_of_proceed config address mine taken with
      ⟨topology, cacheName', rfl, absent, rfl⟩ | ⟨request, handling, found, moves⟩
    · refine ⟨greatest, succeeding.goOn succeeding.stays domain rfl trivial ?_⟩
      intro request handling found
      exact absurd ((SortedMap.mem_iff _).mpr ⟨_, found⟩) absent
    cases moves with
    | readId newTopologyId =>
      obtain ⟨upper, repeated⟩ := orderly
      have above : greatest ≤ newTopologyId := by
        by_cases none : greatest = -1
        · rw [none]
          exact Int.le_trans (by decide) domain
        · exact upper _ (succeeding.top.seen none)
      rcases eq_or_lt_of_le above with same | greater
      · subst same
        exact ⟨greatest, succeeding.repeated domain found⟩
      · have new : (cacheName, newTopologyId) ∉ s.received := fun member =>
          absurd (succeeding.top.bounds _ member).2 (not_le.mpr greater)
        obtain ⟨quiet, owned⟩ := repeated.resolve_left new
        exact ⟨newTopologyId,
          succeeding.next greater domain quiet (owned request _ found) found⟩
    | readBlock newTopologyId block =>
      obtain ⟨his, aged, same⟩ := succeeding.requests thread request _ found
      have content : block = topologies greatest := same ▸ domain request newTopologyId found
      exact ⟨greatest, succeeding.goOn succeeding.stays his aged ⟨same, content⟩ fun _ _ _ _ =>
        .inl trivial⟩
    | leaveSent =>
      refine ⟨greatest, succeeding.done succeeding.stays fun request' handling' found' brings => ?_⟩
      cases found.symm.trans found'
      exact brings.elim
    | leaveNamed newTopologyId => exact absurd found (orderly request newTopologyId)
    | lookUp newTopologyId block => exact ⟨greatest, succeeding.lookUp found⟩
    | passes newTopologyId block currentTopology same other =>
      exact ⟨greatest, succeeding.passes found⟩
    | ignores newTopologyId block currentTopology fails =>
      exact ⟨greatest, succeeding.ignores found fails⟩
    | updates newTopologyId block makes factory returned =>
      exact ⟨greatest, succeeding.updates config found returned⟩
    | raises newTopologyId block makes e factory raise =>
      have returns := updateServers_made config makes orderly (block.addresses.map address) s.factory
      rw [raise] at returns
      exact returns.elim
    | readSent block => exact ⟨greatest, succeeding.readSent found⟩
    | rehashes topologyId block => exact ⟨greatest, succeeding.rehashes found⟩

theorem Fresh.succeeding {factory : TransportFactory N K} (fresh : Fresh cacheName factory) :
    Succeeding address topologies own cacheName (-1) { factory } := by
  refine ⟨⟨fun e member => ?_, fun other => absurd rfl other⟩, rfl, fresh.age, fresh.balanced,
    ⟨-1, fresh.id, le_refl _, fun _ => .inl rfl⟩, fun thread request handling found => ?_,
    .inl (.inl rfl)⟩
  · cases member
  · cases found

/-- In every orderly order of requests, pings and responses of one cache on one cluster,
whenever no response is being handled, the topology with the greatest id received is
installed and its id is sent. -/
theorem greatest_installed (config : Configuration) (address : Address → K)
    (topologies : Int → Block) (own : Nat) (cacheName : N) (factory : TransportFactory N K)
    (steps : List (Progress N K)) (fresh : Fresh cacheName factory)
    (guarded : Guarded (Topology.proceed config address)
      (fun s progress => OneCluster topologies cacheName s progress ∧
        Orderly own cacheName s progress)
      { factory } steps)
    (reached : run (Topology.proceed config address) { factory } steps = some s) (quiet : Quiet s) :
    UpToDate address topologies own cacheName s := by
  obtain ⟨greatest, succeeding⟩ : ∃ greatest,
      Succeeding address topologies own cacheName greatest s := by
    refine run_invariant
      (fun s => ∃ greatest, Succeeding address topologies own cacheName greatest s)
      ⟨-1, fresh.succeeding⟩ ?_ guarded reached
    rintro s progress t ⟨greatest, succeeding⟩ ⟨domain, orderly⟩ taken
    exact succeeding.proceed config domain orderly taken
  exact succeeding.upToDate quiet

/-! ### Responses out of order -/

def configured : TransportFactory Nat Nat where
  balancer := { servers := [9] }
  initialServers := [9]
  topologyInfo := ({} : TopologyInfo Nat (Option Nat)).createTopologyId 0 (-1)

theorem fresh_configured : Fresh 0 configured := ⟨rfl, rfl, rfl⟩

def oneServerEach (topologyId : Int) : Block := serverAt (UInt16.ofInt topologyId)

def laggingLast : List (Progress Nat Nat) :=
  [.send 1 0 0, .send 2 0 0] ++ uninterrupted 1 2 (oneServerEach 2) true [] ++
    uninterrupted 2 1 (oneServerEach 1) true []

theorem laggingLast_runs :
    (run (proceed {} fun a => a.2.toNat) { factory := configured } laggingLast).isSome := by
  decide +kernel

/-- Topology 1 replaces topology 2, and its id is sent. -/
theorem older_topology_installed :
    ∃ s, run (proceed {} fun a => a.2.toNat) { factory := configured } laggingLast = some s ∧
      Quiet s ∧ s.received = [(0, 2), (0, 1)] ∧ s.sent 0 = 1 ∧
      s.factory.initialServers = [1] ∧
      ¬ UpToDate (fun a => a.2.toNat) oneServerEach 0 0 s := by
  refine ⟨Option.get _ laggingLast_runs, (Option.some_get laggingLast_runs).symm, ?_,
    by decide +kernel, by decide +kernel, by decide +kernel, fun upToDate => ?_⟩
  · intro thread request handling found
    have none : (Option.get _ laggingLast_runs).threads.entries.length = 0 := by decide +kernel
    rw [SortedMap.get?_eq_some, List.length_eq_zero_iff.mp none] at found
    cases found
  · have sent := (upToDate 2 (by decide +kernel) (by decide +kernel)).2
    revert sent
    decide +kernel

theorem greatest_installed_first :
    ∃ s, run (proceed {} fun a => a.2.toNat) { factory := configured }
        (.send 1 0 0 :: uninterrupted 1 2 (oneServerEach 2) true []) = some s ∧
      UpToDate (fun a => a.2.toNat) oneServerEach 0 0 s := by
  refine ⟨_, rfl, greatest_installed {} (fun a => a.2.toNat) oneServerEach 0 0 configured
    (.send 1 0 0 :: uninterrupted 1 2 (oneServerEach 2) true []) fresh_configured ?_ rfl ?_⟩
  · refine .cons rfl ⟨rfl, trivial⟩ (.cons rfl ⟨?_, ?_, .inr ⟨?_, ?_⟩⟩ (.cons rfl ⟨?_, trivial⟩
      (.cons rfl ⟨trivial, trivial⟩ (.cons rfl ⟨trivial, trivial⟩ (.cons rfl ⟨trivial, ?_⟩
        (.cons rfl ⟨trivial, trivial⟩ (.cons rfl ⟨trivial, trivial⟩ trivial)))))))
    · exact show (0 : Int) ≤ 2 by decide
    · exact fun e member => by cases member
    · intro thread request handling found
      cases List.mem_singleton.mp ((SortedMap.get?_eq_some _).mp found)
      rfl
    · intro request handling found
      cases found
      rfl
    · rintro request newTopologyId found
      cases found
      rfl
    · exact fun make member => by cases member
  · intro thread request handling found
    cases found

end HotRod.Topology
