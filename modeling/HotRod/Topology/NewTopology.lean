import HotRod.Protocol.Codec
import HotRod.Topology.Views

/-! `readNewTopologyAndHash` over the state it changes: the connection, the topology id
that the requests send, and the factory.

An `OperationsFactory` has a `Topology`, which its requests refer to, and each ping of the
transport factory has one of its own. -/

set_option autoImplicit false

namespace HotRod.Topology

open Semantics.Execution HotRod.Transport HotRod.Protocol

-- `Topology::getId` of the object with that number; an object starts at -1.
def getId (topologyIds : SortedMap Nat Int) (topology : Nat) : Int :=
  (topologyIds.get? topology).getD (-1)

structure Client (N K : Type) [LinearOrder N] [LinearOrder K] where
  transport : Connection
  topologyIds : SortedMap Nat Int := SortedMap.empty
  factory : TransportFactory N K

variable {N K : Type} [LinearOrder N] [LinearOrder K] {A : Type}

abbrev ClientM (N K : Type) [LinearOrder N] [LinearOrder K] := EStateM Fault (Client N K)

def onTransport (call : ConnectionM A) : ClientM N K A := fun s =>
  match call s.transport with
  | .ok a transport => .ok a { s with transport }
  | .error e transport => .error (.raised e) { s with transport }

def onFactory (call : FactoryM N K A) : ClientM N K A := fun s =>
  match call s.factory with
  | .ok a factory => .ok a { s with factory }
  | .error e factory => .error e { s with factory }

structure Block where
  addresses : List Address
  hashFunctionVersion : UInt8
  numSegments : UInt32
  segmentOwners : List (List (Option Address))

def readBlock : ConnectionM Block := do
  let clusterSize ← readVInt
  let addresses ← readMany readAddress clusterSize.toNat
  let hashFunctionVersion ← readByte
  let numSegments ← readVInt
  let segmentOwners ← readSegments addresses hashFunctionVersion numSegments
  pure { addresses, hashFunctionVersion, numSegments, segmentOwners }

def readTopologyId : ConnectionM Int := do
  let id ← readVInt
  pure id.toInt32.toInt

-- `address` builds the `InetSocketAddress` of a host and a port.
def install (config : Configuration) (makes : List (Option Exn)) (address : Address → K)
    (cacheName : N) (newTopologyId : Int) (block : Block) : FactoryM N K PUnit := do
  updateServers config makes (block.addresses.map address)
  updateHashFunction (block.segmentOwners.map (List.map (Option.map address))) block.numSegments
    block.hashFunctionVersion cacheName newTopologyId

def readNewTopologyAndHash (config : Configuration) (makes : List (Option Exn))
    (address : Address → K) (topology : Nat) (cacheName : N) (topologyAge : Int) :
    ClientM N K PUnit := do
  let newTopologyId ← onTransport readTopologyId
  modify fun s => { s with topologyIds := s.topologyIds.insert topology newTopologyId }
  let block ← onTransport readBlock
  -- asking for the id of an unknown cache does not raise
  let currentTopology ← onFactory (getTopologyId cacheName)
  if topologyAge = (← get).factory.topologyAge ∧ currentTopology ≠ newTopologyId then
    onFactory (install config makes address cacheName newTopologyId block)

/-- The id of the topology that is installed for a cache. -/
def installedId (cacheName : N) (s : Client N K) : Int :=
  (s.factory.topologyInfo.getTopologyId cacheName).1

/-- The topology in use is the one of before, and `own`, the object of the cache, sends its
id. -/
structure Untouched (own : Nat) (cacheName : N) (s t : Client N K) : Prop where
  sent : getId t.topologyIds own = installedId cacheName t
  keys : ∀ k, k ∈ t.factory.connectionPool.idle ↔ k ∈ s.factory.connectionPool.idle
  servers : t.factory.balancer.servers = s.factory.balancer.servers
  listed : t.factory.initialServers = s.factory.initialServers
  info : t.factory.topologyInfo = s.factory.topologyInfo

/-- The id cannot be read and the installed one is sent, or the rest cannot be read and the
installed one is sent with the new one in the object of the request. -/
def Harmless (own topology : Nat) (cacheName : N) (s : Client N K) : Prop :=
  match readTopologyId s.transport with
  | .error _ _ => getId s.topologyIds own = installedId cacheName s
  | .ok newTopologyId later =>
    (if own = topology then newTopologyId else getId s.topologyIds own) =
      installedId cacheName s ∧ raised (readBlock later) ≠ none

/-! ### Servers that cannot be reached -/

variable (config : Configuration)

def Grows (s t : ConnectionPool K) : Prop := ∀ k ∈ s.idle, k ∈ t.idle

def Gains (s t : ConnectionPool K) : Prop := ∃ k, k ∈ t.idle ∧ k ∉ s.idle

theorem makeIdle_grows (key : K) (s : ConnectionPool K) :
    Meets (makeIdle key s) (fun _ t => Grows s t) (fun _ t => Grows s t) := by
  have inserts : ∀ q, Grows s { s with idle := s.idle.insert key q } :=
    fun q k member => (SortedMap.mem_insert _).mpr (.inr member)
  rw [makeIdle, bind_apply, makeObject_eq]
  cases s.makes.head?.join with
  | some e => exact fun k => id
  | none =>
    simp only [bind_apply, pushIdle, get_apply]
    cases s.idle.get? key with
    | none => exact inserts none
    | some entry => cases entry <;> exact inserts _

theorem growIdle_grows (key : K) (grown : Nat) (s : ConnectionPool K) :
    Meets (growIdle key grown s) (fun _ t => Grows s t) (fun _ t => Grows s t) := by
  induction grown generalizing s with
  | zero => exact fun k => id
  | succ grown ih =>
    refine (makeIdle_grows key s).bind ?_
    rintro - t first
    exact (ih t).mono (fun _ u later k member => later k (first k member))
      fun _ u later k member => later k (first k member)

theorem addObject_grows (key : K) (s : ConnectionPool K) :
    Meets (addObject config key s) (fun _ t => Grows s t) (fun _ t => Gains s t) := by
  by_cases known : key ∈ s.idle
  · simp [addObject, bind_apply, known, Grows]
  · have opened : key ∈ (openQueues key s).idle := (SortedMap.mem_insert _).mpr (.inl rfl)
    have kept : Grows s (openQueues key s) :=
      fun k member => (SortedMap.mem_insert _).mpr (.inr member)
    simp only [addObject, ensureMinIdle, bind_apply, get_apply, known, if_false, modify_apply]
    refine (growIdle_grows key _ (openQueues key s)).mono ?_ ?_
    · exact fun _ t later k member => later k (kept k member)
    · exact fun _ t later => ⟨key, later key opened, known⟩

theorem addServers_gains {before : ConnectionPool K} {s : TransportFactory N K}
    (grows : Grows before s.connectionPool) (added : List K) :
    Meets (addServers config added s) (fun _ _ => True)
      (fun _ t => Gains before t.connectionPool) := by
  induction added generalizing s with
  | nil => trivial
  | cons server rest ih =>
    have first := onPool_meets (s := s) (addObject_grows config server _)
    refine (first.mono (fun _ _ => id) fun _ t => ?_).bind ?_
    · rintro ⟨pool, rfl, key, there, new⟩
      exact ⟨key, there, fun member => new (grows key member)⟩
    · rintro - t ⟨pool, rfl, later⟩
      exact ih fun key member => later key (grows key member)

theorem removeServers_returns (failed : List K) (s : TransportFactory N K) :
    Meets (removeServers failed s) (fun _ _ => True) (fun _ _ => False) := by
  induction failed generalizing s with
  | nil => trivial
  | cons server rest ih =>
    have first := onPool_meets (s := s) (clear_busyItems server s.connectionPool)
    refine (first.mono (fun _ _ => id) fun _ t => ?_).bind fun _ t _ => ih t
    rintro ⟨pool, -, no⟩
    exact no

theorem updateServers_of_addServers {makes : List (Option Exn)} {newServers : List K}
    {s : TransportFactory N K} (left : ConnectionPool K → Prop)
    (adds : Meets (addServers config (setDifference (sort newServers) (sort s.initialServers))
      { s with connectionPool := { s.connectionPool with makes } }) (fun _ _ => True)
      (fun _ t => left t.connectionPool)) :
    Meets (updateServers config makes newServers s) (fun _ _ => True)
      (fun _ t => left t.connectionPool) := by
  have installs : Meets (installServers config (sort newServers) (sort s.initialServers)
      { s with connectionPool := { s.connectionPool with makes } }) (fun _ _ => True)
      (fun _ t => left t.connectionPool) := by
    simp only [installServers]
    split
    · trivial
    · refine adds.bind fun _ t _ => ?_
      have whole : Meets ((removeServers (setDifference (sort s.initialServers) (sort newServers))
          >>= fun _ => modify fun s => { s with initialServers := sort newServers })
          { t with balancer := t.balancer.setServers (sort newServers) }) (fun _ _ => True)
          (fun _ t => left t.connectionPool) :=
        ((removeServers_returns _ _).mono (fun _ _ => id) fun _ _ => False.elim).bind
          fun _ _ _ => trivial
      exact whole
  simp only [updateServers]
  cases result : installServers config (sort newServers) (sort s.initialServers)
      { s with connectionPool := { s.connectionPool with makes } } with
  | ok _ t => trivial
  | error e t =>
    rw [result] at installs
    exact installs

theorem updateServers_gains (makes : List (Option Exn)) (newServers : List K)
    (s : TransportFactory N K) :
    Meets (updateServers config makes newServers s) (fun _ _ => True)
      (fun _ t => Gains s.connectionPool t.connectionPool) := by
  have begun : Grows s.connectionPool { s.connectionPool with makes } := fun _ => id
  exact updateServers_of_addServers config (Gains s.connectionPool)
    (addServers_gains (s := { s with connectionPool := { s.connectionPool with makes } }) config
      begun _)

theorem install_gains (makes : List (Option Exn)) (address : Address → K) (cacheName : N)
    (newTopologyId : Int) (block : Block) (s : TransportFactory N K) :
    Meets (install config makes address cacheName newTopologyId block s) (fun _ _ => True)
      (fun _ t => Gains s.connectionPool t.connectionPool) :=
  (updateServers_gains config makes _ s).bind fun _ _ _ => trivial

/-! ### The whole of it -/

theorem onTransport_of_ok {call : ConnectionM A} {s : Client N K} {a : A} {transport : Connection}
    (returned : call s.transport = .ok a transport) :
    onTransport call s = .ok a { s with transport } := by
  rw [onTransport, returned]

theorem onTransport_of_error {call : ConnectionM A} {s : Client N K} {e : Exn}
    {transport : Connection} (raise : call s.transport = .error e transport) :
    onTransport call s = .error (.raised e) { s with transport } := by
  rw [onTransport, raise]

theorem getId_insert (topologyIds : SortedMap Nat Int) (own topology : Nat) (id : Int) :
    getId (topologyIds.insert topology id) own =
      if own = topology then id else getId topologyIds own := by
  rw [getId, SortedMap.get?_insert]
  split <;> rfl

-- With the block read, only a server that is new to the pool can fail.
theorem installing_gains (makes : List (Option Exn)) (address : Address → K) (cacheName : N)
    (topologyAge newTopologyId : Int) (block : Block) (s : Client N K) :
    Meets ((do
        let currentTopology ← onFactory (getTopologyId cacheName)
        if topologyAge = (← get).factory.topologyAge ∧ currentTopology ≠ newTopologyId then
          onFactory (install config makes address cacheName newTopologyId block) : ClientM N K PUnit)
        s) (fun _ _ => True)
      (fun _ t => Gains s.factory.connectionPool t.factory.connectionPool) := by
  have asked : ∃ topologyInfo, onFactory (getTopologyId cacheName) s =
      .ok (s.factory.topologyInfo.getTopologyId cacheName).1
        { s with factory := { s.factory with topologyInfo } } := ⟨_, rfl⟩
  obtain ⟨topologyInfo, asked⟩ := asked
  rw [bind_of_ok asked, bind_of_ok (get_apply _)]
  split
  · have installs := install_gains config makes address cacheName newTopologyId block
      { s.factory with topologyInfo }
    unfold onFactory
    simp only
    cases result : install config makes address cacheName newTopologyId block
        { s.factory with topologyInfo } with
    | ok _ factory => trivial
    | error e factory =>
      rw [result] at installs
      exact installs
  · trivial

/-- Whatever is in the block and wherever the reading or the installing of it fails, an
exception leaves the topology of a cache with its id sent exactly if the failure comes before
the installation and the id that is then sent is the installed one. -/
theorem untouched_iff (config : Configuration) (makes : List (Option Exn))
    (address : Address → K) (own topology : Nat) (cacheName requested : N) (topologyAge : Int)
    {s t : Client N K} {e : Exn}
    (raise : readNewTopologyAndHash config makes address topology requested topologyAge s =
      .error (.raised e) t) :
    Untouched own cacheName s t ↔ Harmless own topology cacheName s := by
  unfold Harmless
  cases id : readTopologyId s.transport with
  | error e' later =>
    rw [readNewTopologyAndHash, bind_of_error (onTransport_of_error id)] at raise
    cases raise
    exact ⟨Untouched.sent, fun sent => ⟨sent, fun _ => Iff.rfl, rfl, rfl, rfl⟩⟩
  | ok newTopologyId later =>
    rw [readNewTopologyAndHash, bind_of_ok (onTransport_of_ok id),
      bind_of_ok (modify_apply _ _)] at raise
    simp only
    rw [← getId_insert]
    cases rest : readBlock later with
    | error e' after =>
      rw [bind_of_error (onTransport_of_error rest)] at raise
      cases raise
      constructor
      · exact fun untouched => ⟨untouched.sent, fun no => by cases no⟩
      · rintro ⟨sent, -⟩
        exact ⟨sent, fun _ => Iff.rfl, rfl, rfl, rfl⟩
    | ok block after =>
      rw [bind_of_ok (onTransport_of_ok rest)] at raise
      refine iff_of_false (fun untouched => ?_) fun unread => unread.2 rfl
      have installs := installing_gains config makes address requested topologyAge newTopologyId
        block { s with
          topologyIds := s.topologyIds.insert topology newTopologyId, transport := after }
      rw [raise] at installs
      obtain ⟨key, there, new⟩ := installs
      exact new ((untouched.keys key).mp there)

/-- The cache 0 has the object 0. Its topology 1 is installed and its id is sent. The answer
that comes in has the id 2, and the server sends nothing after it. -/
def cutAfterId : Client Nat Nat where
  transport := { hostname := "node1", port := 11222, unread := [2], inTime := 1 }
  topologyIds := SortedMap.empty.insert 0 1
  factory := {
    balancer := { servers := [0] }
    initialServers := [0]
    topologyInfo := ({} : TopologyInfo Nat (Option Nat)).updateTopology [[some 0]] 1 3 0 1 }

/-- The later requests say 2. -/
theorem id_of_unread_topology_sent :
    ∃ t, readNewTopologyAndHash {} [] (fun a => a.2.toNat) 0 0 0 cutAfterId =
        .error (.raised (.throwIOErr "node1" 11222 "timeout")) t ∧
      getId cutAfterId.topologyIds 0 = 1 ∧ getId t.topologyIds 0 = 2 ∧
      installedId 0 t = 1 ∧ ¬ Untouched 0 0 cutAfterId t := by
  refine ⟨_, rfl, rfl, rfl, rfl, fun untouched => ?_⟩
  have sent : (2 : Int) = 1 := untouched.sent
  cases sent

theorem untouched_same_id :
    ∃ s t : Client Nat Nat,
      s = { cutAfterId with transport := { cutAfterId.transport with unread := [1] } } ∧
      readNewTopologyAndHash {} [] (fun a => a.2.toNat) 0 0 0 s =
        .error (.raised (.throwIOErr "node1" 11222 "timeout")) t ∧
      getId s.topologyIds 0 = installedId 0 s ∧ Untouched 0 0 s t := by
  refine ⟨_, _, rfl, rfl, rfl, (untouched_iff {} [] (fun a => a.2.toNat) 0 0 0 0 0 rfl).mpr ?_⟩
  exact ⟨rfl, fun no => by cases no⟩

end HotRod.Topology
