import HotRod.Topology.TopologyInfo

/-! Routing of key operations: the owner the topology names, and the server that
is asked. -/

set_option autoImplicit false

namespace HotRod.Topology

open Operations (InetSocketAddress)

variable {N : Type} [LinearOrder N]

open TopologyInfo (emptyAddress)

def RoutesTo (info : TopologyInfo N InetSocketAddress)
    (balancer : RoundRobinBalancingStrategy InetSocketAddress)
    (failedServers : List InetSocketAddress) (key : List UInt8) (cacheName : N)
    (server : InetSocketAddress) : Prop :=
  info.getHashAwareServer key cacheName = .ok server ∧
    serverForAttempt info balancer 0 failedServers key cacheName = .ok (some server)

theorem getHashAwareServer_of_installed {info : TopologyInfo N InetSocketAddress} {cacheName : N}
    {hash : SegmentConsistentHash InetSocketAddress}
    (installed : info.consistentHashByCacheName.get? cacheName = some (some hash))
    (key : List UInt8) : info.getHashAwareServer key cacheName = .ok emptyAddress := by
  simp only [TopologyInfo.getHashAwareServer, installed]

theorem serverForAttempt_of_installed {info : TopologyInfo N InetSocketAddress} {cacheName : N}
    {hash : SegmentConsistentHash InetSocketAddress}
    (installed : info.consistentHashByCacheName.get? cacheName = some (some hash))
    (balancer : RoundRobinBalancingStrategy InetSocketAddress) (retryCount : Nat)
    (failedServers : List InetSocketAddress) (key : List UInt8) :
    serverForAttempt info balancer retryCount failedServers key cacheName =
      .ok (balancer.nextServer failedServers).1 := by
  unfold serverForAttempt
  split
  · simp only [serverForKey, getHashAwareServer_of_installed installed, if_true]
  · rfl

/-- Whatever topology is installed, a key operation is routed to the first owner of
the key's segment exactly if that owner is the empty address and the balancer
chooses it. -/
theorem routed_to_owner_iff (info : TopologyInfo N InetSocketAddress)
    (segmentOwners : List (List InetSocketAddress)) (numSegments : UInt32)
    (hashFunctionVersion : UInt8) (cacheName : N) (topologyId : Int)
    (balancer : RoundRobinBalancingStrategy InetSocketAddress)
    (failedServers : List InetSocketAddress) (key : List UInt8) (positive : 1 ≤ numSegments)
    (sized : segmentOwners.length = numSegments.toNat)
    (owned : ∀ owners ∈ segmentOwners, owners ≠ []) :
    ∃ owner, (segmentOwners[(getSegment numSegments key).toNat]?).bind List.head? = some owner ∧
      (RoutesTo (info.updateTopology segmentOwners numSegments hashFunctionVersion cacheName
          topologyId) balancer failedServers key cacheName owner ↔
        owner = emptyAddress ∧ (balancer.nextServer failedServers).1 = some emptyAddress) := by
  have some_segment : 0 < numSegments := by
    rw [UInt32.lt_iff_toNat_lt]
    exact UInt32.le_iff_toNat_le.mp positive
  obtain ⟨owner, found⟩ := SegmentConsistentHash.exists_getServer some_segment sized owned key
  refine ⟨owner, found, ?_⟩
  have installed : (info.updateTopology segmentOwners numSegments hashFunctionVersion cacheName
      topologyId).consistentHashByCacheName.get? cacheName =
        some (some (.init segmentOwners numSegments)) := SortedMap.get?_insert_self _ _ _
  rw [RoutesTo, getHashAwareServer_of_installed installed,
    serverForAttempt_of_installed installed]
  constructor
  · rintro ⟨same, chosen⟩
    cases same
    cases chosen' : (balancer.nextServer failedServers).1 with
    | none =>
      rw [chosen'] at chosen
      cases chosen
    | some server =>
      rw [chosen'] at chosen
      cases chosen
      exact ⟨rfl, rfl⟩
  · rintro ⟨rfl, chosen⟩
    rw [chosen]
    exact ⟨rfl, rfl⟩

def twoOwners : List (List InetSocketAddress) :=
  [[⟨"10.0.0.1", 11222⟩], [⟨"10.0.0.2", 11222⟩]]

def twoServers : RoundRobinBalancingStrategy InetSocketAddress where
  servers := [⟨"10.0.0.1", 11222⟩, ⟨"10.0.0.2", 11222⟩]

/-- A key of the first segment is looked up in vain, and its first request goes to
the other server. -/
theorem key_routed_elsewhere :
    (twoOwners[(getSegment 2 [1]).toNat]?).bind List.head? = some ⟨"10.0.0.1", 11222⟩ ∧
    (({} : TopologyInfo Nat InetSocketAddress).updateTopology twoOwners 2 3 0 1).getHashAwareServer
      [1] 0 = .ok emptyAddress ∧
    serverForAttempt (({} : TopologyInfo Nat InetSocketAddress).updateTopology twoOwners 2 3 0 1)
      twoServers 0 [] [1] 0 = .ok (some ⟨"10.0.0.2", 11222⟩) ∧
    ¬ RoutesTo (({} : TopologyInfo Nat InetSocketAddress).updateTopology twoOwners 2 3 0 1)
      twoServers [] [1] 0 ⟨"10.0.0.1", 11222⟩ := by
  refine ⟨by decide +kernel, rfl, rfl, ?_⟩
  rintro ⟨found, -⟩
  have same : emptyAddress = ⟨"10.0.0.1", 11222⟩ := Except.ok.inj found
  revert same
  decide

theorem routed_to_owner_two :
    ∃ owner, (twoOwners[(getSegment 2 [1]).toNat]?).bind List.head? = some owner ∧
      (RoutesTo (({} : TopologyInfo Nat InetSocketAddress).updateTopology twoOwners 2 3 0 1)
        twoServers [] [1] 0 owner ↔
        owner = emptyAddress ∧ (twoServers.nextServer []).1 = some emptyAddress) := by
  refine routed_to_owner_iff {} twoOwners 2 3 0 1 twoServers [] [1] (by decide) rfl ?_
  intro owners member empty
  subst empty
  revert member
  decide

end HotRod.Topology
