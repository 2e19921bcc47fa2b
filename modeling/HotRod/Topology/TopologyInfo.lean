import HotRod.Operations.RetryOnFailure
import HotRod.Topology.MurmurHash3

/-! `TopologyInfo` with its consistent hashes, and the balancer.

The list of servers that `TopologyInfo` refers to is the one of the transport
factory, so it is not repeated here. Cache names are the keys of ordered maps
and nothing else. -/

set_option autoImplicit false

namespace HotRod.Topology

open Operations (InetSocketAddress)

variable {N A : Type} [LinearOrder N]

structure SegmentConsistentHash (A : Type) where
  segmentOwners : List (List A)
  numSegments : UInt32
  segmentSize : UInt32
  deriving DecidableEq, Repr

namespace SegmentConsistentHash

def init (segmentOwners : List (List A)) (numSegments : UInt32) : SegmentConsistentHash A where
  segmentOwners
  numSegments
  segmentSize := getSegmentSize numSegments

def getServer (hash : SegmentConsistentHash A) (key : List UInt8) : Option A :=
  (hash.segmentOwners[(getNormalizedHash key / hash.segmentSize).toNat]?).bind List.head?

theorem exists_getServer {segmentOwners : List (List A)} {numSegments : UInt32}
    (positive : 0 < numSegments) (sized : segmentOwners.length = numSegments.toNat)
    (owned : ∀ owners ∈ segmentOwners, owners ≠ []) (key : List UInt8) :
    ∃ owner, (init segmentOwners numSegments).getServer key = some owner := by
  have inside : (getSegment numSegments key).toNat < segmentOwners.length :=
    sized ▸ getSegment_lt positive key
  have listed := owned _ (List.getElem_mem inside)
  obtain ⟨owner, rest, split⟩ := List.exists_cons_of_ne_nil listed
  refine ⟨owner, ?_⟩
  have found : segmentOwners[(getNormalizedHash key / getSegmentSize numSegments).toNat]? =
      some (owner :: rest) := split ▸ List.getElem?_eq_getElem inside
  simp only [getServer, init, found, Option.bind_some, List.head?_cons]

end SegmentConsistentHash

structure TopologyInfo (N A : Type) [LinearOrder N] where
  consistentHashByCacheName : SortedMap N (Option (SegmentConsistentHash A)) := SortedMap.empty
  segmentsByCache : SortedMap N UInt32 := SortedMap.empty
  topologyIdsByCache : SortedMap N Int := SortedMap.empty

namespace TopologyInfo

-- The insert keeps an id that is there; `updateTopology` then assigns the new one.
def createTopologyId (info : TopologyInfo N A) (cacheName : N) (id : Int) : TopologyInfo N A :=
  if cacheName ∈ info.topologyIdsByCache then info
  else { info with topologyIdsByCache := info.topologyIdsByCache.insert cacheName id }

-- The version of the hash function is not looked at.
def updateTopology (info : TopologyInfo N A) (segmentOwners : List (List A)) (numSegment : UInt32)
    (_hashFunctionVersion : UInt8) (cacheName : N) (topologyId : Int) : TopologyInfo N A :=
  let created := info.createTopologyId cacheName topologyId
  { consistentHashByCacheName := created.consistentHashByCacheName.insert cacheName
      (some (.init segmentOwners numSegment))
    segmentsByCache := created.segmentsByCache.insert cacheName numSegment
    topologyIdsByCache := created.topologyIdsByCache.insert cacheName topologyId }

-- `getCacheTopologyInfo(cacheName).getTopologyId()`; the subscripts insert zeros.
def getTopologyId (info : TopologyInfo N A) (cacheName : N) : Int × TopologyInfo N A :=
  let id := (info.topologyIdsByCache.get? cacheName).getD 0
  (id, { info with
    segmentsByCache := info.segmentsByCache.insert cacheName
      ((info.segmentsByCache.get? cacheName).getD 0)
    topologyIdsByCache := info.topologyIdsByCache.insert cacheName id })

/-- `InetSocketAddress()`, which `isEmpty` tells from the address of a server. -/
def emptyAddress : InetSocketAddress := ⟨"", 0⟩

-- Only a null pointer is followed: the test for it is the wrong way round.
def getHashAwareServer (info : TopologyInfo N InetSocketAddress) (_key : List UInt8)
    (cacheName : N) : Except Fault InetSocketAddress :=
  match info.consistentHashByCacheName.get? cacheName with
  | some none => .error .nullDereference
  | some (some _) => .ok emptyAddress
  | none => .ok emptyAddress

end TopologyInfo

structure RoundRobinBalancingStrategy (A : Type) where
  servers : List A := []
  index : Nat := 0
  deriving DecidableEq, Repr

namespace RoundRobinBalancingStrategy

variable [DecidableEq A]

-- The old index stays if it can.
def setServers (balancer : RoundRobinBalancingStrategy A) (servers : List A) :
    RoundRobinBalancingStrategy A where
  servers
  index := if servers.length ≤ balancer.index then 0 else balancer.index

/-- The loop of `nextServer` with that many turns left, on a list that its 32-bit counter can
count; `turnsFrom` counts with it. -/
def nextFrom (failedServers : List A) :
    Nat → RoundRobinBalancingStrategy A → Option A × RoundRobinBalancingStrategy A
  | 0, balancer => (none, balancer)
  | turns + 1, balancer =>
    let index := if balancer.servers.length ≤ balancer.index + 1 then 0 else balancer.index + 1
    match balancer.servers[index]? with
    | some server =>
      if server ∈ failedServers then nextFrom failedServers turns { balancer with index }
      else (some server, { balancer with index })
    -- a loop that takes a turn has a first server
    | none => (none, { balancer with index })

def nextServer (balancer : RoundRobinBalancingStrategy A) (failedServers : List A) :
    Option A × RoundRobinBalancingStrategy A :=
  nextFrom failedServers balancer.servers.length balancer

theorem nextFrom_congr {failed failed' : List A} (turns : Nat)
    {balancer : RoundRobinBalancingStrategy A}
    (same : ∀ server ∈ balancer.servers, server ∈ failed ↔ server ∈ failed') :
    nextFrom failed turns balancer = nextFrom failed' turns balancer := by
  induction turns generalizing balancer with
  | zero => rfl
  | succ turns ih =>
    simp only [nextFrom]
    split
    · rename_i server found
      have later : ∀ index, nextFrom failed turns { balancer with index } =
          nextFrom failed' turns { balancer with index } := fun index => ih same
      simp only [same server (List.mem_of_getElem? found), later]
    · rfl

theorem nextFrom_mem {failed : List A} {turns : Nat} {balancer : RoundRobinBalancingStrategy A}
    {server : A} (chosen : (nextFrom failed turns balancer).1 = some server) :
    server ∈ balancer.servers := by
  induction turns generalizing balancer with
  | zero => cases chosen
  | succ turns ih =>
    simp only [nextFrom] at chosen
    split at chosen
    · rename_i other found
      split at chosen
      · have later : server ∈ RoundRobinBalancingStrategy.servers { balancer with index := _ } :=
          ih chosen
        exact later
      · cases chosen
        exact List.mem_of_getElem? found
    · cases chosen

theorem nextFrom_servers (failed : List A) (turns : Nat) (balancer : RoundRobinBalancingStrategy A) :
    (nextFrom failed turns balancer).2.servers = balancer.servers := by
  induction turns generalizing balancer with
  | zero => rfl
  | succ turns ih =>
    simp only [nextFrom]
    split
    · split
      · exact ih _
      · rfl
    · rfl

end RoundRobinBalancingStrategy

/-! ### `TransportFactory::getTransport` -/

variable [DecidableEq A]

/-- The server whose pool is asked for a transport of a key. An empty address makes
the balancer choose. -/
def serverForKey (info : TopologyInfo N InetSocketAddress)
    (balancer : RoundRobinBalancingStrategy InetSocketAddress)
    (failedServers : List InetSocketAddress) (key : List UInt8) (cacheName : N) :
    Except Fault (Option InetSocketAddress) :=
  match info.getHashAwareServer key cacheName with
  | .error fault => .error fault
  | .ok server =>
    if server = TopologyInfo.emptyAddress then .ok (balancer.nextServer failedServers).1
    else .ok (some server)

-- `AbstractKeyOperation::getTransport`: only the first attempt looks at the key.
def serverForAttempt (info : TopologyInfo N InetSocketAddress)
    (balancer : RoundRobinBalancingStrategy InetSocketAddress) (retryCount : Nat)
    (failedServers : List InetSocketAddress) (key : List UInt8) (cacheName : N) :
    Except Fault (Option InetSocketAddress) :=
  if retryCount = 0 then serverForKey info balancer failedServers key cacheName
  else .ok (balancer.nextServer failedServers).1

end HotRod.Topology
