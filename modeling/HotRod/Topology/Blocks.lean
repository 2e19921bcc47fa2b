import HotRod.Topology.NewTopology
import HotRod.Topology.Routing

/-! Topology blocks as they come from the network: the accesses that are made while a
block is read and taken over, and the routing of keys after that.

The code checks neither a member index nor the number of segments it divides by. What
C++ leaves undefined there is a `Hazard` here. -/

set_option autoImplicit false

namespace HotRod.Topology

open Semantics.Execution HotRod.Protocol
open Operations (InetSocketAddress)

variable {N A : Type} [LinearOrder N]

inductive Hazard where
  | divisionByZero
  | outOfRange
  deriving DecidableEq, Repr

-- `addresses[memberIndex]`; reading has left `none` where the index is outside.
def memberAt : Option A → Except Hazard A
  | some a => .ok a
  | none => .error .outOfRange

def Block.members (block : Block) : Except Hazard (List (List Address)) :=
  block.segmentOwners.mapM fun owners => owners.mapM memberAt

-- `getSegmentSize(numSegments)` with its division.
def segmentSizeOf (numSegments : UInt32) : Except Hazard UInt32 :=
  if numSegments = 0 then .error .divisionByZero else .ok (getSegmentSize numSegments)

/-- `updateHashFunction` of the owners that have been read. `address` builds the
`InetSocketAddress` of a host and a port. -/
def Block.takeOver (block : Block) (address : Address → A) (cacheName : N) (topologyId : Int)
    (info : TopologyInfo N A) : Except Hazard (TopologyInfo N A) := do
  let segmentOwners ← block.members
  let _ ← segmentSizeOf block.numSegments
  pure (info.updateTopology (segmentOwners.map (List.map address)) block.numSegments
    block.hashFunctionVersion cacheName topologyId)

/-- Every member index is inside the address list. -/
def Block.Contained (block : Block) : Prop := ∀ owners ∈ block.segmentOwners, none ∉ owners

/-- The first owner of the key's segment, if the topology has the segment and the
segment an owner. -/
def Block.ownerOf (block : Block) (key : List UInt8) : Option (Option Address) :=
  (block.segmentOwners[(getSegment block.numSegments key).toNat]?).bind List.head?

/-- A block with an index outside the addresses is rejected. Any other is taken over
without a hazard, and then every key is routed somewhere; without an owner for its
segment it goes where the balancer says. -/
structure Handled (info : TopologyInfo N InetSocketAddress)
    (balancer : RoundRobinBalancingStrategy InetSocketAddress)
    (failedServers : List InetSocketAddress) (address : Address → InetSocketAddress)
    (cacheName : N) (topologyId : Int) (s : Connection) (block : Block) : Prop where
  rejected : ¬ block.Contained → ∃ e t, readBlock s = .error e t
  takenOver : block.Contained → ∃ installed,
    block.takeOver address cacheName topologyId info = .ok installed ∧
    ∀ key, (∃ server, serverForAttempt installed balancer 0 failedServers key cacheName =
        .ok server) ∧
      (block.ownerOf key = none →
        serverForAttempt installed balancer 0 failedServers key cacheName =
          .ok (balancer.nextServer failedServers).1)

/-! ### Members and owners -/

theorem memberAt_eq_ok {member : Option A} {a : A} : memberAt member = .ok a ↔ member = some a := by
  cases member with
  | none => simp [memberAt]
  | some b => simp [memberAt]

theorem exists_memberAt {member : Option A} : (∃ a, memberAt member = .ok a) ↔ member ≠ none := by
  simp only [memberAt_eq_ok, Option.ne_none_iff_exists']

theorem exists_members {block : Block} : (∃ owners, block.members = .ok owners) ↔ block.Contained := by
  unfold Block.members Block.Contained
  rw [exists_mapM_eq_ok]
  simp only [exists_mapM_eq_ok, exists_memberAt]
  constructor
  · exact fun inside owners segment outside => inside owners segment none outside rfl
  · exact fun inside owners segment member listed missing => inside owners segment (missing ▸ listed)

theorem exists_segmentSize {numSegments : UInt32} :
    (∃ size, segmentSizeOf numSegments = .ok size) ↔ numSegments ≠ 0 := by
  unfold segmentSizeOf
  split <;> simp_all

variable {info : TopologyInfo N A} {address : Address → A} {cacheName : N} {topologyId : Int}

theorem exists_takeOver {block : Block} :
    (∃ installed, block.takeOver address cacheName topologyId info = .ok installed) ↔
      block.Contained ∧ block.numSegments ≠ 0 := by
  rw [← exists_members, ← exists_segmentSize]
  unfold Block.takeOver
  cases block.members with
  | error hazard => simp [bind, Except.bind]
  | ok owners =>
    cases segmentSizeOf block.numSegments with
    | error hazard => simp [bind, Except.bind]
    | ok size => simp [bind, Except.bind, pure, Except.pure]

theorem takeOver_installs {block : Block} {installed : TopologyInfo N A}
    (taken : block.takeOver address cacheName topologyId info = .ok installed) :
    ∃ hash, installed.consistentHashByCacheName.get? cacheName = some (some hash) := by
  unfold Block.takeOver at taken
  cases members : block.members with
  | error hazard => simp [members, bind, Except.bind] at taken
  | ok owners =>
    cases size : segmentSizeOf block.numSegments with
    | error hazard => simp [members, size, bind, Except.bind] at taken
    | ok _ =>
      simp only [members, size, bind, Except.bind, pure, Except.pure, Except.ok.injEq] at taken
      subst taken
      exact ⟨_, SortedMap.get?_insert_self _ _ _⟩

/-! ### Every block that parses -/

section Parsed

variable {info : TopologyInfo N InetSocketAddress} {address : Address → InetSocketAddress}
  {balancer : RoundRobinBalancingStrategy InetSocketAddress}
  {failedServers : List InetSocketAddress}

theorem not_handled {s t : Connection} {block : Block} {hazard : Hazard}
    (parses : readBlock s = .ok block t)
    (falls : block.takeOver address cacheName topologyId info = .error hazard) :
    ¬ Handled info balancer failedServers address cacheName topologyId s block := by
  intro handled
  by_cases contained : block.Contained
  · obtain ⟨installed, taken, -⟩ := handled.takenOver contained
    rw [falls] at taken
    cases taken
  · obtain ⟨e, u, raise⟩ := handled.rejected contained
    rw [parses] at raise
    cases raise

end Parsed

/-- Whatever bytes a block was read from: it is handled as it should be exactly if
every member index is inside the address list and there is a segment. -/
theorem handled_iff (info : TopologyInfo N InetSocketAddress)
    (balancer : RoundRobinBalancingStrategy InetSocketAddress)
    (failedServers : List InetSocketAddress) (address : Address → InetSocketAddress)
    (cacheName : N) (topologyId : Int) {s t : Connection} {block : Block}
    (parses : readBlock s = .ok block t) :
    Handled info balancer failedServers address cacheName topologyId s block ↔
      block.Contained ∧ block.numSegments ≠ 0 := by
  constructor
  · intro handled
    cases result : block.takeOver address cacheName topologyId info with
    | error hazard => exact absurd handled (not_handled parses result)
    | ok installed => exact exists_takeOver.mp ⟨installed, result⟩
  · rintro ⟨contained, segmented⟩
    obtain ⟨installed, taken⟩ : ∃ installed,
        block.takeOver address cacheName topologyId info = .ok installed :=
      exists_takeOver.mpr ⟨contained, segmented⟩
    obtain ⟨hash, found⟩ := takeOver_installs taken
    have routed := serverForAttempt_of_installed found balancer 0 failedServers
    refine ⟨fun outside => absurd contained outside, fun _ => ⟨installed, taken, fun key => ?_⟩⟩
    exact ⟨⟨_, routed key⟩, fun _ => routed key⟩

/-! ### Blocks on the wire -/

def encodeAddress (address : Address) : List UInt8 :=
  WireFormat.array.encode address.1 ++ WireFormat.unsignedShort.encode address.2

def encodeOwners (indices : List UInt32) : List UInt8 :=
  UInt8.ofNat indices.length :: indices.flatMap WireFormat.vInt.encode

def encodeBlock (addresses : List Address) (hashFunctionVersion : UInt8)
    (indices : List (List UInt32)) : List UInt8 :=
  writeVInt (UInt32.ofNat addresses.length) ++ (addresses.flatMap encodeAddress ++
    (hashFunctionVersion :: (writeVInt (UInt32.ofNat indices.length) ++
      indices.flatMap encodeOwners)))

def blockAt (addresses : List Address) (hashFunctionVersion : UInt8)
    (indices : List (List UInt32)) : Block where
  addresses
  hashFunctionVersion
  numSegments := UInt32.ofNat indices.length
  segmentOwners := indices.map (List.map fun index => addresses[index.toNat]?)

theorem consumes_readAddress (address : Address) :
    Consumes readAddress (encodeAddress address) address :=
  (consumes_read WireFormat.array address.1).bind
    ((consumes_read WireFormat.unsignedShort address.2).map fun port => (address.1, port))

theorem consumes_readOwners (addresses : List Address) {indices : List UInt32}
    (few : indices.length < 2 ^ 8) :
    Consumes (readOwners addresses) (encodeOwners indices)
      (indices.map fun index => addresses[index.toNat]?) := by
  have size : (UInt8.ofNat indices.length).toNat = indices.length :=
    UInt8.toNat_ofNat_of_lt' few
  have one : ∀ index ∈ indices, Consumes (do
      let memberIndex ← readVInt
      pure addresses[memberIndex.toNat]?) (WireFormat.vInt.encode index)
      addresses[index.toNat]? :=
    fun index _ => (consumes_read WireFormat.vInt index).map fun index => addresses[index.toNat]?
  refine (consumes_read WireFormat.byte (UInt8.ofNat indices.length)).bind ?_
  rw [size]
  exact consumes_readMany one

theorem consumes_readBlock {addresses : List Address} {hashFunctionVersion : UInt8}
    {indices : List (List UInt32)} (hashed : 0 < hashFunctionVersion)
    (listed : addresses.length < 2 ^ 32) (segments : indices.length < 2 ^ 32)
    (few : ∀ owners ∈ indices, owners.length < 2 ^ 8) :
    Consumes readBlock (encodeBlock addresses hashFunctionVersion indices)
      (blockAt addresses hashFunctionVersion indices) := by
  have clusterSize : (UInt32.ofNat addresses.length).toNat = addresses.length :=
    UInt32.toNat_ofNat_of_lt' listed
  have numSegments : (UInt32.ofNat indices.length).toNat = indices.length :=
    UInt32.toNat_ofNat_of_lt' segments
  have known : Consumes (readMany readAddress addresses.length)
      (addresses.flatMap encodeAddress) (addresses.map id) :=
    consumes_readMany fun address _ => consumes_readAddress address
  have owned : Consumes (readMany (readOwners addresses) indices.length)
      (indices.flatMap encodeOwners)
      (indices.map (List.map fun index => addresses[index.toNat]?)) :=
    consumes_readMany fun owners member => consumes_readOwners addresses (few owners member)
  rw [List.map_id] at known
  refine (consumes_read WireFormat.vInt (UInt32.ofNat addresses.length)).bind ?_
  rw [clusterSize]
  refine known.bind ?_
  refine (consumes_read WireFormat.byte hashFunctionVersion).bind ?_
  refine (consumes_read WireFormat.vInt (UInt32.ofNat indices.length)).bind ?_
  rw [readSegments, if_pos hashed, numSegments]
  exact owned.map fun segmentOwners =>
    Block.mk addresses hashFunctionVersion (UInt32.ofNat indices.length) segmentOwners

/-! ### Blocks of one server -/

def arrived (bytes : List UInt8) : Connection where
  hostname := "node1"
  port := 11222
  unread := bytes
  inTime := bytes.length

-- `InetSocketAddress(host, port)`; the port is signed there.
def socketAddress (address : Address) : InetSocketAddress :=
  .new (text address.1.1) address.2.toInt16.toInt

def node : Address := (⟨[97], by decide⟩, 11222)

theorem readBlock_one_owner (index : UInt32) :
    ∃ t, readBlock (arrived (encodeBlock [node] 3 [[index]])) =
      .ok (blockAt [node] 3 [[index]]) t := by
  have consumes : Consumes readBlock (encodeBlock [node] 3 [[index]])
      (blockAt [node] 3 [[index]]) := by
    refine consumes_readBlock (by decide) (by decide) (show 1 < 2 ^ 32 by decide) ?_
    intro owners member
    rw [List.mem_singleton.mp member]
    exact show 1 < 2 ^ 8 by decide
  exact ⟨_, consumes.of_came (List.append_nil _).symm (Nat.le_refl _)⟩

/-- A server without a hash function sends no segments, and the code divides by their
number. A member index of 5 is looked up among one address. -/
theorem blocks_not_handled :
    (∃ block t, readBlock (arrived [1, 1, 97, 43, 214, 0, 0]) = .ok block t ∧
      block.takeOver socketAddress 0 1 ({} : TopologyInfo Nat InetSocketAddress) =
        .error .divisionByZero ∧
      ¬ Handled ({} : TopologyInfo Nat InetSocketAddress) {} [] socketAddress 0 1
        (arrived [1, 1, 97, 43, 214, 0, 0]) block) ∧
    ∃ block t, readBlock (arrived (encodeBlock [node] 3 [[5]])) = .ok block t ∧
      block.takeOver socketAddress 0 1 ({} : TopologyInfo Nat InetSocketAddress) =
        .error .outOfRange ∧
      ¬ Handled ({} : TopologyInfo Nat InetSocketAddress) {} [] socketAddress 0 1
        (arrived (encodeBlock [node] 3 [[5]])) block := by
  constructor
  · exact ⟨_, _, rfl, rfl, not_handled rfl rfl⟩
  · obtain ⟨t, parses⟩ := readBlock_one_owner 5
    exact ⟨_, t, parses, rfl, not_handled parses rfl⟩

theorem handled_iff_one_owner :
    ∃ block t, readBlock (arrived (encodeBlock [node] 3 [[0]])) = .ok block t ∧
      (Handled ({} : TopologyInfo Nat InetSocketAddress) {} [] socketAddress 0 1
        (arrived (encodeBlock [node] 3 [[0]])) block ↔
          block.Contained ∧ block.numSegments ≠ 0) := by
  obtain ⟨t, parses⟩ := readBlock_one_owner 0
  exact ⟨_, t, parses, handled_iff {} {} [] socketAddress 0 1 parses⟩

end HotRod.Topology
