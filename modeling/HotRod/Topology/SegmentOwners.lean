import HotRod.Topology.TopologyInfo
import Mathlib.Data.List.Count
import Mathlib.Data.List.Sort

/-! The segments of each server: the owner table the other way round.

Both loops of `getSegmentsByServers` count in 32 bits, and the segments are put down as
signed numbers. -/

set_option autoImplicit false

namespace HotRod.Topology

variable {A : Type} [LinearOrder A]

namespace SegmentConsistentHash

/-- The loop over the owners of segment `i` from number `j` on, for a number of turns;
`none` if they do not suffice. -/
def ownersFrom (owners : List A) (i : UInt32) :
    Nat → UInt32 → SortedMap A (List Int32) → Option (SortedMap A (List Int32))
  | 0, _, _ => none
  | turns + 1, j, m =>
    match owners[j.toNat]? with
    | some owner => ownersFrom owners i turns (j + 1) (m.push owner i.toInt32)
    | none => some m

/-- The loop over the segments from number `i` on. -/
def segmentsFrom (segmentOwners : List (List A)) (inner : Nat) :
    Nat → UInt32 → SortedMap A (List Int32) → Option (SortedMap A (List Int32))
  | 0, _, _ => none
  | turns + 1, i, m =>
    match segmentOwners[i.toNat]? with
    | some owners =>
      match ownersFrom owners i inner 0 m with
      | some m => segmentsFrom segmentOwners inner turns (i + 1) m
      | none => none
    | none => some m

def getSegmentsByServers (hash : SegmentConsistentHash A) (turns : Nat) :
    Option (SortedMap A (List Int32)) :=
  segmentsFrom hash.segmentOwners turns turns 0 .empty

def Returns (hash : SegmentConsistentHash A) (m : SortedMap A (List Int32)) : Prop :=
  ∃ turns, hash.getSegmentsByServers turns = some m

end SegmentConsistentHash

/-! ### What it is to return -/

/-- The owners of every segment, none of them twice. -/
structure OwnerTable (A : Type) where
  segmentOwners : List (List A)
  distinct : ∀ owners ∈ segmentOwners, owners.Nodup

def segmentsOf (m : SortedMap A (List Int32)) (server : A) : List Int :=
  (m.listed server).map Int32.toInt

/-- The map has the table's segments, each at its owners. -/
structure Inverts (segmentOwners : List (List A)) (m : SortedMap A (List Int32)) : Prop where
  once : ∀ (i : Nat) (owners : List A), segmentOwners[i]? = some owners → ∀ server,
    (segmentsOf m server).count (i : Int) = if server ∈ owners then 1 else 0
  listed : ∀ server, ∀ segment ∈ segmentsOf m server,
    ∃ i < segmentOwners.length, segment = (i : Int)
  ascending : ∀ server, (segmentsOf m server).Pairwise (· < ·)
  keys : ∀ server, server ∈ m ↔ ∃ owners ∈ segmentOwners, server ∈ owners
  rebuilt : ∀ (i : Nat) (owners : List A), segmentOwners[i]? = some owners →
    {server | (i : Int) ∈ segmentsOf m server} = {server | server ∈ owners}

/-- What the counters and the numbers of the segments have room for. -/
structure Numbered (segmentOwners : List (List A)) : Prop where
  segments : segmentOwners.length < 2 ^ 32
  owners : ∀ owners ∈ segmentOwners, owners.length < 2 ^ 32
  signed : ∀ (i : Nat) (owners : List A), 2 ^ 31 ≤ i → segmentOwners[i]? = some owners → owners = []

/-! ### The loops -/

variable {segmentOwners : List (List A)} {owners : List A} {i j : UInt32} {inner turns : Nat}
  {m m' : SortedMap A (List Int32)}

theorem toNat_succ {n : Nat} (below : j.toNat < n) (bound : n < 2 ^ 32) :
    (j + 1).toNat = j.toNat + 1 := by
  rw [UInt32.toNat_add]
  exact Nat.mod_eq_of_lt (Nat.lt_of_le_of_lt (Nat.succ_le_of_lt below) bound)

namespace SegmentConsistentHash

theorem ownersFrom_eq (few : owners.length < 2 ^ 32) (enough : owners.length - j.toNat < turns) :
    ownersFrom owners i turns j m =
      some (m.pushAll ((owners.drop j.toNat).map fun owner => (owner, i.toInt32))) := by
  induction turns generalizing j m with
  | zero => cases enough
  | succ turns ih =>
    rw [ownersFrom]
    cases found : owners[j.toNat]? with
    | none =>
      rw [List.drop_eq_nil_of_le (List.getElem?_eq_none_iff.mp found)]
      rfl
    | some owner =>
      obtain ⟨below, here⟩ := List.getElem?_eq_some_iff.mp found
      have next := toNat_succ below few
      have later := ih (j := j + 1) (m := m.push owner i.toInt32) (by omega)
      simp only
      rw [later, List.drop_eq_getElem_cons below, here, next]
      rfl

-- A counter of 32 bits never gets past so many owners.
theorem ownersFrom_of_many (many : 2 ^ 32 ≤ owners.length) :
    ownersFrom owners i turns j m = none := by
  induction turns generalizing j m with
  | zero => rfl
  | succ turns ih =>
    have below : j.toNat < owners.length := Nat.lt_of_lt_of_le j.toNat_lt many
    rw [ownersFrom, List.getElem?_eq_getElem below]
    exact ih

theorem segmentsFrom_of_many (many : 2 ^ 32 ≤ segmentOwners.length) :
    segmentsFrom segmentOwners inner turns i m = none := by
  induction turns generalizing i m with
  | zero => rfl
  | succ turns ih =>
    have below : i.toNat < segmentOwners.length := Nat.lt_of_lt_of_le i.toNat_lt many
    rw [segmentsFrom, List.getElem?_eq_getElem below]
    simp only
    cases ownersFrom segmentOwners[i.toNat] i inner 0 m with
    | none => rfl
    | some m => exact ih

/-- The pairs that the loops put down from segment `i` on. -/
def pairsFrom (segmentOwners : List (List A)) (i : Nat) : List (A × Int32) :=
  ((segmentOwners.drop i).zipIdx i).flatMap fun (owners, i) =>
    owners.map fun owner => (owner, (UInt32.ofNat i).toInt32)

omit [LinearOrder A] in
theorem pairsFrom_cons {n : Nat} (below : n < segmentOwners.length) :
    pairsFrom segmentOwners n =
      segmentOwners[n].map (fun owner => (owner, (UInt32.ofNat n).toInt32)) ++
        pairsFrom segmentOwners (n + 1) := by
  rw [pairsFrom, List.drop_eq_getElem_cons below, List.zipIdx_cons, List.flatMap_cons, pairsFrom]

theorem segmentsFrom_eq (few : segmentOwners.length < 2 ^ 32)
    (owned : ∀ owners ∈ segmentOwners, owners.length < inner ∧ owners.length < 2 ^ 32)
    (enough : segmentOwners.length - i.toNat < turns) :
    segmentsFrom segmentOwners inner turns i m =
      some (m.pushAll (pairsFrom segmentOwners i.toNat)) := by
  induction turns generalizing i m with
  | zero => cases enough
  | succ turns ih =>
    rw [segmentsFrom]
    cases found : segmentOwners[i.toNat]? with
    | none =>
      have past := List.getElem?_eq_none_iff.mp found
      rw [pairsFrom, List.drop_eq_nil_of_le past]
      rfl
    | some owners =>
      obtain ⟨below, here⟩ := List.getElem?_eq_some_iff.mp found
      have next := toNat_succ below few
      obtain ⟨fuel, short⟩ := owned owners (here ▸ List.getElem_mem below)
      have whole : ownersFrom owners i inner 0 m =
          some (m.pushAll (owners.map fun owner => (owner, i.toInt32))) :=
        ownersFrom_eq short (Nat.lt_of_le_of_lt (Nat.sub_le _ _) fuel)
      simp only [whole]
      rw [ih (by omega), pairsFrom_cons below, here, SortedMap.pushAll_append, next,
        UInt32.ofNat_toNat]

theorem owners_of_segmentsFrom (few : segmentOwners.length < 2 ^ 32)
    (returned : segmentsFrom segmentOwners inner turns i m = some m') :
    ∀ owners ∈ segmentOwners.drop i.toNat, owners.length < 2 ^ 32 := by
  induction turns generalizing i m with
  | zero => cases returned
  | succ turns ih =>
    rw [segmentsFrom] at returned
    cases found : segmentOwners[i.toNat]? with
    | none =>
      rw [List.drop_eq_nil_of_le (List.getElem?_eq_none_iff.mp found)]
      intro owners member
      cases member
    | some owners =>
      obtain ⟨below, here⟩ := List.getElem?_eq_some_iff.mp found
      simp only [found] at returned
      cases inside : ownersFrom owners i inner 0 m with
      | none =>
        simp only [inside] at returned
        cases returned
      | some n =>
        simp only [inside] at returned
        intro other member
        rw [List.drop_eq_getElem_cons below, here, List.mem_cons] at member
        obtain rfl | later := member
        · by_contra many
          rw [ownersFrom_of_many (Nat.le_of_not_lt many)] at inside
          cases inside
        · rw [← toNat_succ below few] at later
          exact ih returned other later

end SegmentConsistentHash

/-! ### The segments of one server -/

section Owned

variable {C : Type} {server : A}

def ownedBy (segmentOwners : List (List A)) (server : A) : List Nat :=
  (segmentOwners.zipIdx.filter fun e => e.1.any fun owner => owner = server).map Prod.snd

theorem mem_ownedBy {n : Nat} :
    n ∈ ownedBy segmentOwners server ↔
      ∃ owners, segmentOwners[n]? = some owners ∧ server ∈ owners := by
  simp only [ownedBy, List.mem_map, List.mem_filter, List.mem_zipIdx_iff_getElem?, List.any_eq_true,
    decide_eq_true_eq, exists_eq_right, Prod.exists]

theorem ownedBy_ascending : (ownedBy segmentOwners server).Pairwise (· < ·) := by
  have all : (segmentOwners.zipIdx.map Prod.snd).Pairwise (· < ·) := by
    rw [List.zipIdx_map_snd]
    exact List.pairwise_lt_range'
  exact all.sublist (List.filter_sublist.map Prod.snd)

theorem ownedBy_nodup : (ownedBy segmentOwners server).Nodup :=
  ownedBy_ascending.imp ne_of_lt

theorem filter_owners (distinct : owners.Nodup) (c : C) :
    ((owners.map fun owner => (owner, c)).filter fun pair => pair.1 = server).map Prod.snd =
      if server ∈ owners then [c] else [] := by
  rw [List.filter_map, List.map_map]
  have same : (owners.filter fun owner => owner = server) =
      if server ∈ owners then [server] else [] := by
    rw [List.filter_eq, distinct.count]
    split <;> rfl
  have kept : (owners.filter
      ((fun pair : A × C => decide (pair.1 = server)) ∘ fun owner => (owner, c))) =
      owners.filter fun owner => owner = server := rfl
  rw [kept, same]
  split <;> rfl

theorem filter_pairs (server : A) (number : Nat → C) {listed : List (List A × Nat)}
    (distinct : ∀ e ∈ listed, e.1.Nodup) :
    ((listed.flatMap fun (owners, i) => owners.map fun owner => (owner, number i)).filter
      fun pair => pair.1 = server).map Prod.snd =
        (listed.filter fun e => e.1.any fun owner => owner = server).map fun e => number e.2 := by
  induction listed with
  | nil => rfl
  | cons e rest ih =>
    have later := ih fun other member => distinct other (List.mem_cons_of_mem _ member)
    rw [List.flatMap_cons, List.filter_append, List.map_append, later,
      filter_owners (distinct e List.mem_cons_self) (number e.2), List.filter_cons]
    by_cases mine : server ∈ e.1
    · simp [mine]
    · simp [mine]

theorem values_pairsFrom (distinct : ∀ owners ∈ segmentOwners, owners.Nodup) :
    ((SegmentConsistentHash.pairsFrom segmentOwners 0).filter fun pair => pair.1 = server).map
      Prod.snd = (ownedBy segmentOwners server).map fun i => (UInt32.ofNat i).toInt32 := by
  have each : ∀ e ∈ segmentOwners.zipIdx, e.1.Nodup := by
    intro e member
    exact distinct e.1 (List.fst_mem_of_mem_zipIdx member)
  have values := filter_pairs server (fun i => (UInt32.ofNat i).toInt32) each
  rw [SegmentConsistentHash.pairsFrom, List.drop_zero, values, ownedBy, List.map_map]
  rfl

omit [LinearOrder A] in
theorem exists_pairsFrom :
    (∃ number, (server, number) ∈ SegmentConsistentHash.pairsFrom segmentOwners 0) ↔
      ∃ owners ∈ segmentOwners, server ∈ owners := by
  rw [SegmentConsistentHash.pairsFrom, List.drop_zero]
  constructor
  · intro put
    obtain ⟨number, member⟩ := put
    obtain ⟨e, listed, here⟩ := List.mem_flatMap.mp member
    obtain ⟨owner, owns, same⟩ := List.mem_map.mp here
    cases same
    exact ⟨e.1, List.fst_mem_of_mem_zipIdx listed, owns⟩
  · intro owned
    obtain ⟨owners, listed, owns⟩ := owned
    obtain ⟨i, here⟩ := List.mem_iff_getElem?.mp listed
    refine ⟨(UInt32.ofNat i).toInt32, List.mem_flatMap.mpr ⟨(owners, i), ?_, ?_⟩⟩
    · exact List.mem_zipIdx_iff_getElem?.mpr here
    · exact List.mem_map.mpr ⟨server, owns, rfl⟩

end Owned

/-! ### The inversion -/

theorem toInt_segment {n : Nat} (small : n < 2 ^ 31) :
    (UInt32.ofNat n).toInt32.toInt = (n : Int) := by
  have value : (UInt32.ofNat n).toBitVec.toNat = n :=
    UInt32.toNat_ofNat_of_lt' (Nat.lt_trans small (by decide))
  have unsigned : (UInt32.ofNat n).toInt32.toInt = ((UInt32.ofNat n).toBitVec.toNat : Int) := by
    apply BitVec.toInt_eq_toNat_of_lt
    change 2 * (UInt32.ofNat n).toBitVec.toNat < 2 ^ 32
    rw [value]
    omega
  rw [unsigned, value]

namespace Numbered

variable (numbered : Numbered segmentOwners)
include numbered

theorem ownedBy_lt {server : A} {n : Nat} (owned : n ∈ ownedBy segmentOwners server) :
    n < 2 ^ 31 := by
  obtain ⟨owners, found, member⟩ := mem_ownedBy.mp owned
  by_contra large
  rw [numbered.signed n owners (Nat.le_of_not_lt large) found] at member
  cases member

theorem returns (numSegments : UInt32) :
    (SegmentConsistentHash.init segmentOwners numSegments).Returns
      (SortedMap.empty.pushAll (SegmentConsistentHash.pairsFrom segmentOwners 0)) := by
  refine ⟨2 ^ 32, ?_⟩
  have owned : ∀ owners ∈ segmentOwners, owners.length < 2 ^ 32 ∧ owners.length < 2 ^ 32 :=
    fun owners member => ⟨numbered.owners owners member, numbered.owners owners member⟩
  exact SegmentConsistentHash.segmentsFrom_eq numbered.segments owned
    (Nat.lt_of_le_of_lt (Nat.sub_le _ _) numbered.segments)

theorem segmentsOf_eq (distinct : ∀ owners ∈ segmentOwners, owners.Nodup) (server : A) :
    segmentsOf (SortedMap.empty.pushAll (SegmentConsistentHash.pairsFrom segmentOwners 0)) server =
      (ownedBy segmentOwners server).map fun i : Nat => (i : Int) := by
  have nothing : (SortedMap.empty : SortedMap A (List Int32)).listed server = [] := rfl
  rw [segmentsOf, SortedMap.listed_pushAll, nothing, List.nil_append, values_pairsFrom distinct,
    List.map_map]
  apply List.map_congr_left
  intro n owned
  exact toInt_segment (numbered.ownedBy_lt owned)

theorem inverts (distinct : ∀ owners ∈ segmentOwners, owners.Nodup) :
    Inverts segmentOwners
      (SortedMap.empty.pushAll (SegmentConsistentHash.pairsFrom segmentOwners 0)) where
  once i owners found server := by
    have injective : Function.Injective fun i : Nat => (i : Int) := fun _ _ => Int.ofNat.inj
    rw [numbered.segmentsOf_eq distinct, List.count_map_of_injective _ _ injective,
      ownedBy_nodup.count]
    apply if_congr ?_ rfl rfl
    rw [mem_ownedBy, found]
    simp
  listed server segment there := by
    rw [numbered.segmentsOf_eq distinct] at there
    obtain ⟨i, owned, rfl⟩ := List.mem_map.mp there
    obtain ⟨owners, found, -⟩ := mem_ownedBy.mp owned
    exact ⟨i, (List.getElem?_eq_some_iff.mp found).1, rfl⟩
  ascending server := by
    rw [numbered.segmentsOf_eq distinct, List.pairwise_map]
    exact ownedBy_ascending.imp Int.ofNat_lt.mpr
  keys server := by
    rw [SortedMap.mem_pushAll, exists_pairsFrom, or_iff_right SortedMap.not_mem_empty]
  rebuilt i owners found := by
    ext server
    have owned : i ∈ ownedBy segmentOwners server ↔ server ∈ owners := by
      rw [mem_ownedBy, found]
      simp
    change (i : Int) ∈ segmentsOf _ server ↔ server ∈ owners
    rw [numbered.segmentsOf_eq distinct, ← owned]
    exact List.mem_map_of_injective (f := fun i : Nat => (i : Int)) fun _ _ => Int.ofNat.inj

end Numbered

theorem segment_lt {server : A} {segment : Int} (listed : segment ∈ segmentsOf m server) :
    segment < 2 ^ 31 := by
  obtain ⟨number, -, rfl⟩ := List.mem_map.mp listed
  exact number.toInt_lt

theorem Inverts.signed (inverts : Inverts segmentOwners m) {n : Nat} (large : 2 ^ 31 ≤ n)
    (found : segmentOwners[n]? = some owners) : owners = [] := by
  rw [List.eq_nil_iff_forall_not_mem]
  intro server member
  have counted := inverts.once n owners found server
  rw [if_pos member] at counted
  have listed : (n : Int) ∈ segmentsOf m server := by
    rw [← List.count_pos_iff, counted]
    exact Nat.one_pos
  have bound := segment_lt listed
  omega

theorem numbered_of_inverts {numSegments : UInt32}
    (returns : (SegmentConsistentHash.init segmentOwners numSegments).Returns m)
    (inverts : Inverts segmentOwners m) : Numbered segmentOwners := by
  obtain ⟨turns, returned⟩ := returns
  have few : segmentOwners.length < 2 ^ 32 := by
    by_contra many
    have never : SegmentConsistentHash.segmentsFrom segmentOwners turns turns 0 .empty = none :=
      SegmentConsistentHash.segmentsFrom_of_many (Nat.le_of_not_lt many)
    rw [SegmentConsistentHash.getSegmentsByServers, SegmentConsistentHash.init, never] at returned
    cases returned
  exact ⟨few, SegmentConsistentHash.owners_of_segmentsFrom few returned,
    fun _ _ large found => inverts.signed large found⟩

/-- The call returns the table the other way round exactly if the counters get past its ends
and no owner is listed behind the segments that a signed number can have. -/
theorem segments_invert_iff (table : OwnerTable A) (numSegments : UInt32) :
    (∃ m, (SegmentConsistentHash.init table.segmentOwners numSegments).Returns m ∧
      Inverts table.segmentOwners m) ↔ Numbered table.segmentOwners := by
  constructor
  · intro returned
    obtain ⟨m, returns, inverts⟩ := returned
    exact numbered_of_inverts returns inverts
  · intro numbered
    exact ⟨_, numbered.returns numSegments, numbered.inverts table.distinct⟩

-- Segment 2^31 with an owner, and no others.
def manySegments : OwnerTable Nat where
  segmentOwners := List.replicate (2 ^ 31) [] ++ [[0]]
  distinct owners member := by
    obtain empty | last := List.mem_append.mp member
    · rw [List.eq_of_mem_replicate empty]
      exact List.nodup_nil
    · rw [List.mem_singleton.mp last]
      exact List.nodup_singleton 0

theorem not_inverted_of_many :
    ¬ ∃ m, (SegmentConsistentHash.init manySegments.segmentOwners 0x80000001).Returns m ∧
      Inverts manySegments.segmentOwners m := by
  intro returned
  obtain ⟨m, -, inverts⟩ := returned
  have found : manySegments.segmentOwners[2 ^ 31]? = some [0] := by
    have size : (List.replicate (2 ^ 31) ([] : List Nat)).length = 2 ^ 31 := List.length_replicate
    rw [manySegments, List.getElem?_append_right size.le, size, Nat.sub_self]
    rfl
  have none : [0] = ([] : List Nat) := inverts.signed (Nat.le_refl _) found
  cases none

end HotRod.Topology
