import Mathlib.Data.List.AList

/-! Finite maps whose order of iteration does not matter.

They are association lists with distinct keys. A map that finds exactly the pairs of a
list holds them, in some order. -/

set_option autoImplicit false

abbrev FiniteMap (K V : Type) := AList fun _ : K => V

namespace FiniteMap

variable {K V A : Type} {listed : List (K × V)}

def pairs (m : FiniteMap K V) : List (K × V) := m.entries.map fun e => (e.1, e.2)

theorem pairs_of_entries {m : FiniteMap K V} {entries : List (Sigma fun _ : K => V)}
    (same : m.entries = entries) : m.pairs = entries.map fun e => (e.1, e.2) := by
  rw [pairs, same]

theorem map_fst_pairs (m : FiniteMap K V) : m.pairs.map Prod.fst = m.keys := by
  simp only [pairs, List.map_map, AList.keys, List.keys]
  rfl

theorem eq_of_keys_nodup (distinct : (listed.map Prod.fst).Nodup) {k : K} {v w : V}
    (first : (k, v) ∈ listed) (second : (k, w) ∈ listed) : v = w := by
  have same : (k, v) = (k, w) := List.inj_on_of_nodup_map distinct first second rfl
  exact congrArg Prod.snd same

variable [DecidableEq K]

theorem mem_pairs {m : FiniteMap K V} {k : K} {v : V} : (k, v) ∈ m.pairs ↔ v ∈ m.lookup k := by
  rw [AList.mem_lookup_iff, pairs, List.mem_map]
  constructor
  · intro found
    obtain ⟨e, member, same⟩ := found
    cases same
    exact member
  · intro member
    exact ⟨⟨k, v⟩, member, rfl⟩

/-- The map finds exactly the values of the list. -/
def Holds (m : FiniteMap K V) (listed : List (K × V)) : Prop :=
  ∀ k v, v ∈ m.lookup k ↔ (k, v) ∈ listed

theorem Holds.pairs_perm {m : FiniteMap K V} (holds : m.Holds listed)
    (distinct : (listed.map Prod.fst).Nodup) : m.pairs.Perm listed := by
  have kept : m.pairs.Nodup := by
    apply List.Nodup.of_map Prod.fst
    rw [map_fst_pairs]
    exact m.keys_nodup
  rw [List.perm_ext_iff_of_nodup kept (List.Nodup.of_map _ distinct)]
  intro pair
  obtain ⟨k, v⟩ := pair
  rw [mem_pairs, holds]

/-! ### Assignments -/

-- `result[key] = value` for one pair after the other.
def assign (m : FiniteMap K V) (listed : List (K × V)) : FiniteMap K V :=
  listed.foldl (fun result pair => result.insert pair.1 pair.2) m

theorem mem_lookup_assign (distinct : (listed.map Prod.fst).Nodup) (m : FiniteMap K V) (k : K)
    (v : V) : v ∈ (m.assign listed).lookup k ↔
      (k, v) ∈ listed ∨ k ∉ listed.map Prod.fst ∧ v ∈ m.lookup k := by
  induction listed generalizing m with
  | nil => simp [assign]
  | cons pair rest ih =>
    obtain ⟨a, b⟩ := pair
    obtain ⟨fresh, distinct⟩ := List.nodup_cons.mp distinct
    have later := ih distinct (m.insert a b)
    rw [assign] at later
    rw [assign, List.foldl_cons, later, List.mem_cons, List.map_cons, List.mem_cons]
    by_cases same : k = a
    · -- a key that is assigned here is not assigned again
      subst same
      have absent : (k, v) ∉ rest := by
        intro member
        have listed : k ∈ rest.map Prod.fst := List.mem_map_of_mem (f := Prod.fst) member
        exact fresh listed
      rw [AList.lookup_insert]
      simp [absent, fresh, eq_comm]
    · rw [AList.lookup_insert_ne same]
      simp [same]

theorem holds_assign (distinct : (listed.map Prod.fst).Nodup) :
    Holds (assign ∅ listed) listed := by
  intro k v
  rw [mem_lookup_assign distinct, AList.lookup_empty]
  simp

/-! ### Unions -/

/-- What the map finds is in the list. -/
def Within (m : FiniteMap K V) (listed : List (K × V)) : Prop :=
  ∀ k v, v ∈ m.lookup k → (k, v) ∈ listed

theorem within_empty : Within (∅ : FiniteMap K V) listed := by
  intro k v found
  rw [AList.lookup_empty] at found
  cases found

-- Two maps within one list agree, so that a union keeps what either finds.
theorem mem_lookup_union (distinct : (listed.map Prod.fst).Nodup) {m n : FiniteMap K V}
    (first : m.Within listed) (second : n.Within listed) (k : K) (v : V) :
    v ∈ (m ∪ n).lookup k ↔ v ∈ m.lookup k ∨ v ∈ n.lookup k := by
  rw [AList.mem_lookup_union]
  constructor
  · intro found
    exact found.imp_right And.right
  · intro found
    obtain found | found := found
    · exact .inl found
    · by_cases present : k ∈ m
      · -- the first map wins, with the same value
        obtain ⟨w, present⟩ := Option.isSome_iff_exists.mp (AList.lookup_isSome.mpr present)
        have same : w = v := eq_of_keys_nodup distinct (first k w present) (second k v found)
        exact .inl (same ▸ present)
      · exact .inr ⟨present, found⟩

theorem Within.union (distinct : (listed.map Prod.fst).Nodup) {m n : FiniteMap K V}
    (first : m.Within listed) (second : n.Within listed) : Within (m ∪ n) listed := by
  intro k v found
  obtain found | found := (mem_lookup_union distinct first second k v).mp found
  · exact first k v found
  · exact second k v found

/-! ### Groups -/

section Groups

variable {G : Type} [DecidableEq G] (owner : A → G)

-- `groups[owner(key)].insert(key)`.
def enter (groups : FiniteMap G (List A)) (key : A) : FiniteMap G (List A) :=
  groups.insert (owner key) (key :: (groups.lookup (owner key)).getD [])

def groupBy (keys : List A) : FiniteMap G (List A) := keys.foldl (enter owner) ∅

theorem mem_enter (groups : FiniteMap G (List A)) (key k : A) (g : G) :
    k ∈ ((enter owner groups key).lookup g).getD [] ↔
      k = key ∧ owner key = g ∨ k ∈ (groups.lookup g).getD [] := by
  by_cases same : g = owner key
  · subst same
    rw [enter, AList.lookup_insert, Option.getD_some, List.mem_cons]
    simp
  · rw [enter, AList.lookup_insert_ne same]
    simp [Ne.symm same]

theorem mem_groupBy (keys : List A) (k : A) (g : G) :
    k ∈ ((groupBy owner keys).lookup g).getD [] ↔ k ∈ keys ∧ owner k = g := by
  have entered : ∀ groups : FiniteMap G (List A),
      k ∈ ((keys.foldl (enter owner) groups).lookup g).getD [] ↔
        (k ∈ keys ∧ owner k = g) ∨ k ∈ (groups.lookup g).getD [] := by
    induction keys with
    | nil => simp
    | cons key keys ih =>
      intro groups
      rw [List.foldl_cons, ih, mem_enter, List.mem_cons]
      by_cases same : k = key
      · subst same
        by_cases owned : owner k = g
        · simp [owned]
        · simp [owned]
      · simp [same]
  rw [groupBy, entered ∅, AList.lookup_empty]
  simp

-- No group is empty.
def Filled (groups : FiniteMap G (List A)) : Prop := ∀ g, ∀ keys ∈ groups.lookup g, keys ≠ []

theorem Filled.enter {groups : FiniteMap G (List A)} (filled : Filled groups) (key : A) :
    Filled (enter owner groups key) := by
  intro g keys found
  by_cases same : g = owner key
  · subst same
    rw [FiniteMap.enter, AList.lookup_insert, Option.mem_some_iff] at found
    subst found
    exact List.cons_ne_nil _ _
  · rw [FiniteMap.enter, AList.lookup_insert_ne same] at found
    exact filled g keys found

theorem filled_groupBy (keys : List A) : Filled (groupBy owner keys) := by
  have filled : ∀ groups : FiniteMap G (List A), Filled groups →
      Filled (keys.foldl (FiniteMap.enter owner) groups) := by
    induction keys with
    | nil => exact fun groups filled => filled
    | cons key keys ih => exact fun groups filled => ih _ (filled.enter owner key)
  apply filled
  intro g members found
  rw [AList.lookup_empty] at found
  cases found

theorem exists_group {keys : List A} {k : A} (member : k ∈ keys) :
    ∃ group ∈ (groupBy owner keys).pairs, k ∈ group.2 := by
  have entered := (mem_groupBy owner keys k (owner k)).mpr ⟨member, rfl⟩
  cases found : (groupBy owner keys).lookup (owner k) with
  | none =>
    rw [found] at entered
    exact absurd entered List.not_mem_nil
  | some group =>
    rw [found] at entered
    exact ⟨(owner k, group), mem_pairs.mpr found, entered⟩

theorem exists_group_iff {keys : List A} {k : A} :
    (∃ group ∈ (groupBy owner keys).pairs, k ∈ group.2) ↔ k ∈ keys := by
  constructor
  · intro found
    obtain ⟨group, member, inside⟩ := found
    have entered : k ∈ ((groupBy owner keys).lookup group.1).getD [] := by
      rw [mem_pairs.mp member]
      exact inside
    exact ((mem_groupBy owner keys k group.1).mp entered).1
  · exact exists_group owner

theorem group_ne_nil {keys : List A} {group : G × List A}
    (member : group ∈ (groupBy owner keys).pairs) : group.2 ≠ [] :=
  filled_groupBy owner keys group.1 group.2 (mem_pairs.mp member)

theorem enter_perm (groups : FiniteMap G (List A)) (key : A) :
    ((enter owner groups key).pairs.flatMap Prod.snd).Perm
      (key :: groups.pairs.flatMap Prod.snd) := by
  have inserted : (enter owner groups key).pairs.flatMap Prod.snd =
      (key :: (groups.lookup (owner key)).getD []) ++
        (pairs (groups.erase (owner key))).flatMap Prod.snd := rfl
  rw [inserted, List.cons_append]
  apply List.Perm.cons
  cases found : groups.lookup (owner key) with
  | none =>
    have absent := AList.lookup_eq_none.mp found
    have same : pairs (groups.erase (owner key)) = groups.pairs :=
      pairs_of_entries (m := groups.erase (owner key)) (List.kerase_of_notMem_keys absent)
    rw [same]
    exact List.Perm.refl _
  | some group =>
    have present : owner key ∈ groups.entries.keys :=
      AList.lookup_isSome.mp (Option.isSome_iff_exists.mpr ⟨group, found⟩)
    obtain ⟨other, before, behind, -, whole, erased⟩ := List.exists_of_kerase present
    have listed : other ∈ groups.lookup (owner key) := by
      rw [AList.mem_lookup_iff, whole]
      exact List.mem_append_right _ List.mem_cons_self
    rw [found, Option.mem_some_iff] at listed
    subst listed
    have without : pairs (groups.erase (owner key)) = (before ++ behind).map fun e => (e.1, e.2) :=
      pairs_of_entries (m := groups.erase (owner key)) erased
    have with_group : groups.pairs =
        (before ++ ⟨owner key, group⟩ :: behind).map fun e => (e.1, e.2) :=
      pairs_of_entries whole
    rw [without, with_group, Option.getD_some, List.map_append, List.map_append, List.map_cons,
      List.flatMap_append, List.flatMap_append, List.flatMap_cons, ← List.append_assoc,
      ← List.append_assoc]
    exact List.perm_append_comm.append_right _

theorem groupBy_perm (keys : List A) :
    ((groupBy owner keys).pairs.flatMap Prod.snd).Perm keys := by
  have entered : ∀ groups : FiniteMap G (List A),
      ((keys.foldl (enter owner) groups).pairs.flatMap Prod.snd).Perm
        (keys ++ groups.pairs.flatMap Prod.snd) := by
    induction keys with
    | nil => exact fun groups => List.Perm.refl _
    | cons key keys ih =>
      intro groups
      have later := (ih (enter owner groups key)).trans
        ((enter_perm owner groups key).append_left keys)
      exact later.trans List.perm_middle
  have all := entered ∅
  rwa [show (∅ : FiniteMap G (List A)).pairs = [] from rfl, List.flatMap_nil, List.append_nil]
    at all

end Groups

end FiniteMap
