import Mathlib.Algebra.BigOperators.Group.List.Basic
import Mathlib.Algebra.GroupWithZero.Nat
import Mathlib.Data.List.Sort
import Mathlib.Order.Basic

/-! Finite maps kept as strictly sorted association lists.

Iteration visits the keys in increasing order. Two maps with the same lookups
are equal, so states built from such maps may be compared directly. -/

set_option autoImplicit false

/-- A finite map whose entries are strictly sorted by key. -/
structure SortedMap (K V : Type) [LinearOrder K] where
  entries : List (K × V)
  sorted : entries.Pairwise (fun a b => a.1 < b.1)

namespace SortedMap

variable {K V : Type} [LinearOrder K]

def find (entries : List (K × V)) (k : K) : Option V :=
  match entries with
  | [] => none
  | (a, v) :: rest => if a = k then some v else find rest k

def put (k : K) (v : V) : List (K × V) → List (K × V)
  | [] => [(k, v)]
  | (a, w) :: rest =>
    if k < a then (k, v) :: (a, w) :: rest
    else if k = a then (k, v) :: rest
    else (a, w) :: put k v rest

theorem mem_put {k : K} {v : V} {entries : List (K × V)} {e : K × V}
    (member : e ∈ put k v entries) : e = (k, v) ∨ e ∈ entries := by
  induction entries with
  | nil => simpa [put] using member
  | cons head rest ih =>
    obtain ⟨a, w⟩ := head
    simp only [put] at member
    split_ifs at member with below same
    · exact (List.mem_cons.mp member).imp id id
    · rcases List.mem_cons.mp member with rfl | later
      · exact .inl rfl
      · exact .inr (List.mem_cons_of_mem _ later)
    · rcases List.mem_cons.mp member with rfl | later
      · exact .inr List.mem_cons_self
      · exact (ih later).imp id (List.mem_cons_of_mem _)

theorem put_sorted (k : K) (v : V) {entries : List (K × V)}
    (sorted : entries.Pairwise (fun a b => a.1 < b.1)) :
    (put k v entries).Pairwise (fun a b => a.1 < b.1) := by
  induction entries with
  | nil => simp [put]
  | cons head rest ih =>
    obtain ⟨a, w⟩ := head
    obtain ⟨first, tail⟩ := List.pairwise_cons.mp sorted
    simp only [put]
    split_ifs with below same
    · refine List.pairwise_cons.mpr ⟨fun e member => ?_, sorted⟩
      rcases List.mem_cons.mp member with rfl | later
      · exact below
      · exact below.trans (first e later)
    · subst same
      exact List.pairwise_cons.mpr ⟨first, tail⟩
    · refine List.pairwise_cons.mpr ⟨fun e member => ?_, ih tail⟩
      rcases mem_put member with rfl | later
      · exact lt_of_le_of_ne (not_lt.mp below) (Ne.symm same)
      · exact first e later

def get? (m : SortedMap K V) (k : K) : Option V := find m.entries k

def empty : SortedMap K V := ⟨[], List.Pairwise.nil⟩

def insert (m : SortedMap K V) (k : K) (v : V) : SortedMap K V :=
  ⟨put k v m.entries, put_sorted k v m.sorted⟩

def erase (m : SortedMap K V) (k : K) : SortedMap K V :=
  ⟨m.entries.filter (fun e => decide (e.1 ≠ k)), m.sorted.sublist List.filter_sublist⟩

def keys (m : SortedMap K V) : List K := m.entries.map Prod.fst

instance : Membership K (SortedMap K V) where
  mem m k := k ∈ m.keys

instance (m : SortedMap K V) (k : K) : Decidable (k ∈ m) :=
  inferInstanceAs (Decidable (k ∈ m.keys))

theorem entries_inj {a b : SortedMap K V} : a.entries = b.entries ↔ a = b := by
  constructor
  · intro same
    cases a
    cases b
    cases same
    rfl
  · rintro rfl
    rfl

instance [DecidableEq V] : DecidableEq (SortedMap K V) := fun a b =>
  decidable_of_iff (a.entries = b.entries) entries_inj

theorem find_put_self (k : K) (v : V) (entries : List (K × V)) :
    find (put k v entries) k = some v := by
  induction entries with
  | nil => simp [put, find]
  | cons head rest ih =>
    obtain ⟨a, w⟩ := head
    simp only [put]
    split_ifs with below same
    · simp [find]
    · simp [find]
    · simp [find, Ne.symm same, ih]

theorem find_put_of_ne {k j : K} (v : V) (distinct : j ≠ k) (entries : List (K × V)) :
    find (put k v entries) j = find entries j := by
  induction entries with
  | nil => simp [put, find, Ne.symm distinct]
  | cons head rest ih =>
    obtain ⟨a, w⟩ := head
    simp only [put]
    split_ifs with below same
    · simp [find, Ne.symm distinct]
    · subst same
      simp [find, Ne.symm distinct]
    · by_cases here : a = j <;> simp [find, here, ih]

theorem find_eq_some {entries : List (K × V)} (sorted : entries.Pairwise (fun a b => a.1 < b.1))
    {k : K} {v : V} :
    find entries k = some v ↔ (k, v) ∈ entries := by
  induction entries with
  | nil => simp [find]
  | cons head rest ih =>
    obtain ⟨a, w⟩ := head
    obtain ⟨first, tail⟩ := List.pairwise_cons.mp sorted
    by_cases here : a = k
    · subst here
      have absent : (a, v) ∉ rest := fun later => lt_irrefl a (first (a, v) later)
      simp [find, absent, eq_comm]
    · simp [find, here, ih tail, Ne.symm here]

theorem find_eq_none {entries : List (K × V)} {k : K} :
    find entries k = none ↔ k ∉ entries.map Prod.fst := by
  induction entries with
  | nil => simp [find]
  | cons head rest ih =>
    obtain ⟨a, w⟩ := head
    by_cases here : a = k
    · simp [find, here]
    · simp [find, here, ih, Ne.symm here]

@[simp] theorem get?_insert_self (m : SortedMap K V) (k : K) (v : V) :
    (m.insert k v).get? k = some v :=
  find_put_self k v m.entries

theorem get?_insert_of_ne (m : SortedMap K V) {k j : K} (v : V) (distinct : j ≠ k) :
    (m.insert k v).get? j = m.get? j :=
  find_put_of_ne v distinct m.entries

theorem get?_insert (m : SortedMap K V) (k j : K) (v : V) :
    (m.insert k v).get? j = if j = k then some v else m.get? j := by
  by_cases same : j = k
  · subst same; simp
  · simp [same, get?_insert_of_ne m v same]

theorem get?_eq_some (m : SortedMap K V) {k : K} {v : V} : m.get? k = some v ↔ (k, v) ∈ m.entries :=
  find_eq_some m.sorted

theorem get?_eq_none (m : SortedMap K V) {k : K} : m.get? k = none ↔ k ∉ m :=
  find_eq_none

theorem mem_iff (m : SortedMap K V) {k : K} : k ∈ m ↔ ∃ v, m.get? k = some v := by
  rw [← Option.ne_none_iff_exists', ne_eq, get?_eq_none, not_not]

theorem mem_keys (m : SortedMap K V) {k : K} : k ∈ m.keys ↔ k ∈ m := Iff.rfl

theorem get?_erase (m : SortedMap K V) (k j : K) :
    (m.erase k).get? j = if j = k then none else m.get? j := by
  by_cases same : j = k
  · subst same
    simp only [if_true]
    exact find_eq_none.mpr (by simp [erase])
  · rw [if_neg same]
    apply Option.ext
    intro v
    change find _ j = some v ↔ find _ j = some v
    rw [find_eq_some (m.erase k).sorted, find_eq_some m.sorted]
    simp [erase, same]

@[simp] theorem get?_erase_self (m : SortedMap K V) (k : K) : (m.erase k).get? k = none := by
  rw [get?_erase, if_pos rfl]

theorem get?_erase_of_ne (m : SortedMap K V) {k j : K} (distinct : j ≠ k) :
    (m.erase k).get? j = m.get? j := by
  rw [get?_erase, if_neg distinct]

@[simp] theorem mem_insert (m : SortedMap K V) {k j : K} {v : V} :
    j ∈ m.insert k v ↔ j = k ∨ j ∈ m := by
  simp only [mem_iff, get?_insert]
  by_cases same : j = k <;> simp [same]

@[simp] theorem mem_erase (m : SortedMap K V) {k j : K} : j ∈ m.erase k ↔ j ≠ k ∧ j ∈ m := by
  simp only [mem_iff, get?_erase]
  by_cases same : j = k <;> simp [same]

@[simp] theorem not_mem_empty {k : K} : k ∉ (empty : SortedMap K V) := List.not_mem_nil

theorem keys_sorted (m : SortedMap K V) : m.keys.Pairwise (· < ·) :=
  List.pairwise_map.mpr m.sorted

theorem keys_nodup (m : SortedMap K V) : m.keys.Nodup :=
  m.keys_sorted.imp ne_of_lt

theorem entries_nodup (m : SortedMap K V) : m.entries.Nodup := by
  apply m.sorted.imp
  rintro x y below rfl
  exact lt_irrefl x.1 below

theorem ext_get? {a b : SortedMap K V} (same : ∀ k, a.get? k = b.get? k) : a = b := by
  have members : ∀ e, e ∈ a.entries ↔ e ∈ b.entries := fun e => by
    obtain ⟨k, v⟩ := e
    rw [← get?_eq_some, ← get?_eq_some, same]
  have perm : a.entries.Perm b.entries :=
    (List.perm_ext_iff_of_nodup a.entries_nodup b.entries_nodup).mpr members
  have equal : a.entries = b.entries := by
    refine perm.eq_of_pairwise (fun x y _ _ first second => ?_) a.sorted b.sorted
    exact absurd (first.trans second) (lt_irrefl _)
  cases a; cases b; cases equal; rfl

@[simp] theorem insert_insert (m : SortedMap K V) (k : K) (v w : V) :
    (m.insert k v).insert k w = m.insert k w := by
  apply ext_get?
  intro j
  simp only [get?_insert]
  split <;> rfl

theorem insert_of_get? (m : SortedMap K V) {k : K} {v : V} (found : m.get? k = some v) :
    m.insert k v = m := by
  apply ext_get?
  intro j
  rw [get?_insert]
  split
  · rename_i here
    rw [here, found]
  · rfl

theorem erase_of_not_mem {m : SortedMap K V} {k : K} (absent : k ∉ m) : m.erase k = m := by
  refine ext_get? fun j => ?_
  rw [get?_erase]
  split
  · rename_i here
    rw [here, m.get?_eq_none.mpr absent]
  · rfl

theorem erase_insert {m : SortedMap K V} {k : K} (absent : k ∉ m) (v : V) :
    (m.insert k v).erase k = m := by
  refine ext_get? fun j => ?_
  rw [get?_erase]
  split
  · rename_i here
    rw [here, m.get?_eq_none.mpr absent]
  · rename_i other
    rw [get?_insert_of_ne m v other]

theorem insert_perm {m : SortedMap K V} {k : K} (absent : k ∉ m) (v : V) :
    (m.insert k v).entries.Perm ((k, v) :: m.entries) := by
  have distinct : ((k, v) :: m.entries).Nodup := by
    refine List.nodup_cons.mpr ⟨fun member => ?_, m.entries_nodup⟩
    exact absent (m.mem_iff.mpr ⟨v, m.get?_eq_some.mpr member⟩)
  rw [List.perm_ext_iff_of_nodup (entries_nodup _) distinct]
  rintro ⟨j, w⟩
  rw [← get?_eq_some, get?_insert, List.mem_cons, ← get?_eq_some]
  by_cases same : j = k
  · subst same
    simp [m.get?_eq_none.mpr absent, eq_comm]
  · simp [same]

theorem perm_erase {m : SortedMap K V} {k : K} {v : V} (found : m.get? k = some v) :
    m.entries.Perm ((k, v) :: (m.erase k).entries) := by
  have restored : (m.erase k).insert k v = m := by
    refine ext_get? fun j => ?_
    rw [get?_insert, get?_erase]
    split
    · rename_i here
      rw [here, found]
    · rfl
  have absent : k ∉ m.erase k := fun member => ((m.mem_erase).mp member).1 rfl
  have entries := insert_perm absent v
  rwa [restored] at entries

def weight (f : K → V → Nat) (m : SortedMap K V) : Nat := (m.entries.map fun e => f e.1 e.2).sum

theorem sum_put (f : K → V → Nat) (k : K) (v : V) {entries : List (K × V)}
    (sorted : entries.Pairwise (fun a b => a.1 < b.1)) :
    ((put k v entries).map fun e => f e.1 e.2).sum + ((find entries k).map (f k)).getD 0 =
      (entries.map fun e => f e.1 e.2).sum + f k v := by
  induction entries with
  | nil => simp [put, find]
  | cons head rest ih =>
    obtain ⟨a, w⟩ := head
    obtain ⟨first, tail⟩ := List.pairwise_cons.mp sorted
    simp only [put]
    split_ifs with below same
    · have absent : find ((a, w) :: rest) k = none := by
        refine find_eq_none.mpr fun member => ?_
        obtain ⟨e, found, rfl⟩ := List.mem_map.mp member
        rcases List.mem_cons.mp found with rfl | later
        · exact lt_irrefl _ below
        · exact lt_irrefl _ (below.trans (first e later))
      simp [absent, Nat.add_comm]
    · subst same
      simp [find]
      omega
    · have skipped : find ((a, w) :: rest) k = find rest k := by simp [find, Ne.symm same]
      have later := ih tail
      simp only [skipped, List.map_cons, List.sum_cons]
      omega

theorem weight_insert (f : K → V → Nat) (m : SortedMap K V) (k : K) (v : V) :
    (m.insert k v).weight f + ((m.get? k).map (f k)).getD 0 = m.weight f + f k v :=
  sum_put f k v m.sorted

-- An entry that is replaced gives its weight for that of the new one.
theorem weight_replace (f : K → V → Nat) (m : SortedMap K V) {k : K} {v : V}
    (found : m.get? k = some v) (v' : V) :
    (m.insert k v').weight f + f k v = m.weight f + f k v' := by
  have inserted := weight_insert f m k v'
  rwa [found, Option.map_some, Option.getD_some] at inserted

theorem weight_erase (f : K → V → Nat) (m : SortedMap K V) (k : K) :
    (m.erase k).weight f + ((m.get? k).map (f k)).getD 0 = m.weight f := by
  obtain ⟨entries, sorted⟩ := m
  simp only [erase, weight, get?]
  induction entries with
  | nil => simp [find]
  | cons head rest ih =>
    obtain ⟨a, w⟩ := head
    obtain ⟨first, tail⟩ := List.pairwise_cons.mp sorted
    by_cases here : a = k
    · subst here
      have kept : rest.filter (fun e => decide (e.1 ≠ a)) = rest :=
        List.filter_eq_self.mpr fun e member => by simpa using (first e member).ne'
      rw [List.filter_cons_of_neg (by simp), kept]
      simp [find, Nat.add_comm]
    · have later := ih tail
      simp only [find, here, if_false, List.filter_cons, ne_eq, not_false_eq_true, decide_true,
        if_true, List.map_cons, List.sum_cons]
      simp only [ne_eq] at later
      omega

theorem weight_insert_eq (f : K → V → Nat) (m : SortedMap K V) (k : K) (v : V) :
    (m.insert k v).weight f = (m.erase k).weight f + f k v := by
  have inserted := weight_insert f m k v
  have erased := weight_erase f m k
  omega

theorem le_weight (f : K → V → Nat) (m : SortedMap K V) {k : K} {v : V}
    (found : m.get? k = some v) :
    f k v ≤ m.weight f := by
  have removed := weight_erase f m k
  simp only [found, Option.map_some, Option.getD_some] at removed
  omega

theorem weight_le {f g : K → V → Nat} {m m' : SortedMap K V}
    (kept : ∀ k v, m.get? k = some v → f k v ≠ 0 → ∃ v', m'.get? k = some v' ∧ f k v ≤ g k v') :
    m.weight f ≤ m'.weight g := by
  obtain ⟨entries, sorted⟩ := m
  induction entries generalizing m' with
  | nil => exact Nat.zero_le _
  | cons head rest ih =>
    obtain ⟨a, w⟩ := head
    obtain ⟨first, tail⟩ := List.pairwise_cons.mp sorted
    have apart : ∀ {k v}, (⟨rest, tail⟩ : SortedMap K V).get? k = some v → k ≠ a := by
      rintro k v found rfl
      exact lt_irrefl k (first (k, v) ((get?_eq_some _).mp found))
    have whole : (⟨(a, w) :: rest, sorted⟩ : SortedMap K V).weight f =
        f a w + (⟨rest, tail⟩ : SortedMap K V).weight f := rfl
    have later : ∀ k v, (⟨rest, tail⟩ : SortedMap K V).get? k = some v →
        (⟨(a, w) :: rest, sorted⟩ : SortedMap K V).get? k = some v :=
      fun k v found => (get?_eq_some _).mpr (List.mem_cons_of_mem _ ((get?_eq_some _).mp found))
    rw [whole]
    by_cases nothing : f a w = 0
    · rw [nothing, Nat.zero_add]
      exact ih tail fun k v found => kept k v (later k v found)
    · -- the entry for the head of the one is taken out of the other
      obtain ⟨w', found, grows⟩ := kept a w ((get?_eq_some _).mpr List.mem_cons_self) nothing
      have removed := weight_erase g m' a
      rw [found, Option.map_some, Option.getD_some] at removed
      have others : (⟨rest, tail⟩ : SortedMap K V).weight f ≤ (m'.erase a).weight g := by
        refine ih tail fun k v here counts => ?_
        rw [get?_erase_of_ne _ (apart here)]
        exact kept k v (later k v here) counts
      omega

theorem weight_eq_zero {f : K → V → Nat} {m : SortedMap K V}
    (nothing : ∀ k v, m.get? k = some v → f k v = 0) : m.weight f = 0 := by
  have below : m.weight f ≤ (empty : SortedMap K V).weight f :=
    weight_le fun k v found counts => absurd (nothing k v found) counts
  exact Nat.le_zero.mp below

theorem weight_mono {f g : K → V → Nat} (below : ∀ k v, f k v ≤ g k v) (m : SortedMap K V) :
    m.weight f ≤ m.weight g :=
  weight_le fun k v found _ => ⟨v, found, below k v⟩

theorem length_eq_weight (m : SortedMap K V) : m.entries.length = m.weight fun _ _ => 1 := by
  unfold weight
  simp

theorem length_insert_of_not_mem (m : SortedMap K V) {k : K} (absent : k ∉ m) (v : V) :
    (m.insert k v).entries.length = m.entries.length + 1 := by
  have inserted := weight_insert (fun _ _ => 1) m k v
  rw [m.get?_eq_none.mpr absent, ← length_eq_weight, ← length_eq_weight] at inserted
  exact inserted

theorem length_insert_of_mem (m : SortedMap K V) {k : K} (member : k ∈ m) (v : V) :
    (m.insert k v).entries.length = m.entries.length := by
  obtain ⟨w, found⟩ := m.mem_iff.mp member
  have replaced := weight_replace (fun _ _ => 1) m found v
  rw [← length_eq_weight, ← length_eq_weight] at replaced
  exact Nat.succ.inj replaced

theorem length_erase_of_mem (m : SortedMap K V) {k : K} (member : k ∈ m) :
    (m.erase k).entries.length + 1 = m.entries.length := by
  obtain ⟨w, found⟩ := m.mem_iff.mp member
  have erased := weight_erase (fun _ _ => 1) m k
  rw [found, ← length_eq_weight, ← length_eq_weight] at erased
  exact erased

theorem length_erase_le (m : SortedMap K V) (k : K) :
    (m.erase k).entries.length ≤ m.entries.length := List.length_filter_le _ _

theorem weight_of_support (f : K → V → Nat) (m : SortedMap K V) (k : K)
    (support : ∀ j v, j ≠ k → f j v = 0) :
    m.weight f = ((m.get? k).map (f k)).getD 0 := by
  have removed := weight_erase f m k
  have rest : (m.erase k).weight f = 0 := by
    refine List.sum_eq_zero fun n member => ?_
    obtain ⟨e, kept, rfl⟩ := List.mem_map.mp member
    exact support e.1 e.2 (by simpa using (List.mem_filter.mp kept).2)
  omega

/-! ### Lists as values -/

section Lists

variable (m : SortedMap K (List V)) (k j : K) (v : V)

-- `m[k].push_back(v)`, which creates an empty list for a new key.
def push : SortedMap K (List V) := m.insert k ((m.get? k).getD [] ++ [v])

def pushAll (m : SortedMap K (List V)) (pairs : List (K × V)) : SortedMap K (List V) :=
  pairs.foldl (fun m pair => m.push pair.1 pair.2) m

def listed : List V := (m.get? k).getD []

theorem listed_push : (m.push k v).listed j = m.listed j ++ if k = j then [v] else [] := by
  unfold listed push
  rw [get?_insert]
  by_cases same : j = k
  · subst same
    rw [if_pos rfl, if_pos rfl, Option.getD_some]
  · rw [if_neg same, if_neg (Ne.symm same), List.append_nil]

theorem listed_pushAll (pairs : List (K × V)) :
    (m.pushAll pairs).listed k =
      m.listed k ++ (pairs.filter fun pair => pair.1 = k).map Prod.snd := by
  induction pairs generalizing m with
  | nil => exact (List.append_nil _).symm
  | cons pair rest ih =>
    rw [pushAll, List.foldl_cons]
    have later := ih (m.push pair.1 pair.2)
    rw [pushAll] at later
    rw [later, listed_push, List.append_assoc]
    by_cases mine : pair.1 = k
    · simp [mine]
    · simp [mine]

theorem mem_pushAll (pairs : List (K × V)) : k ∈ m.pushAll pairs ↔ k ∈ m ∨ ∃ v, (k, v) ∈ pairs := by
  induction pairs generalizing m with
  | nil => simp [pushAll]
  | cons pair rest ih =>
    rw [pushAll, List.foldl_cons]
    have later := ih (m.push pair.1 pair.2)
    rw [pushAll] at later
    rw [later, push, mem_insert]
    obtain ⟨a, w⟩ := pair
    simp only [List.mem_cons, Prod.mk.injEq, exists_or, exists_and_left, exists_eq, and_true]
    tauto

theorem pushAll_append (first second : List (K × V)) :
    m.pushAll (first ++ second) = (m.pushAll first).pushAll second := List.foldl_append

end Lists

end SortedMap
