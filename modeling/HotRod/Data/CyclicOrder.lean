import Mathlib.Data.List.Rotate

/-! Going round a list of positions.

A scan that begins behind a position and wraps around meets every position once. Where it
is resumed behind the position it has found, the others come first and that one last. -/

set_option autoImplicit false

namespace CyclicOrder

def next (n i : Nat) : Nat := if n ≤ i + 1 then 0 else i + 1

/-- The positions that a scan meets in a number of turns. -/
def visits (n : Nat) : Nat → Nat → List Nat
  | 0, _ => []
  | turns + 1, i => next n i :: visits n turns (next n i)

variable {n i : Nat}

theorem next_lt (positive : 0 < n) (i : Nat) : next n i < n := by
  unfold next
  split
  · exact positive
  · next inside => exact Nat.lt_of_not_le inside

theorem next_eq_mod (inside : i < n) : next n i = (i + 1) % n := by
  unfold next
  split
  · next last =>
    have end_reached : i + 1 = n := by omega
    rw [end_reached, Nat.mod_self]
  · next inside => rw [Nat.mod_eq_of_lt (Nat.lt_of_not_le inside)]

theorem find?_visits_succ (alive : Nat → Bool) (turns : Nat) :
    (visits n (turns + 1) i).find? alive =
      if alive (next n i) then some (next n i) else (visits n turns (next n i)).find? alive := by
  rw [visits, List.find?_cons]
  cases alive (next n i) <;> rfl

theorem visits_eq_map (inside : i < n) (turns : Nat) :
    visits n turns i = (List.range turns).map fun k => (i + 1 + k) % n := by
  induction turns generalizing i with
  | zero => rfl
  | succ turns ih =>
    have positive : 0 < n := by omega
    rw [visits, ih (next_lt positive i), List.range_succ_eq_map, List.map_cons, List.map_map,
      next_eq_mod inside, Nat.add_zero]
    congr 1
    apply List.map_congr_left
    intro k _
    rw [Function.comp_apply, Nat.add_assoc, Nat.mod_add_mod, Nat.succ_eq_add_one]
    congr 1
    omega

-- A whole round begins behind the position and ends with it.
theorem visits_eq_rotate (inside : i < n) : visits n n i = (List.range n).rotate (i + 1) := by
  rw [visits_eq_map inside]
  apply List.ext_getElem
  · rw [List.length_map, List.length_rotate]
  · intro k before after
    rw [List.getElem_map, List.getElem_range, List.getElem_rotate, List.getElem_range,
      List.length_range, Nat.add_comm (i + 1) k]

theorem visits_of_append {before after : List Nat} {p : Nat} (inside : i < n)
    (round : visits n n i = before ++ p :: after) :
    p < n ∧ visits n n p = after ++ (before ++ [p]) := by
  have reached : p = (i + 1 + before.length) % n := by
    have here : (visits n n i)[before.length]? = some p := by
      rw [round, List.getElem?_append_right (Nat.le_refl _), Nat.sub_self]
      rfl
    rw [visits_eq_map inside, List.getElem?_map] at here
    obtain ⟨k, found, value⟩ := Option.map_eq_some_iff.mp here
    obtain ⟨bound, same⟩ := List.getElem?_eq_some_iff.mp found
    rw [List.getElem_range] at same
    rw [← value, same]
  have below : p < n := by
    rw [reached]
    exact Nat.mod_lt _ (by omega)
  refine ⟨below, ?_⟩
  have turned : (List.range n).rotate (p + 1) =
      ((List.range n).rotate (i + 1)).rotate (before.length + 1) := by
    rw [List.rotate_rotate, ← List.rotate_mod _ (p + 1), ← List.rotate_mod _ (i + 1 + _),
      List.length_range, reached, Nat.mod_add_mod, Nat.add_assoc (i + 1)]
  have cut : before ++ p :: after = (before ++ [p]) ++ after := by
    rw [List.append_assoc, List.singleton_append]
  rw [visits_eq_rotate below, turned, ← visits_eq_rotate inside, round, cut]
  have length : before.length + 1 = (before ++ [p]).length := by
    rw [List.length_append, List.length_singleton]
  rw [length, List.rotate_append_length_eq]

theorem mem_visits (inside : i < n) {p : Nat} : p ∈ visits n n i ↔ p < n := by
  rw [visits_eq_rotate inside, List.mem_rotate, List.mem_range]

theorem iterate_next (inside : i < n) (turns : Nat) : (next n)^[turns] i = (i + turns) % n := by
  induction turns with
  | zero => exact (Nat.mod_eq_of_lt inside).symm
  | succ turns ih =>
    rw [Function.iterate_succ_apply', ih, next_eq_mod (Nat.mod_lt _ (by omega)), Nat.mod_add_mod,
      Nat.add_assoc]

theorem iterate_next_self (inside : i < n) : (next n)^[n] i = i := by
  rw [iterate_next inside, Nat.add_mod_right, Nat.mod_eq_of_lt inside]

/-! ### Positions that count -/

/-- The positions with the property in the order of the scan. -/
def order (alive : Nat → Bool) (n i : Nat) : List Nat := (visits n n i).filter alive

-- The scan stops at the first of them, and then that one comes last.
theorem order_of_cons {alive : Nat → Bool} {p : Nat} {rest : List Nat} (inside : i < n)
    (round : order alive n i = p :: rest) :
    (visits n n i).find? alive = some p ∧ p < n ∧ order alive n p = rest ++ [p] := by
  have first : (visits n n i).find? alive = some p := by
    have head := congrArg List.head? round
    rwa [order, List.head?_filter] at head
  obtain ⟨before, after, split, dead, found, others⟩ := List.filter_eq_cons_iff.mp round
  obtain ⟨below, resumed⟩ := visits_of_append inside split
  refine ⟨first, below, ?_⟩
  have passed : before.filter alive = [] := by
    rw [List.filter_eq_nil_iff]
    exact dead
  rw [order, resumed, List.filter_append, List.filter_append, others, passed, List.nil_append,
    List.filter_singleton, found]
  rfl

theorem order_eq_rotate (alive : Nat → Bool) (inside : i < n) :
    order alive n i = ((List.range n).rotate (i + 1)).filter alive := by
  rw [order, visits_eq_rotate inside]

end CyclicOrder
