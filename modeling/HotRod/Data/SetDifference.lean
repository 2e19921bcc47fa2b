import Mathlib.Data.List.Sort
import Mathlib.Order.Basic

/-! Differences of sorted lists, duplicates counted.

The second list is walked along with the first; an element of the first is left
out as often as the second has it. -/

set_option autoImplicit false

variable {K : Type} [LinearOrder K]

/-- The elements of the first sorted list that the second does not match. -/
def setDifference : List K → List K → List K
  | [], _ => []
  | a :: as, bs =>
    match bs.dropWhile (fun b => decide (b < a)) with
    | [] => a :: setDifference as []
    | b :: rest => if b = a then setDifference as rest else a :: setDifference as (b :: rest)

theorem setDifference_sublist (as bs : List K) : (setDifference as bs).Sublist as := by
  induction as generalizing bs with
  | nil => exact List.Sublist.refl _
  | cons a as ih =>
    simp only [setDifference]
    split
    · exact (ih _).cons_cons a
    · split
      · exact (ih _).cons a
      · exact (ih _).cons_cons a

theorem count_dropWhile_lt {a c : K} (from_ : a ≤ c) (bs : List K) :
    (bs.dropWhile fun b => decide (b < a)).count c = bs.count c := by
  induction bs with
  | nil => rfl
  | cons b bs ih =>
    by_cases below : b < a
    · have other : b ≠ c := (below.trans_le from_).ne
      simp [below, ih, List.count_cons_of_ne other]
    · simp [below]

theorem head_dropWhile_lt {a b : K} {bs rest : List K}
    (left : bs.dropWhile (fun b => decide (b < a)) = b :: rest) : a ≤ b := by
  have stays := List.head?_dropWhile_not (fun b => decide (b < a)) bs
  rw [left] at stays
  simpa using stays

theorem count_setDifference {as bs : List K} (sorted : as.Pairwise (· ≤ ·))
    (sorted' : bs.Pairwise (· ≤ ·)) (c : K) :
    (setDifference as bs).count c = as.count c - bs.count c := by
  induction as generalizing bs with
  | nil => simp [setDifference]
  | cons a as ih =>
    obtain ⟨first, tail⟩ := List.pairwise_cons.mp sorted
    by_cases below : c < a
    · -- nothing of the first list is below its head
      have absent : c ∉ a :: as := by
        intro member
        rcases List.mem_cons.mp member with rfl | later
        · exact lt_irrefl c below
        · exact absurd (first c later) (not_le.mpr below)
      have none_left : c ∉ setDifference (a :: as) bs := fun member =>
        absent ((setDifference_sublist _ _).subset member)
      rw [List.count_eq_zero_of_not_mem absent, List.count_eq_zero_of_not_mem none_left,
        Nat.zero_sub]
    · have from_ : a ≤ c := not_lt.mp below
      have sorted_rest := sorted'.sublist (List.dropWhile_sublist fun b => decide (b < a))
      rw [← count_dropWhile_lt from_ bs]
      simp only [setDifference]
      split
      · rename_i empty
        rw [empty, List.count_cons, ih tail List.Pairwise.nil, List.count_cons]
        simp
      · rename_i b rest left
        rw [left] at sorted_rest ⊢
        obtain ⟨above, sorted_tail⟩ := List.pairwise_cons.mp sorted_rest
        have reached := head_dropWhile_lt left
        split
        · rename_i same
          subst same
          rw [ih tail sorted_tail, List.count_cons, List.count_cons]
          exact (Nat.add_sub_add_right _ _ _).symm
        · rename_i other
          rw [List.count_cons, ih tail sorted_rest, List.count_cons (l := as)]
          by_cases here : a = c
          · subst here
            -- the second list has gone past the element
            have passed : a ∉ b :: rest := by
              intro member
              rcases List.mem_cons.mp member with same | later
              · exact other same.symm
              · exact other (le_antisymm (above a later) reached)
            rw [List.count_eq_zero_of_not_mem passed]
            omega
          · simp [here]

theorem mem_setDifference {as bs : List K} (sorted : as.Pairwise (· ≤ ·))
    (sorted' : bs.Pairwise (· ≤ ·)) (c : K) :
    c ∈ setDifference as bs ↔ bs.count c < as.count c := by
  rw [← List.count_pos_iff, count_setDifference sorted sorted']
  omega
