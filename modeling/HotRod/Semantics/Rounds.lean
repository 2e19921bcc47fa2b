import Mathlib.Data.List.Basic
import Mathlib.Logic.Basic
import Mathlib.Order.Basic

/-! A round of requests: the parties are called one after the other until one
fails or answers in a way that ends the round.

`ending` is how the round stops short and `trail` the requests that were
delivered; both depend on the answers alone, so a loop that makes the calls can
be compared with them. -/

set_option autoImplicit false

namespace Semantics.Rounds

variable {C E A : Type}

inductive Answer (E A : Type) where
  | replied (a : A)
  | failed (delivered : Bool) (e : E)
  deriving DecidableEq, Repr

inductive Ending (E A : Type) where
  | raised (e : E)
  | halted (a : A)
  deriving DecidableEq, Repr

def Answer.delivered : Answer E A → Bool
  | .replied _ => true
  | .failed delivered _ => delivered

/-- How the round stops short; `none` when every party was called and replied. -/
def ending (answer : C → Answer E A) (halts : A → Bool) : List C → Option (Ending E A)
  | [] => none
  | c :: rest => match answer c with
    | .replied a => if halts a then some (.halted a) else ending answer halts rest
    | .failed _ e => some (.raised e)

/-- The delivered requests, in order, each with the reply that came back. -/
def trail (answer : C → Answer E A) (halts : A → Bool) : List C → List (C × Option A)
  | [] => []
  | c :: rest => match answer c with
    | .replied a => (c, some a) :: if halts a then [] else trail answer halts rest
    | .failed delivered _ => if delivered then [(c, none)] else []

variable {answer : C → Answer E A} {halts : A → Bool} {cs : List C}

theorem ending_eq_none :
    ending answer halts cs = none ↔ ∀ c ∈ cs, ∃ a, answer c = .replied a ∧ halts a = false := by
  induction cs with
  | nil => simp [ending]
  | cons c rest ih =>
    rw [List.forall_mem_cons, ← ih]
    cases reply : answer c with
    | replied a => cases stop : halts a <;> simp [ending, reply, stop]
    | failed delivered e => simp [ending, reply]

theorem mem_trail_of_ending_none (through : ending answer halts cs = none) {c : C}
    {reply : Option A} :
    (c, reply) ∈ trail answer halts cs ↔ c ∈ cs ∧ ∃ a, reply = some a ∧ answer c = .replied a := by
  induction cs with
  | nil => simp [trail]
  | cons d rest ih =>
    obtain ⟨⟨a, here, going⟩, later⟩ := List.forall_mem_cons.mp (ending_eq_none.mp through)
    simp only [trail, here, going, Bool.false_eq_true, if_false, List.mem_cons, Prod.mk.injEq,
      ih (ending_eq_none.mpr later)]
    constructor
    · rintro (⟨rfl, rfl⟩ | ⟨member, found⟩)
      · exact ⟨.inl rfl, a, rfl, here⟩
      · exact ⟨.inr member, found⟩
    · rintro ⟨rfl | member, b, rfl, found⟩
      · rw [here, Answer.replied.injEq] at found
        exact .inl ⟨rfl, found ▸ rfl⟩
      · exact .inr ⟨member, b, rfl, found⟩

theorem trail_prefix : (trail answer halts cs).map Prod.fst <+: cs := by
  induction cs with
  | nil => exact List.prefix_rfl
  | cons c rest ih =>
    simp only [trail]
    cases answer c with
    | replied a =>
      rw [List.map_cons, List.cons_prefix_cons]
      refine ⟨rfl, ?_⟩
      cases halts a with
      | true => exact List.nil_prefix
      | false => exact ih
    | failed delivered e =>
      cases delivered with
      | true => exact List.cons_prefix_cons.mpr ⟨rfl, List.nil_prefix⟩
      | false => exact List.nil_prefix

theorem mem_of_mem_trail {c : C} {reply : Option A} (member : (c, reply) ∈ trail answer halts cs) :
    c ∈ cs ∧ ∀ a, reply = some a → answer c = .replied a := by
  induction cs with
  | nil => cases member
  | cons d rest ih =>
    simp only [trail] at member
    cases here : answer d with
    | replied b =>
      simp only [here, List.mem_cons, Prod.mk.injEq] at member
      rcases member with ⟨rfl, rfl⟩ | later
      · exact ⟨List.mem_cons_self, fun a same => by cases same; exact here⟩
      · cases stop : halts b with
        | true => simp [stop] at later
        | false =>
          simp only [stop, Bool.false_eq_true, if_false] at later
          exact ⟨List.mem_cons_of_mem _ (ih later).1, (ih later).2⟩
    | failed delivered e =>
      cases delivered with
      | false => simp [here] at member
      | true =>
        simp only [here, if_true, List.mem_singleton, Prod.mk.injEq] at member
        obtain ⟨rfl, rfl⟩ := member
        exact ⟨List.mem_cons_self, fun a same => by cases same⟩

theorem mem_trail_first {c : C} {rest : List C} :
    (∃ reply, (c, reply) ∈ trail answer halts (c :: rest)) ↔ (answer c).delivered = true := by
  cases answered : answer c with
  | replied a => exact iff_of_true ⟨some a, by simp [trail, answered]⟩ rfl
  | failed delivered e =>
    cases delivered with
    | true => exact iff_of_true ⟨none, by simp [trail, answered]⟩ rfl
    | false =>
      apply iff_of_false
      · rintro ⟨reply, member⟩
        simp [trail, answered] at member
      · exact Bool.false_ne_true

theorem mem_trail_cons_of_ne {c first : C} {rest : List C} (other : c ≠ first)
    {reply : Option A} :
    (c, reply) ∈ trail answer halts (first :: rest) ↔
      (∃ a, answer first = .replied a ∧ halts a = false) ∧
        (c, reply) ∈ trail answer halts rest := by
  cases answered : answer first with
  | failed delivered e => cases delivered <;> simp [trail, answered, other]
  | replied a => cases stop : halts a <;> simp [trail, answered, stop, other]

-- A party is called if every party before it has replied without ending the round.
theorem mem_trail_iff_of_sorted [Preorder C] (sorted : cs.Pairwise (· < ·)) {c : C} :
    (∃ reply, (c, reply) ∈ trail answer halts cs) ↔ c ∈ cs ∧ (answer c).delivered = true ∧
      ∀ d ∈ cs, d < c → ∃ a, answer d = .replied a ∧ halts a = false := by
  induction cs with
  | nil => simp [trail]
  | cons first rest ih =>
    obtain ⟨below, tail⟩ := List.pairwise_cons.mp sorted
    by_cases here : c = first
    · subst here
      have earliest : ∀ d ∈ c :: rest, ¬ d < c := by
        intro d member before
        rcases List.mem_cons.mp member with rfl | later
        · exact lt_irrefl d before
        · exact lt_asymm before (below d later)
      rw [mem_trail_first]
      constructor
      · intro delivered
        refine ⟨List.mem_cons_self, delivered, ?_⟩
        exact fun d member before => absurd before (earliest d member)
      · exact fun both => both.2.1
    · simp only [mem_trail_cons_of_ne here, exists_and_left, ih tail, List.mem_cons, here, false_or,
        forall_eq_or_imp]
      constructor
      · rintro ⟨goes, member, delivered, earlier⟩
        exact ⟨member, delivered, fun _ => goes, earlier⟩
      · -- the first party is before every other one
        rintro ⟨member, delivered, goes, earlier⟩
        exact ⟨goes (below c member), member, delivered, earlier⟩

end Semantics.Rounds
