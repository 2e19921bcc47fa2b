import Mathlib.Logic.Basic
import Mathlib.Data.Option.Basic

/-! Runs of a partial, labelled step function.

A step that is not enabled is `none`, so a run is a list of labels that can be
executed. `Guarded` restricts a run to steps taken under a condition on the
state before them; `run_invariant` is the induction every safety result uses. -/

set_option autoImplicit false

namespace Semantics.Transition

variable {S L : Type} {step : S → L → Option S}

def run (step : S → L → Option S) : S → List L → Option S
  | s, [] => some s
  | s, l :: rest => (step s l).bind fun t => run step t rest

/-- Every step of the run is taken where the guard holds. -/
def Guarded (step : S → L → Option S) (guard : S → L → Prop) : S → List L → Prop
  | _, [] => True
  | s, l :: rest => guard s l ∧ ∀ t, step s l = some t → Guarded step guard t rest

theorem Guarded.cons {guard : S → L → Prop} {s t : S} {l : L} {rest : List L}
    (taken : step s l = some t) (holds : guard s l) (later : Guarded step guard t rest) :
    Guarded step guard s (l :: rest) := by
  refine ⟨holds, ?_⟩
  intro u reached
  rw [taken] at reached
  cases reached
  exact later

theorem run_cons_eq_some {s u : S} {l : L} {rest : List L} :
    run step s (l :: rest) = some u ↔ ∃ t, step s l = some t ∧ run step t rest = some u := by
  simp [run, Option.bind_eq_some_iff]

theorem run_append (s : S) (first second : List L) :
    run step s (first ++ second) = (run step s first).bind fun t => run step t second := by
  induction first generalizing s with
  | nil => rfl
  | cons l rest ih => cases taken : step s l <;> simp [run, taken, ih]

-- What the start has and every guarded step keeps, every state of a guarded run has.
theorem run_invariant {guard : S → L → Prop} (inv : S → Prop) {s t : S} {ls : List L}
    (start : inv s) (preserved : ∀ s l t, inv s → guard s l → step s l = some t → inv t)
    (guarded : Guarded step guard s ls) (reached : run step s ls = some t) : inv t := by
  induction ls generalizing s with
  | nil =>
    cases reached
    exact start
  | cons l rest ih =>
    obtain ⟨middle, taken, later⟩ := run_cons_eq_some.mp reached
    exact ih (preserved s l middle start guarded.1 taken) (guarded.2 middle taken) later

-- Along a guarded run the guard may be exchanged for what it implies in the states that have the
-- invariant.
theorem Guarded.imp_of_invariant {guard guard' : S → L → Prop} (inv : S → Prop) {s : S}
    {ls : List L} (start : inv s)
    (preserved : ∀ s l t, inv s → guard s l → step s l = some t → inv t)
    (implied : ∀ s l, inv s → guard s l → guard' s l) (guarded : Guarded step guard s ls) :
    Guarded step guard' s ls := by
  induction ls generalizing s with
  | nil => trivial
  | cons l rest ih =>
    refine ⟨implied s l start guarded.1, fun t taken => ?_⟩
    exact ih (preserved s l t start guarded.1 taken) (guarded.2 t taken)

theorem guarded_of_forall {guard : L → Prop} {ls : List L} (all : ∀ l ∈ ls, guard l) (s : S) :
    Guarded step (fun _ l => guard l) s ls := by
  induction ls generalizing s with
  | nil => trivial
  | cons l rest ih =>
    have others : ∀ l ∈ rest, guard l := fun l member => all l (List.mem_cons_of_mem _ member)
    exact ⟨all l List.mem_cons_self, fun t _ => ih others t⟩

theorem guarded_true (s : S) (ls : List L) : Guarded step (fun _ _ => True) s ls := by
  induction ls generalizing s with
  | nil => trivial
  | cons l rest ih => exact ⟨trivial, fun t _ => ih t⟩

theorem run_invariant_of_step (inv : S → Prop) {s t : S} {ls : List L} (start : inv s)
    (preserved : ∀ s l t, inv s → step s l = some t → inv t) (reached : run step s ls = some t) :
      inv t :=
  run_invariant inv start (fun s l t holds _ => preserved s l t holds) (guarded_true s ls) reached

theorem rel_bind {A B A' B' : Type} {rel : A → B → Prop} {rel' : A' → B' → Prop} {a : Option A}
    {b : Option B} {f : A → Option A'} {g : B → Option B'} (first : Option.Rel rel a b)
    (next : ∀ x y, a = some x → rel x y → Option.Rel rel' (f x) (g y)) :
    Option.Rel rel' (a.bind f) (b.bind g) := by
  cases first with
  | none => exact .none
  | some related => exact next _ _ rfl related

theorem map_eq_of_rel {A B V : Type} {rel : A → B → Prop} {a : Option A} {b : Option B}
    {f : A → V} {g : B → V} (related : Option.Rel rel a b) (same : ∀ x y, rel x y → f x = g y) :
    a.map f = b.map g := by
  cases related with
  | none => rfl
  | some related => exact congrArg some (same _ _ related)

-- Two step functions that keep a relation where the guard holds have related runs.
theorem run_simulation {S' : Type} {step' : S' → L → Option S'} {guard : S → L → Prop}
    (rel : S → S' → Prop) {s : S} {s' : S'} {ls : List L} (start : rel s s')
    (simulated : ∀ s s' l, rel s s' → guard s l → Option.Rel rel (step s l) (step' s' l))
    (guarded : Guarded step guard s ls) : Option.Rel rel (run step s ls) (run step' s' ls) := by
  induction ls generalizing s s' with
  | nil => exact .some start
  | cons l rest ih =>
    refine rel_bind (simulated s s' l start guarded.1) ?_
    intro t t' taken related
    exact ih related (guarded.2 t taken)

end Semantics.Transition
