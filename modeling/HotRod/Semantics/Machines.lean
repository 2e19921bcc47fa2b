import Mathlib.Data.List.Basic

/-! Machines that answer calls.

A machine takes a call to its answer and to the state in which it takes the next one. One
machine follows another if related states stay related whatever is called; then the two give
the same answers to a list of calls exactly if they answer each of them alike. Where every
user has a state of its own beside the one that all share, this is so for the calls of all
users in any order. -/

set_option autoImplicit false

namespace Semantics.Machines

variable {S T L C R I : Type}

abbrev Machine (S C R : Type) := S → C → R × S

def answers (machine : Machine S C R) : S → List C → List R
  | _, [] => []
  | s, c :: rest => (machine s c).1 :: answers machine (machine s c).2 rest

def after (machine : Machine S C R) : S → List C → S
  | s, [] => s
  | s, c :: rest => after machine (machine s c).2 rest

/-- Every call is made in a state that has the property with it. -/
def Throughout (machine : Machine S C R) (holds : S → C → Prop) : S → List C → Prop
  | _, [] => True
  | s, c :: rest => holds s c ∧ Throughout machine holds (machine s c).2 rest

theorem Throughout.imp {machine : Machine S C R} {holds others : S → C → Prop}
    (implies : ∀ s c, holds s c → others s c) {s : S} {calls : List C}
    (all : Throughout machine holds s calls) : Throughout machine others s calls := by
  induction calls generalizing s with
  | nil => trivial
  | cons c rest ih => exact ⟨implies s c all.1, ih all.2⟩

/-- `alike` says of which calls two related states give the same answer. -/
structure Follows (concrete : Machine S C R) (abstract : Machine T C R) (rel : S → T → Prop)
    (alike : T → C → Prop) : Prop where
  answer : ∀ {s t c}, rel s t → ((concrete s c).1 = (abstract t c).1 ↔ alike t c)
  next : ∀ {s t c}, rel s t → rel (concrete s c).2 (abstract t c).2

namespace Follows

variable {concrete : Machine S C R} {abstract : Machine T C R} {rel : S → T → Prop}
  {alike : T → C → Prop} {s : S} {t : T} {calls : List C}

theorem answers_eq_iff (follows : Follows concrete abstract rel alike) (related : rel s t) :
    answers concrete s calls = answers abstract t calls ↔ Throughout abstract alike t calls := by
  induction calls generalizing s t with
  | nil => exact iff_of_true rfl trivial
  | cons c rest ih =>
    rw [answers, answers, List.cons.injEq, follows.answer related, ih (follows.next related)]
    exact Iff.rfl

theorem after (follows : Follows concrete abstract rel alike) (related : rel s t) :
    rel (Machines.after concrete s calls) (Machines.after abstract t calls) := by
  induction calls generalizing s t with
  | nil => exact related
  | cons c rest ih => exact ih (follows.next related)

end Follows

/-! ### Users -/

/-- Calls of any user, which changes its own state and the shared one. -/
def sharing [DecidableEq I] (machine : Machine (S × L) C R) :
    Machine (S × (I → L)) (I × C) R := fun all call =>
  let answered := machine (all.1, all.2 call.1) call.2
  (answered.1, answered.2.1, Function.update all.2 call.1 answered.2.2)

def anyone (machine : Machine S C R) : Machine S (I × C) R := fun s call => machine s call.2

theorem Follows.sharing [DecidableEq I] {concrete : Machine (S × L) C R}
    {abstract : Machine T C R} {rel : S → T → Prop} {fit : L → Prop} {alike : T → C → Prop}
    (follows : Follows concrete abstract (fun both t => rel both.1 t ∧ fit both.2) alike) :
    Follows (Machines.sharing (I := I) concrete) (anyone abstract)
      (fun all t => rel all.1 t ∧ ∀ i, fit (all.2 i)) (fun t call => alike t call.2) := by
  constructor
  · rintro ⟨s, own⟩ t ⟨i, c⟩ ⟨related, fits⟩
    exact follows.answer (s := (s, own i)) ⟨related, fits i⟩
  · rintro ⟨s, own⟩ t ⟨i, c⟩ ⟨related, fits⟩
    have later := follows.next (s := (s, own i)) (c := c) ⟨related, fits i⟩
    refine ⟨later.1, ?_⟩
    intro j
    by_cases same : j = i
    · subst same
      simpa only [Machines.sharing, Function.update_self] using later.2
    · simpa only [Machines.sharing, Function.update_of_ne same] using fits j

end Semantics.Machines
