import HotRod.Semantics.Transition
import Mathlib.Algebra.BigOperators.Group.Finset.Piecewise
import Mathlib.Data.Fintype.Basic

/-! Monitors: a mutex and one condition variable around an object.

The body of an operation accesses the object step by step, and only the lock keeps other
threads from coming between its accesses. An operation that is not ready waits on the
condition without the lock, and tries again when it has been woken, for whatever reason.
Seen from outside every operation is performed in one moment between its call and its
return; and no thread sleeps over a supply that it could use, if what adds to the supply
notifies. -/

set_option autoImplicit false

namespace Semantics.Monitors

open Transition

variable {Q Op L R I : Type}

/-- How a body goes on after an access, with its locals or with its result. -/
inductive Outcome (L R : Type) where
  | next (l : L)
  | ends (r : R)

/-- What the operations do to the object with each access, when they need not wait, and after
which results they notify a waiting thread. -/
structure Object (Q Op L R : Type) where
  ready : Op → Q → Bool
  begins : Op → L
  access : Op → L → Q → Outcome L R × Q
  notifies : Op → R → Bool

/-- What a body comes to if nobody else accesses the object. -/
inductive Alone (object : Object Q Op L R) (op : Op) (start : Q) : L → Q → Prop where
  | begins (ready : object.ready op start = true) : Alone object op start (object.begins op) start
  | next {l l' : L} {q q' : Q} (before : Alone object op start l q)
    (accessed : object.access op l q = (.next l', q')) : Alone object op start l' q'

/-- The operation as it is performed by one thread alone. -/
def Performs (object : Object Q Op L R) (op : Op) (start : Q) (r : R) (q : Q) : Prop :=
  ∃ l before, Alone object op start l before ∧ object.access op l before = (.ends r, q)

/-- The rest of a body, of at most so many accesses. -/
def Object.finish (object : Object Q Op L R) (op : Op) : Nat → L → Q → Option (R × Q)
  | 0, _, _ => none
  | n + 1, l, q =>
    match object.access op l q with
    | (.next l', q') => object.finish op n l' q'
    | (.ends r, q') => some (r, q')

section Finish

variable {object : Object Q Op L R} {op : Op}

theorem finish_succ {n : Nat} {l : L} {q : Q} {ended : R × Q}
    (finished : object.finish op n l q = some ended) :
    object.finish op (n + 1) l q = some ended := by
  induction n generalizing l q with
  | zero => cases finished
  | succ n ih =>
    rw [Object.finish] at finished ⊢
    split at finished
    · exact ih finished
    · exact finished

theorem finish_le {n m : Nat} (fewer : n ≤ m) {l : L} {q : Q} {ended : R × Q}
    (finished : object.finish op n l q = some ended) : object.finish op m l q = some ended := by
  induction m, fewer using Nat.le_induction with
  | base => exact finished
  | succ m _ ih => exact finish_succ ih

theorem Alone.ready {start q : Q} {l : L} (alone : Alone object op start l q) :
    object.ready op start = true := by
  induction alone with
  | begins ready => exact ready
  | next _ _ ih => exact ih

theorem Alone.finish {start q : Q} {l : L} (alone : Alone object op start l q) :
    ∃ k, ∀ n, object.finish op (n + k) (object.begins op) start = object.finish op n l q := by
  induction alone with
  | begins ready => exact ⟨0, fun n => rfl⟩
  | @next l l' q q' before accessed ih =>
    obtain ⟨k, same⟩ := ih
    refine ⟨k + 1, fun n => ?_⟩
    have later := same (n + 1)
    rw [Nat.add_right_comm] at later
    rw [← Nat.add_assoc, later, Object.finish, accessed]

-- A body has one result, which it is enough to compute with any bound that suffices.
theorem Performs.eq_of_finish {start q : Q} {r : R} (performed : Performs object op start r q)
    {n : Nat} {ended : R × Q}
    (finished : object.finish op n (object.begins op) start = some ended) : ended = (r, q) := by
  obtain ⟨l, before, alone, accessed⟩ := performed
  obtain ⟨k, same⟩ := alone.finish
  have last : object.finish op (1 + k) (object.begins op) start = some (r, q) := by
    rw [same 1, Object.finish, accessed]
  have first := finish_le (Nat.le_max_left n (1 + k)) finished
  rw [finish_le (Nat.le_max_right n (1 + k)) last] at first
  exact (Option.some.inj first).symm

end Finish

inductive Phase (Op L R : Type) where
  | outside
  | entering (op : Op)
  | testing (op : Op)
  | inside (op : Op) (l : L)
  | notifying (op : Op) (r : R)
  | leaving (op : Op) (r : R)
  | waiting (op : Op)
  | woken (op : Op)

namespace Phase

def isWaiting : Phase Op L R → Bool
  | waiting _ => true
  | _ => false

def isInside : Phase Op L R → Bool
  | inside _ _ => true
  | _ => false

def locks : Phase Op L R → Bool
  | testing _ | inside _ _ | notifying _ _ | leaving _ _ => true
  | outside | entering _ | waiting _ | woken _ => false

theorem locks_of_isInside {p : Phase Op L R} (inside : p.isInside = true) : p.locks = true := by
  cases p with
  | inside op l => rfl
  | _ => cases inside

/-- The operation of a thread that waits, or has waited and not gone on yet. -/
def slept : Phase Op L R → Option Op
  | waiting op | woken op => some op
  | outside | entering _ | testing _ | inside _ _ | notifying _ _ | leaving _ _ => none

def roused : Phase Op L R → Phase Op L R
  | waiting op => woken op
  | other => other

section Roused

variable (p : Phase Op L R)

@[simp] theorem isWaiting_roused : p.roused.isWaiting = false := by cases p <;> rfl

@[simp] theorem locks_roused : p.roused.locks = p.locks := by cases p <;> rfl

@[simp] theorem slept_roused : p.roused.slept = p.slept := by cases p <;> rfl

end Roused

end Phase

/-- What can be seen of the operations, and when they were performed. -/
inductive Mark (Op R I : Type) where
  | called (i : I) (op : Op)
  | took (i : I) (op : Op) (r : R)
  | returned (i : I) (op : Op) (r : R)

def Mark.thread : Mark Op R I → I
  | called i _ | took i _ _ | returned i _ _ => i

/-- The monitor, with a record of its marks, latest first, and of the object as the last
operation has left it. -/
structure Monitor (Q Op L R I : Type) where
  object : Q
  phase : I → Phase Op L R := fun _ => .outside
  holder : Option I := none
  trace : List (Mark Op R I) := []
  left : Q := object

/-- `wake` has no reason; `notifyAll` does not need the lock. -/
inductive Action (Op I : Type) where
  | call (i : I) (op : Op)
  | lock (i : I)
  | test (i : I)
  | access (i : I)
  | notify (i : I) (woken : Option I)
  | leave (i : I)
  | wake (i : I)
  | notifyAll

-- What a thread does that has called an operation and does not sleep.
def Action.internal : Action Op I → Bool
  | lock _ | test _ | access _ | notify _ _ | leave _ => true
  | call _ _ | wake _ | notifyAll => false

variable [DecidableEq I]

def Monitor.at (s : Monitor Q Op L R I) (i : I) (p : Phase Op L R) : Monitor Q Op L R I :=
  { s with phase := Function.update s.phase i p }

@[simp] theorem Monitor.at_self (s : Monitor Q Op L R I) (i : I) (p : Phase Op L R) :
    (s.at i p).phase i = p := Function.update_self ..

theorem Monitor.at_ne (s : Monitor Q Op L R I) {i j : I} (other : j ≠ i) (p : Phase Op L R) :
    (s.at i p).phase j = s.phase j := Function.update_of_ne other ..

theorem Monitor.isWaiting_at {s : Monitor Q Op L R I} {i j : I} {p : Phase Op L R}
    (fresh : p.isWaiting = false) (waits : ((s.at i p).phase j).isWaiting = true) :
    (s.phase j).isWaiting = true := by
  by_cases own : j = i
  · rw [own, Monitor.at_self, fresh] at waits
    cases waits
  · rwa [Monitor.at_ne s own] at waits

def Object.after (object : Object Q Op L R) (op : Op) (r : R) : Phase Op L R :=
  if object.notifies op r then .notifying op r else .leaving op r

section After

variable (object : Object Q Op L R) (op : Op) (r : R)

theorem Object.after_cases :
    object.after op r = .notifying op r ∨ object.after op r = .leaving op r := by
  unfold Object.after
  split
  · exact .inl rfl
  · exact .inr rfl

theorem locks_after : (object.after op r).locks = true := by
  obtain h | h := object.after_cases op r <;> rw [h] <;> rfl

theorem isInside_after : (object.after op r).isInside = false := by
  obtain h | h := object.after_cases op r <;> rw [h] <;> rfl

theorem isWaiting_after : (object.after op r).isWaiting = false := by
  obtain h | h := object.after_cases op r <;> rw [h] <;> rfl

theorem slept_after : (object.after op r).slept = none := by
  obtain h | h := object.after_cases op r <;> rw [h] <;> rfl

end After

section Step

variable [Fintype I] (object : Object Q Op L R)

def step (s : Monitor Q Op L R I) : Action Op I → Option (Monitor Q Op L R I)
  | .call i op =>
    match s.phase i with
    | .outside => some { s.at i (.entering op) with trace := .called i op :: s.trace }
    | _ => none
  | .lock i =>
    if s.holder.isNone then
      match s.phase i with
      | .entering op | .woken op => some { s.at i (.testing op) with holder := some i }
      | _ => none
    else none
  | .test i =>
    match s.phase i with
    | .testing op =>
      if object.ready op s.object then some (s.at i (.inside op (object.begins op)))
      else some { s.at i (.waiting op) with holder := none }
    | _ => none
  | .access i =>
    match s.phase i with
    | .inside op l =>
      match object.access op l s.object with
      | (.next l', q) => some { s.at i (.inside op l') with object := q }
      | (.ends r, q) => some {
          s.at i (object.after op r) with
          object := q
          trace := .took i op r :: s.trace
          left := q }
    | _ => none
  | .notify i woken =>
    match s.phase i with
    | .notifying op r =>
      match woken with
      | some j =>
        match s.phase j with
        | .waiting op' => some ((s.at i (.leaving op r)).at j (.woken op'))
        | _ => none
      | none =>
        if ∀ j, (s.phase j).isWaiting = false then some (s.at i (.leaving op r)) else none
    | _ => none
  | .leave i =>
    match s.phase i with
    | .leaving op r => some {
        s.at i .outside with
        holder := none
        trace := .returned i op r :: s.trace }
    | _ => none
  | .wake i =>
    match s.phase i with
    | .waiting op => some (s.at i (.woken op))
    | _ => none
  | .notifyAll => some { s with phase := fun i => (s.phase i).roused }

inductive Step : Monitor Q Op L R I → Action Op I → Monitor Q Op L R I → Prop where
  | call {s : Monitor Q Op L R I} {i : I} {op : Op} (was : s.phase i = .outside) :
    Step s (.call i op) { s.at i (.entering op) with trace := .called i op :: s.trace }
  | lock {s : Monitor Q Op L R I} {i : I} {op : Op} (free : s.holder = none)
    (was : s.phase i = .entering op ∨ s.phase i = .woken op) :
    Step s (.lock i) { s.at i (.testing op) with holder := some i }
  | begin {s : Monitor Q Op L R I} {i : I} {op : Op} (was : s.phase i = .testing op)
    (ready : object.ready op s.object = true) :
    Step s (.test i) (s.at i (.inside op (object.begins op)))
  | wait {s : Monitor Q Op L R I} {i : I} {op : Op} (was : s.phase i = .testing op)
    (unready : object.ready op s.object = false) :
    Step s (.test i) { s.at i (.waiting op) with holder := none }
  | next {s : Monitor Q Op L R I} {i : I} {op : Op} {l l' : L} {q : Q}
    (was : s.phase i = .inside op l) (accessed : object.access op l s.object = (.next l', q)) :
    Step s (.access i) { s.at i (.inside op l') with object := q }
  | ends {s : Monitor Q Op L R I} {i : I} {op : Op} {l : L} {r : R} {q : Q}
    (was : s.phase i = .inside op l) (accessed : object.access op l s.object = (.ends r, q)) :
    Step s (.access i) {
      s.at i (object.after op r) with
      object := q
      trace := .took i op r :: s.trace
      left := q }
  | notify {s : Monitor Q Op L R I} {i j : I} {op op' : Op} {r : R}
    (was : s.phase i = .notifying op r) (waits : s.phase j = .waiting op') :
    Step s (.notify i (some j)) ((s.at i (.leaving op r)).at j (.woken op'))
  | notifyNone {s : Monitor Q Op L R I} {i : I} {op : Op} {r : R}
    (was : s.phase i = .notifying op r) (nobody : ∀ j, (s.phase j).isWaiting = false) :
    Step s (.notify i none) (s.at i (.leaving op r))
  | leave {s : Monitor Q Op L R I} {i : I} {op : Op} {r : R} (was : s.phase i = .leaving op r) :
    Step s (.leave i) {
      s.at i .outside with
      holder := none
      trace := .returned i op r :: s.trace }
  | wake {s : Monitor Q Op L R I} {i : I} {op : Op} (was : s.phase i = .waiting op) :
    Step s (.wake i) (s.at i (.woken op))
  | notifyAll {s : Monitor Q Op L R I} :
    Step s .notifyAll { s with phase := fun i => (s.phase i).roused }

theorem step_of_eq {s t : Monitor Q Op L R I} {a : Action Op I}
    (taken : step object s a = some t) : Step object s a t := by
  cases a with
  | call i op =>
    cases here : s.phase i with
    | outside =>
      simp only [step, here] at taken
      cases taken
      exact .call here
    | _ => simp [step, here] at taken
  | lock i =>
    by_cases free : s.holder = none
    · cases here : s.phase i with
      | entering op =>
        simp only [step, free, here] at taken
        cases taken
        exact .lock free (.inl here)
      | woken op =>
        simp only [step, free, here] at taken
        cases taken
        exact .lock free (.inr here)
      | _ => simp [step, here] at taken
    · simp [step, free] at taken
  | test i =>
    cases here : s.phase i with
    | testing op =>
      simp only [step, here] at taken
      split at taken
      · next ready =>
        cases taken
        exact .begin here ready
      · next unready =>
        cases taken
        exact .wait here (Bool.eq_false_iff.mpr unready)
    | _ => simp [step, here] at taken
  | access i =>
    cases here : s.phase i with
    | inside op l =>
      simp only [step, here] at taken
      split at taken
      · next l' q accessed =>
        cases taken
        exact .next here accessed
      · next r q accessed =>
        cases taken
        exact .ends here accessed
    | _ => simp [step, here] at taken
  | notify i woken =>
    cases here : s.phase i with
    | notifying op r =>
      cases woken with
      | none =>
        simp only [step, here] at taken
        split at taken
        · next nobody =>
          cases taken
          exact .notifyNone here nobody
        · cases taken
      | some j =>
        cases there : s.phase j with
        | waiting op' =>
          simp only [step, here, there] at taken
          cases taken
          exact .notify here there
        | _ => simp [step, here, there] at taken
    | _ => simp [step, here] at taken
  | leave i =>
    cases here : s.phase i with
    | leaving op r =>
      simp only [step, here] at taken
      cases taken
      exact .leave here
    | _ => simp [step, here] at taken
  | wake i =>
    cases here : s.phase i with
    | waiting op =>
      simp only [step, here] at taken
      cases taken
      exact .wake here
    | _ => simp [step, here] at taken
  | notifyAll =>
    cases taken
    exact .notifyAll

end Step

/-! ### The lock -/

/-- The holder is the one thread that has the lock. -/
def Held (s : Monitor Q Op L R I) : Prop := ∀ i, (s.phase i).locks = true ↔ s.holder = some i

section Held

variable {object : Object Q Op L R} {s t : Monitor Q Op L R I}

theorem locks_at (i j : I) (p : Phase Op L R) :
    ((s.at i p).phase j).locks = if j = i then p.locks else (s.phase j).locks := by
  by_cases own : j = i
  · rw [own, Monitor.at_self, if_pos rfl]
  · rw [Monitor.at_ne s own, if_neg own]

theorem Held.at (held : Held s) {i : I} {p : Phase Op L R} (same : p.locks = (s.phase i).locks) :
    Held (s.at i p) := by
  intro j
  rw [locks_at]
  by_cases own : j = i
  · rw [if_pos own, same, ← own]
    exact held j
  · rw [if_neg own]
    exact held j

omit [DecidableEq I] in
theorem Held.only (held : Held s) {i j : I} (first : (s.phase i).locks = true)
    (second : (s.phase j).locks = true) : j = i := by
  have mine := (held i).mp first
  rw [(held j).mp second] at mine
  exact Option.some.inj mine

-- The thread that has the lock lets go of it.
theorem Held.release (held : Held s) {i : I} {p : Phase Op L R} (had : (s.phase i).locks = true)
    (without : p.locks = false) {t : Monitor Q Op L R I} (phase : t.phase = (s.at i p).phase)
    (free : t.holder = none) : Held t := by
  intro j
  rw [phase, locks_at, free]
  refine iff_of_false ?_ (Option.some_ne_none j).symm
  by_cases own : j = i
  · rw [if_pos own, without]
    exact Bool.false_ne_true
  · rw [if_neg own]
    exact fun others => own (held.only had others)

theorem Held.step {a : Action Op I} (held : Held s) (taken : Step object s a t) : Held t := by
  cases taken with
  | @call i op was => exact held.at (p := .entering op) (by rw [was]; rfl)
  | @lock i op free was =>
    intro j
    change ((s.at i (.testing op)).phase j).locks = true ↔ some i = some j
    rw [locks_at, Option.some.injEq]
    by_cases own : j = i
    · rw [if_pos own]
      exact iff_of_true rfl own.symm
    · rw [if_neg own, held j, free]
      exact iff_of_false (Option.some_ne_none j).symm (Ne.symm own)
  | @begin i op was ready => exact held.at (by rw [was]; rfl)
  | @wait i op was unready =>
    exact held.release (p := .waiting op) (by rw [was]; rfl) rfl rfl rfl
  | @next i op l l' q was accessed => exact held.at (p := .inside op l') (by rw [was]; rfl)
  | @ends i op l r q was accessed =>
    exact held.at (p := object.after op r) (by rw [locks_after, was]; rfl)
  | @notify i j op op' r was waits =>
    have first := held.at (i := i) (p := .leaving op r) (by rw [was]; rfl)
    refine first.at ?_
    rw [locks_at]
    by_cases own : j = i
    · rw [own, was] at waits
      cases waits
    · rw [if_neg own, waits]
      rfl
  | @notifyNone i op r was nobody => exact held.at (by rw [was]; rfl)
  | @leave i op r was => exact held.release (p := .outside) (by rw [was]; rfl) rfl rfl rfl
  | @wake i op was => exact held.at (by rw [was]; rfl)
  | notifyAll =>
    intro j
    change (s.phase j).roused.locks = true ↔ s.holder = some j
    rw [Phase.locks_roused]
    exact held j

end Held

/-! ### The object between the accesses -/

/-- The object is as it was left, except for what the one thread inside has done to it. -/
structure Exclusive (object : Object Q Op L R) (s : Monitor Q Op L R I) : Prop where
  held : Held s
  still : (∀ i, (s.phase i).isInside = false) → s.object = s.left
  inside : ∀ i op l, s.phase i = .inside op l → Alone object op s.left l s.object

section Exclusive

variable {object : Object Q Op L R} {s t : Monitor Q Op L R I}

omit [DecidableEq I] in
theorem exclusive_initial (object : Object Q Op L R) (start : Q) :
    Exclusive object ({ object := start } : Monitor Q Op L R I) where
  held i := iff_of_false Bool.false_ne_true (Option.some_ne_none i).symm
  still _ := rfl
  inside i op l was := by cases was

omit [DecidableEq I] in
theorem Exclusive.alone (exclusive : Exclusive object s) {i j : I} (locks : (s.phase i).locks = true)
    (other : j ≠ i) : (s.phase j).isInside = false :=
  Bool.eq_false_iff.mpr fun inside =>
    other (exclusive.held.only locks (Phase.locks_of_isInside inside))

omit [DecidableEq I] in
theorem Exclusive.eq_left (exclusive : Exclusive object s) {i : I} (locks : (s.phase i).locks = true)
    (without : (s.phase i).isInside = false) : s.object = s.left := by
  refine exclusive.still fun j => ?_
  by_cases own : j = i
  · rw [own, without]
  · exact exclusive.alone locks own

omit [DecidableEq I] in
theorem Exclusive.of_free (exclusive : Exclusive object s) (free : s.holder = none) :
    s.object = s.left := by
  refine exclusive.still fun j => Bool.eq_false_iff.mpr fun inside => ?_
  have holds := (exclusive.held j).mp (Phase.locks_of_isInside inside)
  rw [free] at holds
  cases holds

omit [DecidableEq I] in
theorem Exclusive.frame (exclusive : Exclusive object s) (held : Held t)
    (object_eq : t.object = s.object) (left_eq : t.left = s.left)
    (bodies : ∀ i, t.phase i = s.phase i ∨
      (t.phase i).isInside = false ∧ (s.phase i).isInside = false) : Exclusive object t where
  held := held
  still outside := by
    rw [object_eq, left_eq]
    refine exclusive.still fun i => ?_
    obtain same | ⟨-, was⟩ := bodies i
    · rw [← same]
      exact outside i
    · exact was
  inside i op l there := by
    rw [object_eq, left_eq]
    obtain same | ⟨no, -⟩ := bodies i
    · exact exclusive.inside i op l (same ▸ there)
    · rw [there] at no
      cases no

theorem bodies_at {i : I} {p : Phase Op L R} (fresh : p.isInside = false)
    (was : (s.phase i).isInside = false) (j : I) :
    (s.at i p).phase j = s.phase j ∨
      ((s.at i p).phase j).isInside = false ∧ (s.phase j).isInside = false := by
  by_cases own : j = i
  · subst own
    rw [Monitor.at_self]
    exact .inr ⟨fresh, was⟩
  · exact .inl (s.at_ne own p)

-- The thread that has the lock goes on inside, where nobody else is.
theorem Exclusive.at_inside (exclusive : Exclusive object s) (held : Held t) {i : I} {op : Op} {l : L}
    (locks : (s.phase i).locks = true) (phase : t.phase = (s.at i (.inside op l)).phase)
    (alone : Alone object op t.left l t.object) : Exclusive object t where
  held := held
  still outside := by
    have here := outside i
    rw [phase, Monitor.at_self] at here
    cases here
  inside j op' l' there := by
    rw [phase] at there
    by_cases own : j = i
    · rw [own, Monitor.at_self] at there
      cases there
      exact alone
    · rw [Monitor.at_ne s own] at there
      have no := exclusive.alone locks own
      rw [there] at no
      cases no

theorem Exclusive.step {a : Action Op I} (exclusive : Exclusive object s) (taken : Step object s a t) :
    Exclusive object t := by
  have held := exclusive.held.step taken
  cases taken with
  | @call i op was => exact exclusive.frame held rfl rfl (bodies_at rfl (by rw [was]; rfl))
  | @lock i op free was =>
    refine exclusive.frame held rfl rfl (bodies_at rfl ?_)
    obtain here | here := was <;> rw [here] <;> rfl
  | @begin i op was ready =>
    have locks : (s.phase i).locks = true := by rw [was]; rfl
    have still := exclusive.eq_left locks (by rw [was]; rfl)
    refine exclusive.at_inside held locks rfl ?_
    change Alone object op s.left (object.begins op) s.object
    rw [← still]
    exact .begins ready
  | @wait i op was unready => exact exclusive.frame held rfl rfl (bodies_at rfl (by rw [was]; rfl))
  | @next i op l l' q was accessed =>
    exact exclusive.at_inside held (by rw [was]; rfl) rfl
      (.next (exclusive.inside i op l was) accessed)
  | @ends i op l r q was accessed =>
    have locks : (s.phase i).locks = true := by rw [was]; rfl
    refine ⟨held, fun _ => rfl, fun j op' l' there => ?_⟩
    change (s.at i (object.after op r)).phase j = .inside op' l' at there
    by_cases own : j = i
    · have no := isInside_after object op r
      rw [own, Monitor.at_self] at there
      rw [there] at no
      cases no
    · have no := exclusive.alone locks own
      rw [Monitor.at_ne s own] at there
      rw [there] at no
      cases no
  | @notify i j op op' r was waits =>
    have first := exclusive.frame (t := s.at i (.leaving op r))
      (exclusive.held.at (by rw [was]; rfl)) rfl rfl (bodies_at rfl (by rw [was]; rfl))
    have apart : j ≠ i := by
      intro same
      rw [same, was] at waits
      cases waits
    refine first.frame held rfl rfl (bodies_at rfl ?_)
    rw [s.at_ne apart, waits]
    rfl
  | @notifyNone i op r was nobody =>
    exact exclusive.frame held rfl rfl (bodies_at rfl (by rw [was]; rfl))
  | @leave i op r was => exact exclusive.frame held rfl rfl (bodies_at rfl (by rw [was]; rfl))
  | @wake i op was => exact exclusive.frame held rfl rfl (bodies_at rfl (by rw [was]; rfl))
  | notifyAll =>
    refine exclusive.frame held rfl rfl fun j => ?_
    change (s.phase j).roused = s.phase j ∨
      (s.phase j).roused.isInside = false ∧ (s.phase j).isInside = false
    cases s.phase j with
    | waiting op => exact .inr ⟨rfl, rfl⟩
    | _ => exact .inl rfl

end Exclusive

/-! ### One moment for every operation -/

/-- What has been performed, one after the other, has these results and leaves this object. -/
inductive Legal (object : Object Q Op L R) (start : Q) : List (Mark Op R I) → Q → Prop where
  | start : Legal object start [] start
  | called {i : I} {op : Op} {earlier : List (Mark Op R I)} {q : Q}
    (legal : Legal object start earlier q) : Legal object start (.called i op :: earlier) q
  | took {i : I} {op : Op} {r : R} {earlier : List (Mark Op R I)} {q q' : Q}
    (legal : Legal object start earlier q) (performed : Performs object op q r q') :
    Legal object start (.took i op r :: earlier) q'
  | returned {i : I} {op : Op} {r : R} {earlier : List (Mark Op R I)} {q : Q}
    (legal : Legal object start earlier q) : Legal object start (.returned i op r :: earlier) q

inductive Stage (Op R : Type) where
  | outside
  | called (op : Op)
  | took (op : Op) (r : R)

/-- Every operation of the thread is called, performed once and returns that result. -/
inductive Stands (i : I) : List (Mark Op R I) → Stage Op R → Prop where
  | start : Stands i [] .outside
  | called {op : Op} {earlier : List (Mark Op R I)} (stood : Stands i earlier .outside) :
    Stands i (.called i op :: earlier) (.called op)
  | took {op : Op} {r : R} {earlier : List (Mark Op R I)} (stood : Stands i earlier (.called op)) :
    Stands i (.took i op r :: earlier) (.took op r)
  | returned {op : Op} {r : R} {earlier : List (Mark Op R I)}
    (stood : Stands i earlier (.took op r)) : Stands i (.returned i op r :: earlier) .outside
  | other {mark : Mark Op R I} {earlier : List (Mark Op R I)} {stage : Stage Op R}
    (others : mark.thread ≠ i) (stood : Stands i earlier stage) : Stands i (mark :: earlier) stage

def Phase.stage : Phase Op L R → Stage Op R
  | outside => .outside
  | entering op | testing op | inside op _ | waiting op | woken op => .called op
  | notifying op r | leaving op r => .took op r

/-- The operations have been performed one at a time, each between its call and its return. -/
structure Linearizable (object : Object Q Op L R) (start : Q) (trace : List (Mark Op R I)) (q : Q) :
    Prop where
  legal : Legal object start trace q
  stands : ∀ i, ∃ stage, Stands i trace stage

structure Traced (object : Object Q Op L R) (start : Q) (s : Monitor Q Op L R I) : Prop where
  legal : Legal object start s.trace s.left
  stands : ∀ i, Stands i s.trace (s.phase i).stage

section Traced

variable {object : Object Q Op L R} {start : Q} {s t : Monitor Q Op L R I}

theorem stands_at {i : I} {p : Phase Op L R} (stands : ∀ j, Stands j s.trace (s.phase j).stage)
    (same : p.stage = (s.phase i).stage) (j : I) : Stands j s.trace ((s.at i p).phase j).stage := by
  by_cases own : j = i
  · subst own
    rw [Monitor.at_self, same]
    exact stands j
  · rw [Monitor.at_ne s own]
    exact stands j

theorem stands_mark (mark : Mark Op R I) {p : Phase Op L R}
    (stands : ∀ j, Stands j s.trace (s.phase j).stage)
    (moved : Stands mark.thread (mark :: s.trace) p.stage) (j : I) :
    Stands j (mark :: s.trace) ((s.at mark.thread p).phase j).stage := by
  by_cases own : j = mark.thread
  · subst own
    rw [Monitor.at_self]
    exact moved
  · rw [Monitor.at_ne s own]
    exact .other (Ne.symm own) (stands j)

omit [DecidableEq I] in
theorem traced_initial (start : Q) : Traced object start ({ object := start } : Monitor Q Op L R I) :=
  ⟨.start, fun _ => .start⟩

theorem Traced.step {a : Action Op I} (traced : Traced object start s)
    (exclusive : Exclusive object s) (taken : Step object s a t) : Traced object start t := by
  obtain ⟨legal, stands⟩ := traced
  cases taken with
  | @call i op was =>
    have stood := stands i
    rw [was] at stood
    exact ⟨.called legal, stands_mark (.called i op) stands (.called stood)⟩
  | @lock i op free was =>
    refine ⟨legal, stands_at stands ?_⟩
    obtain here | here := was <;> rw [here] <;> rfl
  | @begin i op was ready => exact ⟨legal, stands_at stands (by rw [was]; rfl)⟩
  | @wait i op was unready => exact ⟨legal, stands_at stands (by rw [was]; rfl)⟩
  | @next i op l l' q was accessed => exact ⟨legal, stands_at stands (by rw [was]; rfl)⟩
  | @ends i op l r q was accessed =>
    have stood := stands i
    rw [was] at stood
    -- what the body has found and done is what it does alone
    have performed : Performs object op s.left r q :=
      ⟨l, s.object, exclusive.inside i op l was, accessed⟩
    refine ⟨.took legal performed, stands_mark (.took i op r) stands ?_⟩
    have stage : (object.after op r).stage = .took op r := by
      obtain h | h := object.after_cases op r <;> rw [h] <;> rfl
    rw [stage]
    exact .took stood
  | @notify i j op op' r was waits =>
    have first := stands_at (p := .leaving op r) stands (i := i) (by rw [was]; rfl)
    have apart : j ≠ i := by
      intro same
      rw [same, was] at waits
      cases waits
    have still : (s.at i (.leaving op r)).phase j = .waiting op' :=
      (s.at_ne apart _).trans waits
    exact ⟨legal, stands_at (s := s.at i (.leaving op r)) first (by rw [still]; rfl)⟩
  | @notifyNone i op r was nobody => exact ⟨legal, stands_at stands (by rw [was]; rfl)⟩
  | @leave i op r was =>
    have stood := stands i
    rw [was] at stood
    exact ⟨.returned legal, stands_mark (.returned i op r) stands (.returned stood)⟩
  | @wake i op was => exact ⟨legal, stands_at stands (by rw [was]; rfl)⟩
  | notifyAll =>
    refine ⟨legal, ?_⟩
    intro j
    have same : (s.phase j).roused.stage = (s.phase j).stage := by
      cases s.phase j <;> rfl
    exact same ▸ stands j

variable [Fintype I]

-- Every run of a monitor is linearizable, and the object is what the operations have left whenever
-- the lock is free.
theorem linearizable_of_run {actions : List (Action Op I)}
    (reached : run (Monitors.step object) { object := start } actions = some t) :
    Linearizable object start t.trace t.left ∧ (t.holder = none → t.object = t.left) := by
  have both : Exclusive object t ∧ Traced object start t :=
    run_invariant_of_step (fun s => Exclusive object s ∧ Traced object start s)
      ⟨exclusive_initial object start, traced_initial start⟩
      (fun _ _ _ both taken =>
        ⟨both.1.step (step_of_eq object taken), both.2.step both.1 (step_of_eq object taken)⟩)
      reached
  exact ⟨⟨both.2.legal, fun i => ⟨_, both.2.stands i⟩⟩, both.1.of_free⟩

end Traced

/-! ### Nobody sleeps over a supply -/

/-- A measure of what the operations wait for. One that `consumes` waits only where there is
nothing, and takes something; and whatever adds to the supply notifies. -/
structure Supply (object : Object Q Op L R) where
  supply : Q → Nat
  consumes : Op → Bool
  waits : ∀ {op q}, object.ready op q = false → consumes op = true ∧ supply q = 0
  done : ∀ {op q r q'}, Performs object op q r q' →
    supply q' + (consumes op).toNat ≤ supply q + (object.notifies op r).toNat

namespace Supply

variable {object : Object Q Op L R} (kept : Supply object)

/-- The threads that are on their way to the supply, or to tell of it. -/
def due : Phase Op L R → Nat
  | .testing op | .inside op _ => (kept.consumes op).toNat
  | .notifying _ _ | .woken _ => 1
  | .outside | .entering _ | .leaving _ _ | .waiting _ => 0

variable [Fintype I] {s t : Monitor Q Op L R I}

def coming (s : Monitor Q Op L R I) : Nat := ∑ i, kept.due (s.phase i)

/-- While somebody waits there is somebody coming for all that there is. -/
structure Provided (s : Monitor Q Op L R I) : Prop where
  enough : (∃ i, (s.phase i).isWaiting = true) → kept.supply s.left ≤ kept.coming s
  -- what has been woken had waited
  woken : ∀ i op, (s.phase i).slept = some op → kept.consumes op = true

theorem coming_at (i : I) (p : Phase Op L R) :
    kept.coming (s.at i p) + kept.due (s.phase i) = kept.coming s + kept.due p := by
  have moved : (fun j => kept.due ((s.at i p).phase j)) =
      Function.update (fun j => kept.due (s.phase j)) i (kept.due p) := by
    funext j
    simp only [Monitor.at, Function.update_apply]
    split <;> rfl
  have split := Finset.sum_eq_add_sum_sdiff_singleton_of_mem (Finset.mem_univ i)
    fun j => kept.due (s.phase j)
  rw [coming, coming, moved, Finset.sum_update_of_mem (Finset.mem_univ i), split]
  omega

omit [Fintype I] [DecidableEq I] in
theorem due_after (op : Op) (r : R) :
    kept.due (object.after op r) = (object.notifies op r).toNat := by
  unfold Object.after
  cases object.notifies op r <;> rfl

variable {kept}

omit [Fintype I] in
theorem consumes_at (woken : ∀ j op, (s.phase j).slept = some op → kept.consumes op = true)
    {i : I} {p : Phase Op L R} (plain : ∀ op, p.slept = some op → kept.consumes op = true)
    (j : I) (op : Op) (slept : ((s.at i p).phase j).slept = some op) :
    kept.consumes op = true := by
  by_cases own : j = i
  · rw [own, Monitor.at_self] at slept
    exact plain op slept
  · rw [Monitor.at_ne s own] at slept
    exact woken j op slept

theorem Provided.at (provided : kept.Provided s) {i : I} {p : Phase Op L R}
    (fresh : p.isWaiting = false) (due : kept.due (s.phase i) ≤ kept.due p)
    (plain : ∀ op, p.slept = some op → kept.consumes op = true) : kept.Provided (s.at i p) := by
  refine ⟨?_, consumes_at provided.woken plain⟩
  rintro ⟨j, waits⟩
  have before := provided.enough ⟨j, Monitor.isWaiting_at fresh waits⟩
  have moved := kept.coming_at (s := s) i p
  change kept.supply s.left ≤ kept.coming (s.at i p)
  omega

-- What an operation adds to the supply, its thread is about to tell of.
theorem Provided.performed (provided : kept.Provided s) {i : I} {op : Op} {r : R} {q : Q}
    (due : kept.due (s.phase i) = (kept.consumes op).toNat)
    (done : Performs object op s.left r q)
    (waits : ∃ j, ((s.at i (object.after op r)).phase j).isWaiting = true) :
    kept.supply q ≤ kept.coming (s.at i (object.after op r)) := by
  obtain ⟨j, waits⟩ := waits
  have before := provided.enough ⟨j, Monitor.isWaiting_at (isWaiting_after object op r) waits⟩
  have moved := kept.coming_at (s := s) i (object.after op r)
  have balance := kept.done done
  rw [due, kept.due_after] at moved
  omega

-- The thread that tells passes on what it was coming for to the one that it wakes.
theorem Provided.notify (provided : kept.Provided s) {i j : I} {op op' : Op} {r : R}
    (was : s.phase i = .notifying op r) (waits : s.phase j = .waiting op') :
    kept.Provided ((s.at i (.leaving op r)).at j (.woken op')) := by
  have apart : j ≠ i := by
    intro same
    rw [same, was] at waits
    cases waits
  have still : (s.at i (.leaving op r)).phase j = .waiting op' := (s.at_ne apart _).trans waits
  have first := kept.coming_at (s := s) i (.leaving op r)
  have second := kept.coming_at (s := s.at i (.leaving op r)) j (.woken op')
  have before := provided.enough ⟨j, by rw [waits]; rfl⟩
  rw [was, Supply.due, Supply.due] at first
  rw [still, Supply.due, Supply.due] at second
  refine ⟨fun _ => ?_, consumes_at (consumes_at (p := .leaving op r) provided.woken nofun) ?_⟩
  · change kept.supply s.left ≤ kept.coming ((s.at i (.leaving op r)).at j (.woken op'))
    omega
  · intro op'' slept
    apply provided.woken j op''
    rw [waits]
    exact slept

theorem Provided.step {a : Action Op I} (provided : kept.Provided s)
    (exclusive : Exclusive object s) (taken : Step object s a t) : kept.Provided t := by
  cases taken with
  | @call i op was =>
    have entered := provided.at (i := i) (p := .entering op) rfl (by rw [was]; rfl) nofun
    exact ⟨entered.enough, entered.woken⟩
  | @lock i op free was =>
    have due : kept.due (s.phase i) ≤ kept.due (.testing op) := by
      obtain entering | woken := was
      · rw [entering]
        exact Nat.zero_le _
      · rw [woken, Supply.due, Supply.due, provided.woken i op (by rw [woken]; rfl)]
        exact Nat.le_refl 1
    have locked := provided.at (p := .testing op) rfl due nofun
    exact ⟨locked.enough, locked.woken⟩
  | @begin i op was ready => exact provided.at rfl (by rw [was]; rfl) nofun
  | @wait i op was unready =>
    obtain ⟨consumes, nothing⟩ := kept.waits unready
    refine ⟨fun _ => ?_, consumes_at provided.woken ?_⟩
    · -- the thread has found the object as it was left
      have still := exclusive.eq_left (i := i) (by rw [was]; rfl) (by rw [was]; rfl)
      change kept.supply s.left ≤ _
      rw [← still, nothing]
      exact Nat.zero_le _
    · intro op' slept
      cases slept
      exact consumes
  | @next i op l l' q was accessed =>
    have went := provided.at (i := i) (p := .inside op l') rfl (by rw [was]; rfl) nofun
    exact ⟨went.enough, went.woken⟩
  | @ends i op l r q was accessed =>
    refine ⟨provided.performed (by rw [was]; rfl) ⟨l, s.object, exclusive.inside i op l was,
      accessed⟩, consumes_at provided.woken ?_⟩
    intro op' slept
    rw [slept_after] at slept
    cases slept
  | @notify i j op op' r was waits => exact provided.notify was waits
  | @notifyNone i op r was nobody =>
    refine ⟨?_, consumes_at provided.woken nofun⟩
    rintro ⟨j, waits⟩
    have slept : (s.phase j).isWaiting = true := Monitor.isWaiting_at (p := .leaving op r) rfl waits
    rw [nobody j] at slept
    cases slept
  | @leave i op r was =>
    have left := provided.at (i := i) (p := .outside) rfl (by rw [was]; rfl) nofun
    exact ⟨left.enough, left.woken⟩
  | @wake i op was =>
    apply provided.at rfl
    · rw [was]
      exact Nat.zero_le _
    · intro op' same
      apply provided.woken i op'
      rw [was]
      exact same
  | notifyAll =>
    constructor
    · rintro ⟨j, waits⟩
      change (s.phase j).roused.isWaiting = true at waits
      rw [Phase.isWaiting_roused] at waits
      cases waits
    · intro j op slept
      change (s.phase j).roused.slept = some op at slept
      rw [Phase.slept_roused] at slept
      exact provided.woken j op slept

end Supply

section Quiet

variable [Fintype I] (object : Object Q Op L R) {s t : Monitor Q Op L R I}

/-- No thread that has called an operation can go on, other than by being woken. -/
def Quiet (s : Monitor Q Op L R I) : Prop :=
  ∀ a : Action Op I, a.internal = true → step object s a = none

variable {object}

theorem Quiet.not_locks (quiet : Quiet object s) (i : I) : (s.phase i).locks = false := by
  cases here : s.phase i with
  | testing op =>
    have stopped := quiet (.test i) rfl
    cases result : object.ready op s.object <;> simp [step, here, result] at stopped
  | inside op l =>
    have stopped := quiet (.access i) rfl
    cases result : object.access op l s.object with
    | mk outcome q => cases outcome <;> simp [step, here, result] at stopped
  | notifying op r =>
    by_cases somebody : ∃ j, (s.phase j).isWaiting = true
    · obtain ⟨j, waits⟩ := somebody
      have stopped := quiet (.notify i (some j)) rfl
      cases there : s.phase j with
      | waiting op' => simp [step, here, there] at stopped
      | _ =>
        rw [there] at waits
        cases waits
    · have nobody : ∀ j, (s.phase j).isWaiting = false := fun j =>
        Bool.eq_false_iff.mpr fun waits => somebody ⟨j, waits⟩
      have stopped := quiet (.notify i none) rfl
      simp [step, here, nobody] at stopped
  | leaving op r =>
    have stopped := quiet (.leave i) rfl
    simp [step, here] at stopped
  | _ => rfl

theorem Quiet.free (quiet : Quiet object s) (held : Held s) : s.holder = none := by
  cases holds : s.holder with
  | none => rfl
  | some j =>
    have locks := (held j).mpr holds
    rw [quiet.not_locks j] at locks
    cases locks

theorem Quiet.asleep (quiet : Quiet object s) (held : Held s) (i : I) :
    s.phase i = .outside ∨ ∃ op, s.phase i = .waiting op := by
  have free := quiet.free held
  have unlocked := quiet.not_locks i
  have stopped := quiet (.lock i) rfl
  cases here : s.phase i with
  | outside => exact .inl rfl
  | waiting op => exact .inr ⟨op, rfl⟩
  | entering op => simp [step, free, here] at stopped
  | woken op => simp [step, free, here] at stopped
  | _ =>
    rw [here] at unlocked
    cases unlocked

-- A thread that sleeps while all is quiet has nothing to take.
theorem Supply.nothing_of_quiet (kept : Supply object) {start : Q} {actions : List (Action Op I)}
    (reached : run (Monitors.step object) { object := start } actions = some t)
    (quiet : Quiet object t) {i : I} {op : Op} (sleeps : t.phase i = .waiting op) :
    kept.supply t.object = 0 := by
  have initial : kept.Provided ({ object := start } : Monitor Q Op L R I) := by
    constructor
    · rintro ⟨j, waits⟩
      cases waits
    · intro j op slept
      cases slept
  have both : Exclusive object t ∧ kept.Provided t :=
    run_invariant_of_step (fun s => Exclusive object s ∧ kept.Provided s)
      ⟨exclusive_initial object start, initial⟩
      (fun _ _ _ both taken =>
        ⟨both.1.step (step_of_eq object taken), both.2.step both.1 (step_of_eq object taken)⟩)
      reached
  obtain ⟨exclusive, provided⟩ := both
  have nobody : kept.coming t = 0 := by
    apply Finset.sum_eq_zero
    intro j _
    obtain outside | ⟨op', waits⟩ := quiet.asleep exclusive.held j
    · rw [outside]
      rfl
    · rw [waits]
      rfl
  have enough := provided.enough ⟨i, by rw [sleeps]; rfl⟩
  have still := exclusive.of_free (quiet.free exclusive.held)
  rw [still]
  omega

end Quiet

end Semantics.Monitors
