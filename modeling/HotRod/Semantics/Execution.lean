import Mathlib.Data.List.Forall2
import Mathlib.Logic.Basic

/-! Calls that return a value or raise an exception.

`EStateM` keeps every write made before a raise, which is how a handler in the
modelled language sees the heap. The equations below evaluate a call one
construct at a time; `final` reads the state a call leaves by either exit. -/

set_option autoImplicit false

namespace Semantics.Execution

variable {E S A B : Type}

def final : EStateM.Result E S A → S
  | .ok _ s => s
  | .error _ s => s

def raised : EStateM.Result E S A → Option E
  | .ok _ _ => none
  | .error e _ => some e

@[simp] theorem final_ok (a : A) (s : S) : final (.ok a s : EStateM.Result E S A) = s := rfl

@[simp] theorem final_error (e : E) (s : S) : final (.error e s : EStateM.Result E S A) = s := rfl

@[simp] theorem raised_ok (a : A) (s : S) : raised (.ok a s : EStateM.Result E S A) = none := rfl

@[simp] theorem raised_error (e : E) (s : S) :
    raised (.error e s : EStateM.Result E S A) = some e := rfl

@[simp] theorem pure_apply (a : A) (s : S) : (pure a : EStateM E S A) s = .ok a s := rfl

@[simp] theorem throw_apply (e : E) (s : S) : (throw e : EStateM E S A) s = .error e s := rfl

@[simp] theorem get_apply (s : S) : (get : EStateM E S S) s = .ok s s := rfl

@[simp] theorem modify_apply (f : S → S) (s : S) :
    (modify f : EStateM E S PUnit) s = .ok () (f s) := rfl

theorem bind_apply (x : EStateM E S A) (f : A → EStateM E S B) (s : S) :
    (x >>= f) s = match x s with
      | .ok a t => f a t
      | .error e t => .error e t := by
  change EStateM.bind x f s = _
  unfold EStateM.bind
  cases x s <;> rfl

theorem map_apply (f : A → B) (x : EStateM E S A) (s : S) :
    (f <$> x) s = match x s with
      | .ok a t => .ok (f a) t
      | .error e t => .error e t := by
  change EStateM.map f x s = _
  unfold EStateM.map
  cases x s <;> rfl

theorem bind_of_ok {x : EStateM E S A} {f : A → EStateM E S B} {s t : S} {a : A}
    (returned : x s = .ok a t) : (x >>= f) s = f a t := by
  rw [bind_apply, returned]

theorem bind_of_error {x : EStateM E S A} {f : A → EStateM E S B} {s t : S} {e : E}
    (raise : x s = .error e t) : (x >>= f) s = .error e t := by
  rw [bind_apply, raise]

theorem exists_of_bind {x : EStateM E S A} {f : A → EStateM E S B} {s u : S} {b : B}
    (returned : (x >>= f) s = .ok b u) : ∃ a t, x s = .ok a t ∧ f a t = .ok b u := by
  rw [bind_apply] at returned
  cases first : x s with
  | ok a t =>
    rw [first] at returned
    exact ⟨a, t, rfl, returned⟩
  | error e t =>
    rw [first] at returned
    cases returned

theorem tryCatch_of_ok {x : EStateM E S A} {handler : E → EStateM E S A} {s t : S} {a : A}
    (returned : x s = .ok a t) : tryCatch x handler s = .ok a t := by
  change EStateM.tryCatch x handler s = _
  unfold EStateM.tryCatch
  simp only [returned]

theorem tryCatch_of_error {x : EStateM E S A} {handler : E → EStateM E S A} {s t : S} {e : E}
    (raise : x s = .error e t) : tryCatch x handler s = handler e t := by
  change EStateM.tryCatch x handler s = _
  unfold EStateM.tryCatch
  simp only [raise]
  rfl

theorem tryCatch_bind_of_ok {x : EStateM E S A} {f : A → EStateM E S B}
    {handler : E → EStateM E S B} {s t : S} {a : A} (returned : x s = .ok a t) :
    tryCatch (x >>= f) handler s = tryCatch (f a) handler t := by
  have went : (x >>= f) s = f a t := bind_of_ok returned
  cases later : f a t with
  | ok b u => rw [tryCatch_of_ok (went.trans later), tryCatch_of_ok later]
  | error e u => rw [tryCatch_of_error (went.trans later), tryCatch_of_error later]

/-- What holds of the value and state of a call that returns, and of the exception
and state of one that raises. -/
def Meets (result : EStateM.Result E S A) (post : A → S → Prop) (fail : E → S → Prop) : Prop :=
  match result with
  | .ok a s => post a s
  | .error e s => fail e s

@[simp] theorem meets_ok {a : A} {s : S} {post : A → S → Prop} {fail : E → S → Prop} :
    Meets (.ok a s) post fail ↔ post a s := Iff.rfl

@[simp] theorem meets_error {e : E} {s : S} {post : A → S → Prop} {fail : E → S → Prop} :
    Meets (.error e s) post fail ↔ fail e s := Iff.rfl

-- Sequencing: the first call's postcondition is what the continuation starts from.
theorem Meets.bind {x : EStateM E S A} {f : A → EStateM E S B} {s : S} {mid : A → S → Prop}
    {post : B → S → Prop} {fail : E → S → Prop} (first : Meets (x s) mid fail)
    (next : ∀ a t, mid a t → Meets (f a t) post fail) : Meets ((x >>= f) s) post fail := by
  rw [bind_apply]
  cases result : x s with
  | ok a t => exact next a t (by simpa [result] using first)
  | error e t => simpa [result] using first

theorem Meets.mono {result : EStateM.Result E S A} {post post' : A → S → Prop}
    {fail fail' : E → S → Prop} (meets : Meets result post fail)
    (weaker : ∀ a s, post a s → post' a s) (fails : ∀ e s, fail e s → fail' e s) :
    Meets result post' fail' := by
  cases result with
  | ok a s => exact weaker a s meets
  | error e s => exact fails e s meets

theorem Meets.and {result : EStateM.Result E S A} {post post' : A → S → Prop}
    {fail fail' : E → S → Prop} (first : Meets result post fail)
    (second : Meets result post' fail') :
    Meets result (fun a s => post a s ∧ post' a s) (fun e s => fail e s ∧ fail' e s) := by
  cases result with
  | ok a s => exact ⟨first, second⟩
  | error e s => exact ⟨first, second⟩

theorem Meets.final {result : EStateM.Result E S A} {P : S → Prop}
    (meets : Meets result (fun _ s => P s) (fun _ s => P s)) : P (final result) := by
  cases result with
  | ok a s => exact meets
  | error e s => exact meets

theorem meets_of_final {result : EStateM.Result E S A} {P : S → Prop} (holds : P (final result)) :
    Meets result (fun _ s => P s) (fun _ s => P s) := by
  cases result with
  | ok a s => exact holds
  | error e s => exact holds

theorem mapM_eq_ok {X Y : Type} {f : X → Except E Y} {xs : List X} {ys : List Y} :
    xs.mapM f = .ok ys ↔ List.Forall₂ (fun x y => f x = .ok y) xs ys := by
  induction xs generalizing ys with
  | nil => cases ys <;> simp [pure, Except.pure]
  | cons x rest ih =>
    rw [List.mapM_cons]
    cases head : f x with
    | error e =>
      simp only [bind, Except.bind, reduceCtorEq, false_iff]
      rintro (_ | ⟨here, -⟩)
      rw [head] at here
      cases here
    | ok y =>
      cases tail : rest.mapM f with
      | error e =>
        simp only [bind, Except.bind, reduceCtorEq, false_iff]
        rintro (_ | ⟨-, later⟩)
        rw [ih.mpr later] at tail
        cases tail
      | ok zs =>
        simp only [bind, Except.bind, pure, Except.pure, Except.ok.injEq]
        constructor
        · rintro rfl
          exact .cons head (ih.mp tail)
        · rintro (_ | ⟨here, later⟩)
          rw [head] at here
          rw [ih.mpr later] at tail
          cases here
          cases tail
          rfl

theorem exists_mapM_eq_ok {X Y : Type} {f : X → Except E Y} {xs : List X} :
    (∃ ys, xs.mapM f = .ok ys) ↔ ∀ x ∈ xs, ∃ y, f x = .ok y := by
  simp only [mapM_eq_ok]
  induction xs with
  | nil => simp
  | cons x rest ih =>
    rw [List.forall_mem_cons, ← ih]
    constructor
    · rintro ⟨ys, relation⟩
      cases relation with
      | cons here later => exact ⟨⟨_, here⟩, _, later⟩
    · rintro ⟨⟨y, here⟩, ys, later⟩
      exact ⟨y :: ys, .cons here later⟩

theorem exists_mem_of_mapM {X Y : Type} {f : X → Except E Y} {xs : List X} {ys : List Y}
    (returned : xs.mapM f = .ok ys) {x : X} (member : x ∈ xs) : ∃ y ∈ ys, f x = .ok y := by
  have each := mapM_eq_ok.mp returned
  induction each with
  | nil => cases member
  | cons here later ih =>
    rcases List.mem_cons.mp member with rfl | later'
    · exact ⟨_, List.mem_cons_self, here⟩
    · obtain ⟨y, found, call⟩ := ih (mapM_eq_ok.mpr later) later'
      exact ⟨y, List.mem_cons_of_mem _ found, call⟩

theorem map_eq_of_mapM {X Y Z : Type} {f : X → Except E Y} {g : Y → Z} {h : X → Z} {xs : List X}
    {ys : List Y} (returned : xs.mapM f = .ok ys)
    (copied : ∀ x ∈ xs, ∀ y, f x = .ok y → g y = h x) : ys.map g = xs.map h := by
  have each := mapM_eq_ok.mp returned
  induction each with
  | nil => rfl
  | cons here later ih =>
    rw [List.map_cons, List.map_cons, copied _ List.mem_cons_self _ here,
      ih (mapM_eq_ok.mpr later) fun x member => copied x (List.mem_cons_of_mem _ member)]

end Semantics.Execution
