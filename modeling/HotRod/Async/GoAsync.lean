import HotRod.Events.Dispatchers

/-! `RemoteCache::goAsync`: the task behind every asynchronous call.

The task runs the caller's function and one of two callbacks inside one `try` block.
There is an overload for functions that return a value and one for those that do not.
A handler without a `fail` callback throws its argument by value, and what arrives is
a plain `std::exception`. -/

set_option autoImplicit false

namespace HotRod.Async

open Semantics.Execution
open Events (Thrown)

variable {W A : Type}

/-! ### The task -/

/-- A call the task makes of a function it was given. -/
inductive Call (A : Type) where
  | function
  | success (result : A)
  | fail (e : Exn)
  deriving DecidableEq, Repr

structure Tasked (W A : Type) where
  -- `world` is whatever the caller's functions read and change.
  world : W
  calls : List (Call A) := []

/-- The future reports how the task ends. -/
abbrev TaskM (W A : Type) := EStateM Thrown (Tasked W A)

def invoke (call : Call A) (body : EStateM Thrown W A) : TaskM W A A := fun s =>
  match body s.world with
  | .ok a world => .ok a { world, calls := s.calls ++ [call] }
  | .error thrown world => .error thrown { world, calls := s.calls ++ [call] }

-- The copy that `throw ex` makes of a `std::exception&`.
def sliced : Exn := .std "std::exception"

-- `catch (std::exception& ex)`.
def handle (fail : Option (Exn → EStateM Thrown W A)) : Thrown → TaskM W A A
  | .exn e =>
    match fail with
    | some fail => invoke (.fail e) (fail e)
    | none => throw (.exn sliced)
  | .foreign => throw .foreign

def goAsync (f : EStateM Thrown W A) (success : Option (A → EStateM Thrown W A))
    (fail : Option (Exn → EStateM Thrown W A)) : TaskM W A A :=
  tryCatch
    (match success with
      | none => invoke .function f
      | some success => do
        let result ← invoke .function f
        invoke (.success result) (success result))
    (handle fail)

-- The overload for `void` functions. `success` stands where the other one has `success(f())`.
def goAsyncVoid (f : EStateM Thrown W Unit) (success : Option (EStateM Thrown W Unit))
    (fail : Option (Exn → EStateM Thrown W Unit)) : TaskM W Unit Unit :=
  tryCatch
    (match success with
      | none => invoke .function f
      | some success => invoke (.success ()) success)
    (handle fail)

/-! ### The contract -/

def Call.isFunction : Call A → Bool
  | .function => true
  | _ => false

def Call.successOf : Call A → Option A
  | .success result => some result
  | _ => none

def Call.failOf : Call A → Option Exn
  | .fail e => some e
  | _ => none

/-- What a task owes to a function and to the callbacks that are given. -/
structure Contract (f : EStateM Thrown W A) (w : W) (success fail : Bool)
    (ran : EStateM.Result Thrown (Tasked W A) A) : Prop where
  once : (final ran).calls.countP Call.isFunction = 1
  returned : ∀ a v, f w = .ok a v → success →
    (final ran).calls.filterMap Call.successOf = [a] ∧
      List.Sublist [.function, .success a] (final ran).calls
  raises : ∀ e v, f w = .error (.exn e) v →
    (final ran).calls.filterMap Call.successOf = [] ∧
      if fail then (final ran).calls.filterMap Call.failOf = [e]
      else raised ran = some (.exn e)

def Reported (f : EStateM Thrown W A) (w : W) (fail : Bool) : Prop :=
  fail ∨ ∀ e v, f w = .error (.exn e) v → e = sliced

/-! ### One call -/

section Invoke

variable {call : Call A} {body : EStateM Thrown W A} {s : Tasked W A} {v : W}

theorem invoke_of_ok {a : A} (returned : body s.world = .ok a v) :
    invoke call body s = .ok a { world := v, calls := s.calls ++ [call] } := by
  simp only [invoke, returned]

theorem invoke_of_error {thrown : Thrown} (raised : body s.world = .error thrown v) :
    invoke call body s = .error thrown { world := v, calls := s.calls ++ [call] } := by
  simp only [invoke, raised]

theorem calls_invoke (call : Call A) (body : EStateM Thrown W A) (s : Tasked W A) :
    (final (invoke call body s)).calls = s.calls ++ [call] := by
  unfold invoke
  cases body s.world <;> rfl

theorem world_invoke (call : Call A) (body : EStateM Thrown W A) (s : Tasked W A) :
    (final (invoke call body s)).world = final (body s.world) := by
  unfold invoke
  cases body s.world <;> rfl

theorem calls_handle (fail : Option (Exn → EStateM Thrown W A)) (thrown : Thrown)
    (s : Tasked W A) :
    (final (handle fail thrown s)).calls = s.calls ∨
      ∃ e, thrown = .exn e ∧ fail.isSome ∧
        (final (handle fail thrown s)).calls = s.calls ++ [.fail e] := by
  cases thrown with
  | foreign => exact .inl rfl
  | exn e =>
    cases fail with
    | none => exact .inl rfl
    | some fail => exact .inr ⟨e, rfl, rfl, calls_invoke _ _ _⟩

end Invoke

/-! ### The overloads -/

section Tasks

variable {f : EStateM Thrown W A} {fail : Option (Exn → EStateM Thrown W A)} {w v : W}

theorem goAsync_of_error {success : Option (A → EStateM Thrown W A)} {thrown : Thrown}
    (threw : f w = .error thrown v) :
    goAsync f success fail { world := w } =
      handle fail thrown { world := v, calls := [.function] } := by
  have first : invoke .function f { world := w } = .error thrown ⟨v, [.function]⟩ :=
    invoke_of_error threw
  cases success with
  | none => exact tryCatch_of_error first
  | some success => exact tryCatch_of_error (bind_of_error first)

theorem goAsync_of_ok_none {a : A} (returned : f w = .ok a v) :
    goAsync f none fail { world := w } = .ok a { world := v, calls := [.function] } :=
  tryCatch_of_ok (invoke_of_ok returned)

theorem goAsync_of_ok_some {success : A → EStateM Thrown W A} {a : A}
    (returned : f w = .ok a v) :
    goAsync f (some success) fail { world := w } =
      tryCatch (invoke (.success a) (success a)) (handle fail)
        { world := v, calls := [.function] } := by
  have first : invoke .function f { world := w } = .ok a ⟨v, [.function]⟩ :=
    invoke_of_ok returned
  exact tryCatch_bind_of_ok first

theorem calls_goAsync_some {a : A} (returned : f w = .ok a v)
    (success : A → EStateM Thrown W A) (fail : Option (Exn → EStateM Thrown W A)) :
    ∃ rest : List Exn, (final (goAsync f (some success) fail { world := w })).calls =
      .function :: .success a :: rest.map Call.fail := by
  rw [goAsync_of_ok_some returned]
  cases called : invoke (.success a) (success a) { world := v, calls := [.function] } with
  | ok b s =>
    have calls := calls_invoke (.success a) (success a) { world := v, calls := [.function] }
    rw [called] at calls
    rw [tryCatch_of_ok called]
    exact ⟨[], calls⟩
  | error thrown s =>
    have calls := calls_invoke (.success a) (success a) { world := v, calls := [.function] }
    rw [called] at calls
    rw [tryCatch_of_error called]
    obtain same | ⟨e, -, -, more⟩ := calls_handle fail thrown s
    · exact ⟨[], same.trans calls⟩
    · exact ⟨[e], more.trans (by rw [show s.calls = _ from calls]; rfl)⟩

theorem reported_of_ok {a : A} (returned : f w = .ok a v) (given : Bool) :
    Reported f w given := by
  refine .inr ?_
  intro e u threw
  rw [returned] at threw
  cases threw

-- A task that ends in the handler keeps the contract unless it throws a copy that is not the
-- exception.
theorem contract_handle_iff {thrown : Thrown} (threw : f w = .error thrown v) (given : Bool) :
    Contract f w given fail.isSome (handle fail thrown { world := v, calls := [.function] }) ↔
      Reported f w fail.isSome := by
  cases thrown with
  | foreign =>
    have nothing : ∀ e u, f w ≠ .error (.exn e) u := by
      intro e u same
      rw [threw] at same
      cases same
    refine iff_of_true ⟨rfl, ?_, ?_⟩ (.inr ?_)
    · intro a u returned
      rw [threw] at returned
      cases returned
    · exact fun e u same => absurd same (nothing e u)
    · exact fun e u same => absurd same (nothing e u)
  | exn e =>
    cases fail with
    | some fail =>
      have calls := calls_invoke (.fail e) (fail e) { world := v, calls := [Call.function] }
      refine iff_of_true ⟨?_, ?_, ?_⟩ (.inl rfl)
      · rw [handle, calls]
        rfl
      · intro a u returned
        rw [threw] at returned
        cases returned
      · intro e' u same
        rw [threw] at same
        cases same
        rw [handle, calls]
        exact ⟨rfl, rfl⟩
    | none =>
      constructor
      · intro kept
        obtain ⟨-, rethrown⟩ := kept.raises e v threw
        have same : sliced = e := Thrown.exn.inj (Option.some.inj rethrown)
        refine .inr ?_
        intro e' u threw'
        rw [threw] at threw'
        cases threw'
        exact same.symm
      · intro reported
        have plain : e = sliced := by
          cases reported with
          | inl given => cases given
          | inr plain => exact plain e v threw
        refine ⟨rfl, ?_, ?_⟩
        · intro a u returned
          rw [threw] at returned
          cases returned
        · intro e' u same
          rw [threw] at same
          cases same
          rw [plain]
          exact ⟨rfl, rfl⟩

theorem contract_of_ok {a : A} {given caught : Bool}
    {ran : EStateM.Result Thrown (Tasked W A) A} (returned : f w = .ok a v)
    (once : (final ran).calls.countP Call.isFunction = 1)
    (succeeded : given → (final ran).calls.filterMap Call.successOf = [a] ∧
      List.Sublist [.function, .success a] (final ran).calls) :
    Contract f w given caught ran := by
  refine ⟨once, ?_, ?_⟩
  · intro b u same given
    rw [returned] at same
    cases same
    exact succeeded given
  · intro e u threw
    rw [returned] at threw
    cases threw

theorem countP_fails (rest : List Exn) :
    (rest.map (Call.fail (A := A))).countP Call.isFunction = 0 := by
  rw [List.countP_map]
  exact List.countP_eq_zero.mpr fun e _ => Bool.false_ne_true

theorem successes_fails (rest : List Exn) :
    (rest.map (Call.fail (A := A))).filterMap Call.successOf = [] := by
  rw [List.filterMap_map]
  exact List.filterMap_eq_nil_iff.mpr fun e _ => rfl

theorem goAsync_contract_iff (f : EStateM Thrown W A)
    (success : Option (A → EStateM Thrown W A)) (fail : Option (Exn → EStateM Thrown W A))
    (w : W) :
    Contract f w success.isSome fail.isSome (goAsync f success fail { world := w }) ↔
      Reported f w fail.isSome := by
  cases ended : f w with
  | error thrown v =>
    rw [goAsync_of_error ended]
    exact contract_handle_iff ended success.isSome
  | ok a v =>
    refine iff_of_true ?_ (reported_of_ok ended _)
    cases success with
    | none =>
      rw [goAsync_of_ok_none ended]
      exact contract_of_ok ended rfl (fun given => absurd given Bool.false_ne_true)
    | some success =>
      obtain ⟨rest, calls⟩ := calls_goAsync_some ended success fail
      refine contract_of_ok ended ?_ ?_
      · rw [calls, List.countP_cons, List.countP_cons, countP_fails]
        rfl
      · intro _
        rw [calls]
        refine ⟨?_, .cons_cons _ (.cons_cons _ (List.nil_sublist _))⟩
        rw [List.filterMap_cons, List.filterMap_cons]
        exact congrArg (a :: ·) (successes_fails rest)

end Tasks

section Void

variable {f : EStateM Thrown W Unit} {success : EStateM Thrown W Unit}
  {fail : Option (Exn → EStateM Thrown W Unit)} {w : W}

theorem goAsyncVoid_none (f : EStateM Thrown W Unit) (fail : Option (Exn → EStateM Thrown W Unit)) :
    goAsyncVoid f none fail = goAsync f none fail := rfl

theorem countP_goAsyncVoid_some :
    (final (goAsyncVoid f (some success) fail { world := w })).calls.countP Call.isFunction = 0 := by
  have calls := calls_invoke (.success ()) success { world := w }
  unfold goAsyncVoid
  cases called : invoke (.success ()) success { world := w } with
  | ok a s =>
    rw [called] at calls
    rw [tryCatch_of_ok called, show (final (.ok a s)).calls = _ from calls]
    rfl
  | error thrown s =>
    rw [called] at calls
    rw [tryCatch_of_error called]
    obtain same | ⟨e, -, -, more⟩ := calls_handle fail thrown s
    · rw [same, show s.calls = _ from calls]
      rfl
    · rw [more, show s.calls = _ from calls]
      rfl

end Void

theorem goAsyncVoid_contract_iff (f : EStateM Thrown W Unit)
    (success : Option (EStateM Thrown W Unit)) (fail : Option (Exn → EStateM Thrown W Unit))
    (w : W) :
    Contract f w success.isSome fail.isSome (goAsyncVoid f success fail { world := w }) ↔
      success = none ∧ Reported f w fail.isSome := by
  cases success with
  | none =>
    rw [goAsyncVoid_none]
    have same := goAsync_contract_iff f none fail w
    exact same.trans (iff_and_self.mpr fun _ => rfl)
  | some success =>
    refine iff_of_false ?_ (fun both => Option.some_ne_none _ both.1)
    intro kept
    have once := kept.once
    rw [countP_goAsyncVoid_some] at once
    cases once

/-- Both overloads, for every function, pair of callbacks and world. -/
theorem contracts_iff (W A : Type) :
    (∀ (f : EStateM Thrown W A) (success : Option (A → EStateM Thrown W A))
      (fail : Option (Exn → EStateM Thrown W A)) (w : W),
      Contract f w success.isSome fail.isSome (goAsync f success fail { world := w }) ↔
        Reported f w fail.isSome) ∧
    ∀ (f : EStateM Thrown W Unit) (success : Option (EStateM Thrown W Unit))
      (fail : Option (Exn → EStateM Thrown W Unit)) (w : W),
      Contract f w success.isSome fail.isSome (goAsyncVoid f success fail { world := w }) ↔
        success = none ∧ Reported f w fail.isSome :=
  ⟨goAsync_contract_iff, goAsyncVoid_contract_iff⟩

/-- A `void` function with a success callback is never called. -/
theorem not_contract_of_success :
    ¬ ∀ W A : Type,
      (∀ (f : EStateM Thrown W A) (success : Option (A → EStateM Thrown W A))
        (fail : Option (Exn → EStateM Thrown W A)) (w : W),
        Contract f w success.isSome fail.isSome (goAsync f success fail { world := w })) ∧
      ∀ (f : EStateM Thrown W Unit) (success : Option (EStateM Thrown W Unit))
        (fail : Option (Exn → EStateM Thrown W Unit)) (w : W),
        Contract f w success.isSome fail.isSome (goAsyncVoid f success fail { world := w }) := by
  intro all
  have once := ((all Nat Unit).2 (modify (· + 1)) (some (pure ())) none 0).once
  rw [countP_goAsyncVoid_some] at once
  cases once

end HotRod.Async
