import HotRod.Operations.Retries
import HotRod.Transport.Queues

/-! An operation that has returned a result is not run again: when this holds of
`RetryOnFailureOperation::execute`. The release of the transport is inside the
`try` block, so the pool decides. -/

set_option autoImplicit false

namespace HotRod.Operations

open Semantics.Execution Semantics.Transition

variable {T C : Type} {op : Operation} {s : Attempt} {t : Transport} {script : Script T} {r : T}

def Performs (script : Script T) (r : T) : Prop :=
  (∃ t, script.transport = .ok t) ∧ ∃ succeeded, script.outcome = .returned r succeeded

def PutBack (op : Operation) (script : Script T) : Prop :=
  match script.transport, script.outcome with
  | .ok _, .returned _ succeeded => keeps op succeeded = true ∨ script.pool.head?.join = none
  | _, _ => True

/-! ### One attempt -/

theorem tryBlock_of_performs (op : Operation) (performs : Performs script r) (failed : Bool) :
    (PutBack op script ∧ ∃ u, tryBlock op script { failed, answers := script.pool } = .ok r u) ∨
    (¬ PutBack op script ∧
      ∃ e u, tryBlock op script { failed, answers := script.pool } = .error (.raised e) u) := by
  obtain ⟨⟨t, obtained⟩, succeeded, body⟩ := performs
  obtain ⟨failed', block, leaves⟩ :=
    tryBlock_of_returned op { failed, answers := script.pool } obtained body
  simp only [PutBack, obtained, body]
  cases stays : keeps op succeeded with
  | true =>
    rw [stays] at leaves
    rw [bind_of_ok (releaseTransport_of_keeps leaves (some t))] at block
    exact .inl ⟨.inl rfl, _, block⟩
  | false =>
    rw [stays] at leaves
    have released := releaseTransport_some
        (s := { failed := failed', transport := some t, answers := script.pool })
      leaves script.valid t
    cases result : releaseTransport op script.valid (some t)
        { failed := failed', transport := some t, answers := script.pool } with
    | ok _ u =>
      rw [result] at released
      rw [bind_of_ok result] at block
      exact .inl ⟨.inr released.2, u, block⟩
    | error fault u =>
      rw [result] at released
      obtain ⟨-, e, rfl, raises⟩ := released
      rw [bind_of_error result] at block
      refine .inr ⟨?_, e, u, block⟩
      rintro (kept | accepted)
      · cases kept
      · simp only at raises
        rw [accepted] at raises
        cases raises

/-! ### Runs -/

variable [LinearOrder C] {env : Surroundings C}

theorem logError_not_returned {before : Loop C T} (running : before.ended = none) (e : Exn) (r : T) :
    (logErrorAndThrowExceptionIfNeeded env before e).ended ≠ some (.returned r) := by
  have next : ∀ s : Loop C T, s.ended = none → (nextTurn env s).ended ≠ some (.returned r) := by
    intro s running
    unfold nextTurn
    split
    · simp [running]
    · simp
  unfold logErrorAndThrowExceptionIfNeeded
  split
  · split
    · simp
    · simp
    · exact next _ running
  · exact next _ running

theorem turn_of_performs {before after : Loop C T} (performs : Performs script r)
    (taken : turn op env before script = some after) :
    after.ended = some (.returned r) ↔ PutBack op script := by
  cases running : before.ended with
  | some e =>
    simp only [turn, running] at taken
    cases taken
  | none =>
    simp only [turn, running] at taken
    obtain ⟨putBack, u, block⟩ | ⟨refused, e, u, block⟩ :=
      tryBlock_of_performs op performs before.failed
    · rw [attempt_of_returned block] at taken
      cases taken
      exact ⟨fun _ => putBack, fun _ => rfl⟩
    · refine iff_of_false ?_ refused
      rw [attempt_of_raised block, bind_apply] at taken
      cases handled : handle op script.valid e u with
      | ok _ v =>
        rw [handled] at taken
        cases taken
        exact logError_not_returned rfl e r
      | error fault v =>
        rw [handled] at taken
        cases taken
        intro same
        cases same

/-- Once an attempt has performed the operation, `execute` returns its result and
makes no further attempt. -/
def PerformedOnce (scripts : List (Script T)) (s : Loop C T) : Prop :=
  ∀ before script after r, scripts = before ++ script :: after → Performs script r →
    after = [] ∧ s.ended = some (.returned r)

/-- In every run of `execute`, no operation is repeated or its result dropped exactly
if every transport whose operation returned is put back. -/
theorem performed_once_iff (op : Operation) (env : Surroundings C) (currCluster : C)
    (scripts : List (Script T)) {s : Loop C T}
    (reached : run (turn op env) { currCluster } scripts = some s) :
    PerformedOnce scripts s ↔ ∀ script ∈ scripts, PutBack op script := by
  have turns : ∀ before script after, scripts = before ++ script :: after →
      ∃ u v, turn op env u script = some v ∧ run (turn op env) v after = some s := by
    rintro before script after rfl
    rw [run_append, Option.bind_eq_some_iff] at reached
    obtain ⟨u, -, later⟩ := reached
    obtain ⟨v, taken, rest⟩ := run_cons_eq_some.mp later
    exact ⟨u, v, taken, rest⟩
  constructor
  · intro once script member
    obtain ⟨before, after, split⟩ := List.append_of_mem member
    obtain ⟨u, v, taken, rest⟩ := turns before script after split
    match obtained : script.transport, body : script.outcome with
    | .ok t, .returned r succeeded =>
      have performs : Performs script r := ⟨⟨t, obtained⟩, succeeded, body⟩
      obtain ⟨rfl, ended⟩ := once before script after r split performs
      cases rest
      exact (turn_of_performs performs taken).mp ended
    | .error e, _ => simp [PutBack, obtained]
    | .ok t, .raised e early => simp [PutBack, obtained, body]
  · intro putBack before script after r split performs
    obtain ⟨u, v, taken, rest⟩ := turns before script after split
    have ended := (turn_of_performs performs taken).mpr (putBack script (by simp [split]))
    -- no turn follows the one that returned
    cases after with
    | nil =>
      cases rest
      exact ⟨rfl, ended⟩
    | cons next more =>
      obtain ⟨w, impossible, -⟩ := run_cons_eq_some.mp rest
      simp only [turn, ended] at impossible
      cases impossible

def unreachable : Exn := .transport "10.0.0.2" 11222 "connection refused"

def contended : List (HotRod.Transport.Action Nat) :=
  [.add 0 [], .add 1 [], .borrow 0 0 [] [], .borrow 1 1 [] []]

def repeated : List (Script Nat) :=
  [{ transport := .ok ⟨0, ⟨"10.0.0.1", 11222⟩⟩
     outcome := .returned 1 true
     pool := [some unreachable] },
    { transport := .ok ⟨1, ⟨"10.0.0.1", 11222⟩⟩, outcome := .returned 2 true }]

/-- The return serves the waiting borrower, whose server is unreachable; the
operation is performed a second time and its first result is dropped. -/
theorem operation_repeated :
    (∃ p, run (HotRod.Transport.step { maxTotal := 1 }) {} contended = some p ∧
      raised (HotRod.Transport.returnObject { maxTotal := 1 } 0 0 (.ok true)
        { p.pool with makes := [some unreachable] }) = some (.raised unreachable)) ∧
    ∃ s, run (turn .plain ⟨2, SortedMap.empty, fun _ _ => none, fun _ => none⟩)
      ({ currCluster := 0 } : Loop Nat Nat) repeated = some s ∧
      s.ended = some (.returned 2) ∧ ¬ PerformedOnce repeated s := by
  refine ⟨⟨_, rfl, rfl⟩, _, rfl, rfl, fun once => ?_⟩
  obtain ⟨last, -⟩ := once [] _ _ 1 rfl ⟨⟨_, rfl⟩, true, rfl⟩
  cases last

theorem performed_once_broken :
    ∃ s, run (turn .plain ⟨2, SortedMap.empty, fun _ _ => none, fun _ => none⟩)
      ({ currCluster := 0 } : Loop Nat Nat) broken = some s ∧ PerformedOnce broken s := by
  refine ⟨_, rfl, (performed_once_iff .plain
    ⟨2, SortedMap.empty, fun _ _ => none, fun _ => none⟩ 0 broken rfl).mpr ?_⟩
  intro script member
  rcases List.mem_cons.mp member with rfl | member
  · trivial
  · rw [List.mem_singleton.mp member]
    exact .inr rfl

end HotRod.Operations
