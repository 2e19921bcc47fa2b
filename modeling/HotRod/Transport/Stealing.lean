import HotRod.Transport.Sections
import HotRod.Semantics.Transition

/-! Making room for a connection at the expense of another server.

The loop of `tryRemoveIdle` never goes round twice. It destroys a connection of the queue that
the scan chooses, unless the scan meets a null pointer before that queue. -/

set_option autoImplicit false

namespace HotRod.Transport

open Semantics.Execution ConnectionPool
open Semantics.Transition

variable {K : Type} [LinearOrder K]

variable {s : ConnectionPool K} {key : K} {config : Configuration}

/-! ### The loop -/

-- What the body of the loop returns, or `none` to go round again.
def removalRound (config : Configuration) : PoolM K (Option Bool) := do
  match keyToRemove config none 0 (← get).idle.entries with
  | .error fault => throw fault
  | .ok none => pure (some false)
  | .ok (some key) => do
    match ← pollIdle key with
    | some obj => do
      destroyObject obj
      modify fun s => { s with totalIdle := s.totalIdle - 1 }
      pure (some true)
    | none => pure none

/-- `do`-`while` for a number of rounds; `none` if they do not suffice. -/
def removalLoop (config : Configuration) : Nat → PoolM K (Option Bool)
  | 0 => pure none
  | rounds + 1 => do
    match ← removalRound config with
    | some removed => pure (some removed)
    | none => removalLoop config rounds

/-! ### What is removed -/

def AllEmpty (s : ConnectionPool K) : Prop :=
  ∀ key q, s.idle.get? key = some (some q) → q.items = []

/-- A queue longer than `minIdle` if there is one, else one that no other is longer than. -/
def Preferred (config : Configuration) (s : ConnectionPool K) (q : IdleQueue) : Prop :=
  Above config q ∨
    (∀ k p, s.idle.get? k = some (some p) → ¬ Above config p) ∧
      ∀ k p, s.idle.get? k = some (some p) → p.items.length ≤ q.items.length

/-- The loop ends, with `false` and nothing changed where all queues are empty, and otherwise
with one connection less in a queue that is preferred, and all else as it was. -/
def RemovesOne (config : Configuration) (s : ConnectionPool K) : Prop :=
  ∃ rounds,
    (AllEmpty s ∧ removalLoop config rounds s = .ok (some false) s) ∨
      ∃ key generation obj rest,
        s.idle.get? key = some (some ⟨generation, obj :: rest⟩) ∧
          Preferred config s ⟨generation, obj :: rest⟩ ∧
          removalLoop config rounds s = .ok (some true)
            { s with
              idle := s.idle.insert key (some ⟨generation, rest⟩)
              destroyed := s.destroyed ++ [obj]
              totalIdle := s.totalIdle - 1 }

theorem removalLoop_of_some {removed : Bool} {t : ConnectionPool K}
    (round : removalRound config s = .ok (some removed) t) (rounds : Nat) :
    removalLoop config (rounds + 1) s = .ok (some removed) t := by
  rw [removalLoop, bind_of_ok round]
  rfl

theorem removalRound_of_cons {generation : Nat} {obj : Conn} {rest : List Conn}
    (scan : keyToRemove config none 0 s.idle.entries = .ok (some key))
    (found : s.idle.get? key = some (some ⟨generation, obj :: rest⟩)) :
    removalRound config s = .ok (some true)
      { s with
        idle := s.idle.insert key (some ⟨generation, rest⟩)
        destroyed := s.destroyed ++ [obj]
        totalIdle := s.totalIdle - 1 } := by
  rw [removalRound, bind_of_ok (get_apply s), scan]
  simp only []
  rw [bind_of_ok (pollIdle_of_cons found)]
  rfl

theorem removalRound_of_none (scan : keyToRemove config none 0 s.idle.entries = .ok none) :
    removalRound config s = .ok (some false) s := by
  rw [removalRound, bind_of_ok (get_apply s), scan]
  rfl

theorem removalRound_of_error {fault : Fault}
    (scan : keyToRemove config none 0 s.idle.entries = .error fault) :
    removalRound config s = .error fault s := by
  rw [removalRound, bind_of_ok (get_apply s), scan]
  rfl

theorem removalLoop_eq (config : Configuration) (rounds : Nat) (s : ConnectionPool K) :
    removalLoop config (rounds + 1) s = (some <$> tryRemoveIdle config) s := by
  have tried : tryRemoveIdle config s = match keyToRemove config none 0 s.idle.entries with
      | .error fault => .error fault s
      | .ok none => .ok false s
      | .ok (some key) => removeFrom key s := by
    rw [tryRemoveIdle, bind_of_ok (get_apply s)]
    cases keyToRemove config none 0 s.idle.entries with
    | error fault => rfl
    | ok found => cases found <;> rfl
  rw [map_apply, tried]
  cases scan : keyToRemove config none 0 s.idle.entries with
  | error fault =>
    rw [removalLoop, bind_of_error (removalRound_of_error scan)]
  | ok found =>
    cases found with
    | none => exact removalLoop_of_some (removalRound_of_none scan) rounds
    | some key =>
      obtain absurd | ⟨⟨generation, items⟩, member, filled⟩ := keyToRemove_some scan
      · cases absurd
      obtain ⟨obj, rest, rfl⟩ := List.exists_cons_of_ne_nil filled
      have found := s.idle.get?_eq_some.mpr member
      rw [removalLoop_of_some (removalRound_of_cons scan found) rounds]
      simp only [removeFrom]
      rw [bind_of_ok (pollIdle_of_cons found)]
      rfl

theorem removes_of_queue {q : IdleQueue} (filled : 0 < q.items.length)
    (scan : keyToRemove config none 0 s.idle.entries = .ok (some key))
    (member : (key, some q) ∈ s.idle.entries) (preferred : Preferred config s q) :
    RemovesOne config s := by
  obtain ⟨generation, items⟩ := q
  obtain ⟨obj, rest, rfl⟩ := List.exists_cons_of_ne_nil (List.length_pos_iff.mp filled)
  have found := s.idle.get?_eq_some.mpr member
  exact ⟨1, .inr ⟨key, generation, obj, rest, found, preferred,
    removalLoop_of_some (removalRound_of_cons scan found) 0⟩⟩

theorem removes_of_queued (queued : Queued config s.idle.entries) : RemovesOne config s := by
  obtain ⟨found, scan, chosen⟩ := keyToRemove_chosen queued none 0
  have entry : ∀ {P : IdleQueue → Prop}, (∀ k p, (k, some p) ∈ s.idle.entries → P p) →
      ∀ k p, s.idle.get? k = some (some p) → P p :=
    fun all k p looked => all k p (s.idle.get?_eq_some.mp looked)
  cases chosen with
  | above member above =>
    have filled := above
    rw [Above] at filled
    exact removes_of_queue (by omega) scan member (.inl above)
  | longest member longest none_above none_longer =>
    exact removes_of_queue longest scan member (.inr ⟨entry none_above, entry none_longer⟩)
  | best none_above none_longer =>
    have empty : AllEmpty s := fun k p looked =>
      List.length_eq_zero_iff.mp (Nat.le_zero.mp (entry none_longer k p looked))
    exact ⟨1, .inl ⟨empty, removalLoop_of_some (removalRound_of_none scan) 0⟩⟩

theorem not_removes_of_fault {fault : Fault}
    (scan : keyToRemove config none 0 s.idle.entries = .error fault) : ¬ RemovesOne config s := by
  have raises : ∀ rounds removed t, removalLoop config rounds s ≠ .ok (some removed) t := by
    intro rounds removed t returned
    cases rounds with
    | zero => cases returned
    | succ rounds =>
      rw [removalLoop, bind_of_error (removalRound_of_error scan)] at returned
      cases returned
  rintro ⟨rounds, ⟨-, returned⟩ | ⟨key, generation, obj, rest, -, -, returned⟩⟩
  · exact raises rounds _ _ returned
  · exact raises rounds _ _ returned

/-- A connection is taken as it should be exactly if the scan meets no null pointer. -/
theorem removes_one_iff (config : Configuration) (s : ConnectionPool K) :
    RemovesOne config s ↔ Queued config s.idle.entries := by
  constructor
  · intro removes
    by_contra unqueued
    exact not_removes_of_fault (keyToRemove_of_not_queued unqueued none 0) removes
  · exact removes_of_queued

/-- One server is known, and another one is cleared that is not. -/
theorem not_removes_of_cleared :
    ¬ ∀ (actions : List (Action Nat)) (s : System Nat), run (step {}) {} actions = some s →
      RemovesOne {} s.pool := by
  intro all
  have removes := all [.add 0 [], .clear 1] _ rfl
  have queued := (removes_one_iff {} _).mp removes
  obtain above | null := queued
  · exact absurd above (by decide)
  · exact null

end HotRod.Transport
