import HotRod.Transactions.Context
import Mathlib.Logic.Function.Basic

/-! `TransactionManager` as its threads share it.

`currentTransactions` maps a thread to a pointer. Whoever holds a copy of the pointer
goes on seeing what `begin`, `commit` and `rollback` do to the object, also after its
entry is gone. Every call is taken as one step. -/

set_option autoImplicit false

namespace HotRod.Async

open Transactions (TransactionStatus)

variable {T : Type}

structure Manager (T : Type) where
  -- The objects are numbered in the order of their construction.
  currentTransactions : T → Option Nat
  status : Nat → TransactionStatus
  made : Nat

-- How the remote calls of a `commit` end; an exception leaves the object as it is.
inductive CommitEnd where
  | committed | rolledBack | raised
  deriving DecidableEq, Repr

inductive ManagerCall (T : Type) where
  | getCurrentTransaction (thread : T)
  | begin (thread : T)
  | commit (thread : T) (ended : CommitEnd)
  | rollback (thread : T) (raised : Bool)
  deriving DecidableEq, Repr

namespace Manager

def initial : Manager T where
  currentTransactions _ := none
  status _ := .NO_TRANSACTION
  made := 0

def active (m : Manager T) (thread : T) : Option Nat :=
  (m.currentTransactions thread).filter fun tx => m.status tx ≠ .NO_TRANSACTION

/-- No two threads share an object, and an object in the map is idle or active. -/
structure Sound (m : Manager T) : Prop where
  known : ∀ t tx, m.currentTransactions t = some tx → tx < m.made
  live : ∀ t tx, m.currentTransactions t = some tx →
    m.status tx = .NO_TRANSACTION ∨ m.status tx = .ACTIVE
  own : ∀ t u tx, m.currentTransactions t = some tx → m.currentTransactions u = some tx → t = u

theorem sound_initial : Sound (initial : Manager T) where
  known _ _ found := by cases found
  live _ _ found := by cases found
  own _ _ _ found := by cases found

def setStatus (m : Manager T) (tx : Nat) (status : TransactionStatus) : Manager T :=
  { m with status := Function.update m.status tx status }

theorem Sound.activate {m : Manager T} (sound : Sound m) (tx : Nat) :
    Sound (m.setStatus tx .ACTIVE) where
  known := sound.known
  live t u held := by
    by_cases same : u = tx
    · rw [same]
      exact .inr (Function.update_self _ _ _)
    · change Function.update m.status tx _ u = _ ∨ Function.update m.status tx _ u = _
      rw [Function.update_of_ne same]
      exact sound.live t u held
  own := sound.own

/-- No other thread has the object, or will ever have it. -/
structure Owned (m : Manager T) (thread : T) (tx : Nat) : Prop where
  known : tx < m.made
  only : ∀ t, m.currentTransactions t = some tx → t = thread

theorem Sound.owned {m : Manager T} {owner : T} {tx : Nat} (sound : Sound m)
    (held : m.currentTransactions owner = some tx) :
    Owned m owner tx where
  known := sound.known owner tx held
  only t found := sound.own t owner tx found held

theorem Owned.setStatus {m : Manager T} {owner : T} {tx : Nat} (owned : Owned m owner tx) (u : Nat)
    (status : TransactionStatus) : Owned (m.setStatus u status) owner tx :=
  ⟨owned.known, owned.only⟩

variable [DecidableEq T]

-- `ctPtr.reset(new Transaction())`.
def reset (m : Manager T) (thread : T) : Manager T where
  currentTransactions := Function.update m.currentTransactions thread (some m.made)
  status := Function.update m.status m.made .NO_TRANSACTION
  made := m.made + 1

def getCurrentTransaction (m : Manager T) (thread : T) : Nat × Manager T :=
  match m.currentTransactions thread with
  | some tx => (tx, m)
  | none => (m.made, m.reset thread)

def cleanUpCurrentTransaction (m : Manager T) (thread : T) : Manager T :=
  { m with currentTransactions := Function.update m.currentTransactions thread none }

def call (m : Manager T) : ManagerCall T → Manager T
  | .getCurrentTransaction thread => (m.getCurrentTransaction thread).2
  | .begin thread =>
    let (tx, m) := m.getCurrentTransaction thread
    if (m.status tx).canBegin then m.setStatus tx .ACTIVE else m
  | .commit thread ended =>
    let (tx, m) := m.getCurrentTransaction thread
    if (m.status tx).canCommit then
      match ended with
      | .committed => (m.setStatus tx .COMMITTED).cleanUpCurrentTransaction thread
      | .rolledBack => (m.setStatus tx .ROLLEDBACK).cleanUpCurrentTransaction thread
      | .raised => m
    else m
  | .rollback thread raised =>
    let (tx, m) := m.getCurrentTransaction thread
    if (m.status tx).canRollback ∧ raised = false then
      (m.setStatus tx .ROLLEDBACK).cleanUpCurrentTransaction thread
    else m

def run (m : Manager T) (calls : List (ManagerCall T)) : Manager T := calls.foldl call m

/-! ### What the map holds -/

theorem getCurrentTransaction_of_some {m : Manager T} {thread : T} {tx : Nat}
    (found : m.currentTransactions thread = some tx) :
    m.getCurrentTransaction thread = (tx, m) := by
  simp only [getCurrentTransaction, found]

theorem getCurrentTransaction_of_none {m : Manager T} {thread : T}
    (absent : m.currentTransactions thread = none) :
    m.getCurrentTransaction thread = (m.made, m.reset thread) := by
  simp only [getCurrentTransaction, absent]

theorem current_reset (m : Manager T) (thread : T) :
    (m.reset thread).currentTransactions thread = some m.made :=
  Function.update_self _ _ _

theorem status_reset (m : Manager T) (thread : T) :
    (m.reset thread).status m.made = .NO_TRANSACTION :=
  Function.update_self _ _ _

theorem current_getCurrentTransaction (m : Manager T) (thread : T) :
    (m.getCurrentTransaction thread).2.currentTransactions thread =
      some (m.getCurrentTransaction thread).1 := by
  cases found : m.currentTransactions thread with
  | none =>
    rw [getCurrentTransaction_of_none found]
    exact current_reset m thread
  | some tx =>
    rw [getCurrentTransaction_of_some found]
    exact found

theorem reset_cases {m : Manager T} {thread t : T} {tx : Nat}
    (held : (m.reset thread).currentTransactions t = some tx) :
    (t = thread ∧ tx = m.made) ∨ (t ≠ thread ∧ m.currentTransactions t = some tx) := by
  by_cases same : t = thread
  · rw [same, current_reset] at held
    exact .inl ⟨same, (Option.some.inj held).symm⟩
  · refine .inr ⟨same, ?_⟩
    have other : (m.reset thread).currentTransactions t = m.currentTransactions t :=
      Function.update_of_ne same _ _
    rwa [other] at held

theorem Sound.reset {m : Manager T} (sound : Sound m) (thread : T) : Sound (m.reset thread) := by
  refine ⟨?_, ?_, ?_⟩
  · intro t tx held
    obtain ⟨-, rfl⟩ | ⟨-, there⟩ := reset_cases held
    · exact Nat.lt_succ_self _
    · exact Nat.lt_succ_of_lt (sound.known t tx there)
  · intro t tx held
    obtain ⟨-, rfl⟩ | ⟨-, there⟩ := reset_cases held
    · exact .inl (status_reset m thread)
    · have distinct : tx ≠ m.made := Nat.ne_of_lt (sound.known t tx there)
      have older : (m.reset thread).status tx = m.status tx := Function.update_of_ne distinct _ _
      rw [older]
      exact sound.live t tx there
  · intro t u tx first second
    obtain ⟨mine, made⟩ | ⟨-, there⟩ := reset_cases first <;>
      obtain ⟨yours, made'⟩ | ⟨-, there'⟩ := reset_cases second
    · exact mine.trans yours.symm
    · exact absurd (sound.known u tx there') (by omega)
    · exact absurd (sound.known t tx there) (by omega)
    · exact sound.own t u tx there there'

theorem Sound.getCurrentTransaction {m : Manager T} (sound : Sound m) (thread : T) :
    Sound (m.getCurrentTransaction thread).2 := by
  cases found : m.currentTransactions thread with
  | some tx =>
    rw [getCurrentTransaction_of_some found]
    exact sound
  | none =>
    rw [getCurrentTransaction_of_none found]
    exact sound.reset thread

theorem Sound.close {m : Manager T} (sound : Sound m) {thread : T} {tx : Nat}
    (held : m.currentTransactions thread = some tx) (status : TransactionStatus) :
    Sound ((m.setStatus tx status).cleanUpCurrentTransaction thread) := by
  have older : ∀ t u, Function.update m.currentTransactions thread none t = some u →
      t ≠ thread ∧ m.currentTransactions t = some u := by
    intro t u found
    by_cases same : t = thread
    · rw [same, Function.update_self] at found
      cases found
    · rw [Function.update_of_ne same] at found
      exact ⟨same, found⟩
  refine ⟨?_, ?_, ?_⟩
  · intro t u found
    exact sound.known t u (older t u found).2
  · intro t u found
    obtain ⟨other, there⟩ := older t u found
    have distinct : u ≠ tx := by
      intro same
      rw [same] at there
      exact other (sound.own t thread tx there held)
    change Function.update m.status tx _ u = _ ∨ Function.update m.status tx _ u = _
    rw [Function.update_of_ne distinct]
    exact sound.live t u there
  · intro t u v first second
    exact sound.own t u v (older t v first).2 (older u v second).2

theorem Sound.call {m : Manager T} (sound : Sound m) (c : ManagerCall T) : Sound (m.call c) := by
  cases c with
  | getCurrentTransaction thread => exact sound.getCurrentTransaction thread
  | begin thread =>
    simp only [Manager.call]
    split
    · exact (sound.getCurrentTransaction thread).activate _
    · exact sound.getCurrentTransaction thread
  | commit thread ended =>
    have held := current_getCurrentTransaction m thread
    simp only [Manager.call]
    split
    · cases ended with
      | committed => exact (sound.getCurrentTransaction thread).close held _
      | rolledBack => exact (sound.getCurrentTransaction thread).close held _
      | raised => exact sound.getCurrentTransaction thread
    · exact sound.getCurrentTransaction thread
  | rollback thread raised =>
    have held := current_getCurrentTransaction m thread
    simp only [Manager.call]
    split
    · exact (sound.getCurrentTransaction thread).close held _
    · exact sound.getCurrentTransaction thread

theorem Sound.run {m : Manager T} (sound : Sound m) (calls : List (ManagerCall T)) :
    Sound (m.run calls) := by
  induction calls generalizing m with
  | nil => exact sound
  | cons c rest ih => exact ih (sound.call c)

theorem status_getCurrentTransaction {m : Manager T} (sound : Sound m) (thread : T) :
    let (tx, m') := m.getCurrentTransaction thread
    (m.active thread = none ∧ m'.status tx = .NO_TRANSACTION) ∨
      (m.active thread = some tx ∧ m'.status tx = .ACTIVE) := by
  cases found : m.currentTransactions thread with
  | none =>
    rw [getCurrentTransaction_of_none found]
    exact .inl ⟨by rw [active, found]; rfl, status_reset m thread⟩
  | some tx =>
    rw [getCurrentTransaction_of_some found]
    cases sound.live thread tx found with
    | inl idle => exact .inl ⟨by rw [active, found]; simp [idle], idle⟩
    | inr busy => exact .inr ⟨by rw [active, found]; simp [busy], busy⟩

/-! ### Owners -/

section Owned

variable {m : Manager T} {owner : T} {tx : Nat}

theorem Owned.cleanUp (owned : Owned m owner tx) (thread : T) :
    Owned (m.cleanUpCurrentTransaction thread) owner tx := by
  refine ⟨owned.known, ?_⟩
  intro t found
  by_cases same : t = thread
  · have gone : (m.cleanUpCurrentTransaction thread).currentTransactions thread = none :=
      Function.update_self _ _ _
    rw [same, gone] at found
    cases found
  · have kept : (m.cleanUpCurrentTransaction thread).currentTransactions t =
        m.currentTransactions t := Function.update_of_ne same _ _
    exact owned.only t (kept.symm.trans found)

theorem Owned.getCurrentTransaction (owned : Owned m owner tx) (thread : T) :
    Owned (m.getCurrentTransaction thread).2 owner tx := by
  cases found : m.currentTransactions thread with
  | some u =>
    rw [getCurrentTransaction_of_some found]
    exact owned
  | none =>
    rw [getCurrentTransaction_of_none found]
    refine ⟨Nat.lt_succ_of_lt owned.known, ?_⟩
    intro t held
    obtain ⟨-, made⟩ | ⟨-, there⟩ := reset_cases held
    · exact absurd owned.known (by omega)
    · exact owned.only t there

theorem Owned.call (owned : Owned m owner tx) (c : ManagerCall T) : Owned (m.call c) owner tx := by
  have looked : ∀ thread, Owned (m.getCurrentTransaction thread).2 owner tx :=
    fun thread => owned.getCurrentTransaction thread
  cases c with
  | getCurrentTransaction thread => exact looked thread
  | begin thread =>
    simp only [Manager.call]
    split
    · exact (looked thread).setStatus _ _
    · exact looked thread
  | commit thread ended =>
    simp only [Manager.call]
    split
    · cases ended with
      | committed => exact ((looked thread).setStatus _ _).cleanUp thread
      | rolledBack => exact ((looked thread).setStatus _ _).cleanUp thread
      | raised => exact looked thread
    · exact looked thread
  | rollback thread raised =>
    simp only [Manager.call]
    split
    · exact ((looked thread).setStatus _ _).cleanUp thread
    · exact looked thread

theorem Owned.run (owned : Owned m owner tx) (calls : List (ManagerCall T)) :
    Owned (m.run calls) owner tx := by
  induction calls generalizing m with
  | nil => exact owned
  | cons c rest ih => exact ih (owned.call c)

theorem Owned.other (owned : Owned m owner tx) {thread : T} (other : thread ≠ owner) :
    (m.getCurrentTransaction thread).1 ≠ tx := by
  intro same
  have held := current_getCurrentTransaction m thread
  rw [same] at held
  exact other ((owned.getCurrentTransaction thread).only thread held)

end Owned

end Manager

end HotRod.Async
