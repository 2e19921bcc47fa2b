import HotRod.Transactions.Decision

/-! One decision for each cache: when a call of `commit` keeps its decision,
and when it takes back a COMMIT it has already sent. -/

set_option autoImplicit false

namespace HotRod.Transactions

open Semantics.Execution Semantics.Rounds TransactionRemoteStatus

variable {C X : Type}

def Sent (phase : Phase) (xid : XID) (cache : C) (log : List (Exchange C)) : Prop :=
  ∃ x ∈ log, x.phase = phase ∧ x.xid = xid ∧ x.cache = cache

-- The replies `remoteCommit` takes for a commit and nothing else.
def acknowledges (code : UInt32) : Bool := code = XA_OK || code = XA_RDONLY || code = XA_HEURCOM

def Acknowledged (xid : XID) (log : List (Exchange C)) : Prop :=
  ∃ x ∈ log, x.phase = .commit ∧ x.xid = xid ∧ ∃ code,
    x.reply = some code ∧ acknowledges code = true

theorem sent_append {phase : Phase} {xid : XID} {cache : C} {a b : List (Exchange C)} :
    Sent phase xid cache (a ++ b) ↔ Sent phase xid cache a ∨ Sent phase xid cache b := by
  simp only [Sent, List.mem_append, or_and_right, exists_or]

theorem sent_record {phase phase' : Phase} {xid : XID} {cache : C}
    {sent : List (C × Option UInt32)} :
    Sent phase xid cache (record phase' xid sent) ↔
      phase = phase' ∧ ∃ reply, (cache, reply) ∈ sent := by
  simp only [Sent, mem_record]
  constructor
  · rintro ⟨x, ⟨rfl, -, member⟩, rfl, -, rfl⟩
    exact ⟨rfl, x.reply, member⟩
  · rintro ⟨rfl, reply, member⟩
    exact ⟨⟨phase, xid, cache, reply⟩, ⟨rfl, rfl, member⟩, rfl, rfl, rfl⟩

theorem acknowledged_append {xid : XID} {a b : List (Exchange C)} :
    Acknowledged xid (a ++ b) ↔ Acknowledged xid a ∨ Acknowledged xid b := by
  simp only [Acknowledged, List.mem_append, or_and_right, exists_or]

theorem acknowledged_record {phase : Phase} {xid : XID} {sent : List (C × Option UInt32)} :
    Acknowledged xid (record phase xid sent) ↔
      phase = .commit ∧ ∃ cache code, (cache, some code) ∈ sent ∧ acknowledges code = true := by
  simp only [Acknowledged, mem_record]
  constructor
  · rintro ⟨x, ⟨rfl, -, member⟩, here, -, code, reply, positive⟩
    exact ⟨here, x.cache, code, reply ▸ member, positive⟩
  · rintro ⟨rfl, cache, code, member, positive⟩
    exact ⟨⟨.commit, xid, cache, some code⟩, ⟨rfl, rfl, member⟩, rfl, rfl, code, rfl, positive⟩

variable [LinearOrder C]

/-- No cache is told both, and an acknowledged commit is not reported as rolled back. -/
def SingleDecision (xid : XID) (result : EStateM.Result Fault (Session C X) PUnit) : Prop :=
  (∀ cache, ¬ (Sent .commit xid cache (final result).log ∧
    Sent .rollback xid cache (final result).log)) ∧
  (Acknowledged xid (final result).log → ∀ code, raised result ≠ some (.raised (.rollback code)))

/-- The request of a round that no code ends reaches the cache. -/
def Reaches (answer : C → Answer Fault UInt32) (cs : List C) (cache : C) : Prop :=
  ∃ reply, (cache, reply) ∈ trail answer never cs

/-- The COMMIT round fails in a way that sends `commit` into its handlers. -/
def CommitFails (process : Process X) (servers : Servers C) (t : Transaction C X) : Prop :=
  ∃ e, commitFailure process servers t = some e ∧ e.isHotRodClient = true

/-- The ROLLBACK round over the prepared caches ends in a rollback exception: it goes
through and the contexts can be cleared, or what stops it is one itself. -/
def ReportsRollback (process : Process X) (servers : Servers C) (t : Transaction C X) : Prop :=
  match ending (servers .rollback) never t.preparedCache.keys with
  | none => t.clears process = true
  | some stop => ∃ code, failure process.image stop = .raised (.rollback code)

theorem singleDecision_of_no_rollback {xid : XID} {result : EStateM.Result Fault (Session C X) PUnit}
    (unsent : ∀ cache, ¬ Sent .rollback xid cache (final result).log)
    (quiet : ∀ code, raised result ≠ some (.raised (.rollback code))) : SingleDecision xid result :=
  ⟨fun cache both => unsent cache both.2, fun _ => quiet⟩

theorem singleDecision_of_no_commit {xid : XID} {result : EStateM.Result Fault (Session C X) PUnit}
    (unsent : ∀ cache, ¬ Sent .commit xid cache (final result).log) :
    SingleDecision xid result := by
  refine ⟨fun cache both => unsent cache both.1, ?_⟩
  rintro ⟨x, member, phase, same, -⟩
  exact absurd ⟨x, member, phase, same, rfl⟩ (unsent x.cache)

variable (process : Process X) (servers : Servers C) (fresh : XID) (t : Transaction C X)

theorem not_sent_rollback_attemptLog (cache : C) :
    ¬ Sent .rollback t.xid cache (attemptLog servers t []) := by
  simp [attemptLog, sent_append, sent_record]

theorem raised_leave_ne (t : Transaction C X) (log : List (Exchange C)) (code : UInt32) :
    raised (leave process t log none) ≠ some (.raised (.rollback code)) := by
  unfold leave
  split <;> simp

theorem attemptFailure_of_enters (enters : EntersCommit servers t) :
    attemptFailure process servers t = commitFailure process servers t := by
  simp [attemptFailure, enters.1, enters]

theorem singleDecision_of_undo (active : t.status = .ACTIVE) (enters : EntersCommit servers t)
    (fails : CommitFails process servers t) :
    SingleDecision t.xid (commit process servers fresh ⟨some t, []⟩) ↔
      ¬ ((∃ cache, Reaches (servers .commit) t.registeredCache.keys cache ∧
            Reaches (servers .rollback) (voted servers t).preparedCache.keys cache) ∨
          (∃ cache code, (cache, some code) ∈ trail (servers .commit) never t.registeredCache.keys ∧
              acknowledges code = true) ∧
            ReportsRollback process servers (voted servers t)) := by
  obtain ⟨e, raise, client⟩ := fails
  have failed : attemptFailure process servers t = some e :=
    attemptFailure_of_enters process servers t enters ▸ raise
  have log := log_of_undo process servers fresh active [] failed client
  have report : (∃ code, raised (commit process servers fresh ⟨some t, []⟩) = some (.raised (.rollback code))) ↔
      ReportsRollback process servers (voted servers t) := by
    rw [commit_of_undo process servers fresh active [] failed client, ReportsRollback]
    cases ending (servers .rollback) never (voted servers t).preparedCache.keys with
    | some stop => simp
    | none =>
      have same : (concluded servers t .ROLLEDBACK).clears process =
          (voted servers t).clears process := rfl
      cases clears : (voted servers t).clears process with
      | true => simp [leave_of_clears process (same.trans clears)]
      | false => simp [leave_of_foreign process (same.trans clears)]
  have commits : ∀ cache, Sent .commit t.xid cache (final (commit process servers fresh ⟨some t, []⟩)).log ↔
      Reaches (servers .commit) t.registeredCache.keys cache := fun cache => by
    simp [log, attemptLog, commitTrail, enters, sent_append, sent_record, Reaches]
  have rollbacks : ∀ cache,
      Sent .rollback t.xid cache (final (commit process servers fresh ⟨some t, []⟩)).log ↔
        Reaches (servers .rollback) (voted servers t).preparedCache.keys cache := fun cache => by
    simp [log, attemptLog, undoTrail, sent_append, sent_record, Reaches]
  have acks : Acknowledged t.xid (final (commit process servers fresh ⟨some t, []⟩)).log ↔
      ∃ cache code, (cache, some code) ∈ trail (servers .commit) never t.registeredCache.keys ∧
        acknowledges code = true := by
    simp [log, attemptLog, commitTrail, enters, acknowledged_append, acknowledged_record]
  simp only [SingleDecision, commits, rollbacks, acks, ← report, not_or, not_exists, not_and, ne_eq]

/-- A COMMIT round that fails is followed by a ROLLBACK round; the decision
stays single only if the two rounds do not meet and no acknowledged commit is
reported as rolled back. -/
theorem commit_single_decision_iff :
    SingleDecision t.xid (commit process servers fresh ⟨some t, []⟩) ↔
      ¬ (t.status = .ACTIVE ∧ EntersCommit servers t ∧ CommitFails process servers t ∧
        ((∃ cache, Reaches (servers .commit) t.registeredCache.keys cache ∧
            Reaches (servers .rollback) (voted servers t).preparedCache.keys cache) ∨
          (∃ cache code, (cache, some code) ∈ trail (servers .commit) never t.registeredCache.keys ∧
              acknowledges code = true) ∧
            ReportsRollback process servers (voted servers t))) := by
  by_cases active : t.status = .ACTIVE
  · cases failed : attemptFailure process servers t with
    | none =>
      rw [commit_of_success process servers fresh active [] failed]
      refine iff_of_true (singleDecision_of_no_rollback (fun cache => ?_)
        (raised_leave_ne process _ _)) ?_
      · rw [log_leave]
        exact not_sent_rollback_attemptLog servers t cache
      rintro ⟨-, enters, ⟨e, raise, -⟩, -⟩
      rw [attemptFailure_of_enters process servers t enters, raise] at failed
      cases failed
    | some e =>
      cases client : e.isHotRodClient with
      | false =>
        rw [commit_of_escape process servers fresh active [] failed client]
        -- no handler takes the exception, so no ROLLBACK follows
        refine iff_of_true (singleDecision_of_no_rollback
          (not_sent_rollback_attemptLog servers t) ?_) ?_
        · rintro code same
          cases same
          cases client
        · rintro ⟨-, enters, ⟨e', raise, client'⟩, -⟩
          rw [attemptFailure_of_enters process servers t enters, raise, Option.some.injEq] at failed
          rw [failed, client] at client'
          cases client'
      | true =>
        by_cases enters : EntersCommit servers t
        · have fails : CommitFails process servers t :=
            ⟨e, attemptFailure_of_enters process servers t enters ▸ failed, client⟩
          rw [singleDecision_of_undo process servers fresh t active enters fails]
          simp only [active, enters, fails, true_and]
        · -- the refusal or failure came before any COMMIT
          refine iff_of_true (singleDecision_of_no_commit fun cache => ?_) fun bad => enters bad.2.1
          rw [log_of_undo process servers fresh active [] failed client]
          simp [attemptLog, commitTrail, enters, sent_append, sent_record]
  · rw [commit_of_not_active process servers fresh active]
    refine iff_of_true (singleDecision_of_no_commit fun cache => ?_) fun bad => active bad.1
    rintro ⟨x, member, -⟩
    cases member

def plainProcess {X : Type} : Process X where
  image := onePage
  clears _ := true

def brokenSecondCommit : Servers Nat
  | .commit, 1 => .failed true (.raised (.transport "127.0.0.1" 11222 "connection reset"))
  | _, _ => .replied XA_OK

def twoCaches : Transaction Nat Unit where
  status := .ACTIVE
  xid := ⟨[1], [2]⟩
  registeredCache := (SortedMap.empty.insert 0 ()).insert 1 ()

/-- The first cache acknowledges COMMIT, is then sent ROLLBACK, and `commit`
reports a rollback. -/
theorem commit_undoes_acknowledged_commit :
    ¬ SingleDecision twoCaches.xid (commit plainProcess brokenSecondCommit ⟨[3], [4]⟩ ⟨some twoCaches, []⟩) := by
  rintro ⟨both, -⟩
  refine both 0 ⟨?_, ?_⟩
  · exact ⟨⟨.commit, twoCaches.xid, 0, some XA_OK⟩, by decide, rfl, rfl, rfl⟩
  · exact ⟨⟨.rollback, twoCaches.xid, 0, some XA_OK⟩, by decide, rfl, rfl, rfl⟩

end HotRod.Transactions
