import HotRod.Semantics.Transition
import HotRod.Transactions.Atomicity

/-! Transactions end: when the thread is free again after `commit` or
`rollback`, and no cache is left with an undecided vote.

The sessions are those a thread can reach by its own calls. Along every run the
prepared caches are registered ones and cover every undecided vote. -/

set_option autoImplicit false

namespace HotRod.Transactions

open Semantics.Execution Semantics.Rounds Semantics.Transition TransactionRemoteStatus

variable {C X : Type}

def VotedOk (xid : XID) (cache : C) (log : List (Exchange C)) : Prop :=
  ⟨.prepare, xid, cache, some XA_OK⟩ ∈ log

def Decided (xid : XID) (cache : C) (log : List (Exchange C)) : Prop :=
  Sent .commit xid cache log ∨ Sent .rollback xid cache log

theorem votedOk_append {xid : XID} {cache : C} {a b : List (Exchange C)} :
    VotedOk xid cache (a ++ b) ↔ VotedOk xid cache a ∨ VotedOk xid cache b := List.mem_append

theorem votedOk_record {phase : Phase} {xid : XID} {cache : C} {sent : List (C × Option UInt32)} :
    VotedOk xid cache (record phase xid sent) ↔ phase = .prepare ∧ (cache, some XA_OK) ∈ sent := by
  simp [VotedOk, mem_record, eq_comm]

theorem not_votedOk_rollback {xid : XID} {cache : C} {sent : List (C × Option UInt32)} :
    ¬ VotedOk xid cache (record .rollback xid sent) := by
  simp [votedOk_record]

theorem decided_append {xid : XID} {cache : C} {a b : List (Exchange C)} :
    Decided xid cache (a ++ b) ↔ Decided xid cache a ∨ Decided xid cache b := by
  simp only [Decided, sent_append]
  tauto

theorem decided_record {phase : Phase} {xid : XID} {cache : C} {sent : List (C × Option UInt32)} :
    Decided xid cache (record phase xid sent) ↔
      phase ≠ .prepare ∧ ∃ reply, (cache, reply) ∈ sent := by
  cases phase <;> simp [Decided, sent_record]

variable [LinearOrder C]

/-- A call of the thread on its manager, with what the environment supplies. -/
inductive Request (C X : Type) where
  | begin (fresh : XID)
  | use (cache : C) (context : X)
  | commit (servers : Servers C) (fresh : XID)
  | rollback (servers : Servers C) (fresh : XID)

-- The identifier drawn for a transaction that does not exist yet is a new one.
def Unused (xid : XID) (s : Session C X) : Prop := s.current = none → ∀ x ∈ s.log, x.xid ≠ xid

instance (xid : XID) (s : Session C X) : Decidable (Unused xid s) :=
  match current : s.current with
  | none =>
    decidable_of_iff (∀ x ∈ s.log, x.xid ≠ xid) ⟨fun distinct _ => distinct, fun unused =>
      unused current⟩
  | some _ => isTrue fun absent => by rw [current] at absent; cases absent

def Request.fresh : Request C X → Option XID
  | .use _ _ => none
  | .begin fresh | .commit _ fresh | .rollback _ fresh => some fresh

def Request.serve (process : Process X) (s : Session C X) : Request C X → Session C X
  | .begin fresh => final (beginTransaction fresh s)
  | .use cache context => final (useCache cache context s)
  | .commit servers fresh => final (Transactions.commit process servers fresh s)
  | .rollback servers fresh => final (Transactions.rollback process servers fresh s)

def Request.step (process : Process X) (s : Session C X) (request : Request C X) :
    Option (Session C X) :=
  if ∀ xid ∈ request.fresh, Unused xid s then some (request.serve process s) else none

/-- The sessions a thread reaches from its first call on. -/
def Reachable (process : Process X) (s : Session C X) : Prop :=
  ∃ requests, run (Request.step process) {} requests = some s

/-- Undecided votes are on the list the rollback loop reads, and that list holds
registered caches only. -/
structure Accounted (t : Transaction C X) (log : List (Exchange C)) : Prop where
  registered : ∀ cache ∈ t.preparedCache, cache ∈ t.registeredCache
  covered : ∀ cache, VotedOk t.xid cache log → Decided t.xid cache log ∨ cache ∈ t.preparedCache

theorem mem_addVote {prepared : SortedMap C Unit} {vote : C × Option UInt32} {cache : C} :
    cache ∈ addVotes prepared [vote] ↔
      cache ∈ prepared ∨ ∃ code, (cache, some code) = vote ∧ code ≠ XA_RDONLY := by
  obtain ⟨c, reply⟩ := vote
  cases reply with
  | none => simp [addVotes]
  | some code =>
    by_cases idle : code = XA_RDONLY
    · subst idle
      simp [addVotes]
    · simp [addVotes, idle, or_comm]

theorem mem_addVotes {prepared : SortedMap C Unit} {votes : List (C × Option UInt32)} {cache : C} :
    cache ∈ addVotes prepared votes ↔
      cache ∈ prepared ∨ ∃ code, (cache, some code) ∈ votes ∧ code ≠ XA_RDONLY := by
  induction votes generalizing prepared with
  | nil => simp [addVotes]
  | cons vote rest ih =>
    have first : addVotes prepared (vote :: rest) = addVotes (addVotes prepared [vote]) rest := rfl
    rw [first, ih, mem_addVote, or_assoc, ← exists_or]
    simp only [List.mem_cons, or_and_right]

variable {process : Process X} {servers : Servers C} {fresh : XID} {t : Transaction C X}
  {log : List (Exchange C)}

theorem votedOk_attemptLog {cache : C} : VotedOk t.xid cache (attemptLog servers t log) ↔
    VotedOk t.xid cache log ∨ (cache, some XA_OK) ∈ voteTrail servers t := by
  simp [attemptLog, votedOk_append, votedOk_record]

theorem decided_attemptLog {cache : C} : Decided t.xid cache (attemptLog servers t log) ↔
    Decided t.xid cache log ∨ ∃ reply, (cache, reply) ∈ commitTrail servers t := by
  simp [attemptLog, decided_append, decided_record]

theorem Accounted.extend (accounted : Accounted t log) {tail : List (Exchange C)}
    (silent : ∀ cache, ¬ VotedOk t.xid cache tail) : Accounted t (log ++ tail) where
  registered := accounted.registered
  covered cache vote := by
    rcases votedOk_append.mp vote with earlier | later
    · exact (accounted.covered cache earlier).imp (fun done => decided_append.mpr (.inl done)) id
    · exact absurd later (silent cache)

theorem Accounted.voted (accounted : Accounted t log) :
    Accounted (voted servers t) (attemptLog servers t log) where
  registered cache member := by
    rcases mem_addVotes.mp member with earlier | ⟨code, vote, -⟩
    · exact accounted.registered cache earlier
    · exact (mem_of_mem_trail vote).1
  covered cache vote := by
    rcases votedOk_attemptLog.mp vote with earlier | now
    · rcases accounted.covered cache earlier with done | waiting
      · exact .inl (decided_attemptLog.mpr (.inl done))
      · exact .inr (mem_addVotes.mpr (.inl waiting))
    · exact .inr (mem_addVotes.mpr (.inr ⟨XA_OK, now, by decide⟩))

theorem Accounted.of_unused (unused : ∀ x ∈ log, x.xid ≠ fresh) :
    Accounted ({ xid := fresh } : Transaction C X) log where
  registered _ member := absurd member SortedMap.not_mem_empty
  covered _ vote := absurd rfl (unused _ vote)

/-- The account of the session's transaction, if it has one. -/
def SessionAccounted (s : Session C X) : Prop := ∀ t, s.current = some t → Accounted t s.log

theorem sessionAccounted_some :
    SessionAccounted (⟨some t, log⟩ : Session C X) ↔ Accounted t log := by
  simp [SessionAccounted]

theorem sessionAccounted_none : SessionAccounted (⟨none, log⟩ : Session C X) := by
  simp [SessionAccounted]

theorem Accounted.leave (accounted : Accounted t log) (process : Process X)
    (report : Option Exn) : SessionAccounted (final (leave process t log report)) := by
  unfold Transactions.leave
  split
  · cases report <;> exact sessionAccounted_none
  · exact sessionAccounted_some.mpr accounted

theorem Accounted.withStatus (accounted : Accounted t log) (status : TransactionStatus) :
    Accounted { t with status } log := ⟨accounted.registered, accounted.covered⟩

theorem Accounted.undone (accounted : Accounted t log) (sent : List (C × Option UInt32)) :
    Accounted t (log ++ record .rollback t.xid sent) :=
  accounted.extend fun _ => not_votedOk_rollback

theorem Accounted.commit (accounted : Accounted t log) (process : Process X) (servers : Servers C)
    (fresh : XID) : SessionAccounted (final (commit process servers fresh ⟨some t, log⟩)) := by
  by_cases active : t.status = .ACTIVE
  · cases failed : attemptFailure process servers t with
    | none =>
      rw [commit_of_success process servers fresh active log failed]
      exact (accounted.voted.withStatus .COMMITTED).leave process none
    | some e =>
      cases client : e.isHotRodClient with
      | false =>
        rw [commit_of_escape process servers fresh active log failed client]
        exact sessionAccounted_some.mpr accounted.voted
      | true =>
        rw [commit_of_undo process servers fresh active log failed client]
        split
        · exact ((accounted.voted.undone _).withStatus .ROLLEDBACK).leave process _
        · exact sessionAccounted_some.mpr (accounted.voted.undone _)
  · rw [commit_of_not_active process servers fresh active]
    exact sessionAccounted_some.mpr accounted

theorem Accounted.rollback (accounted : Accounted t log) (process : Process X)
    (servers : Servers C) (fresh : XID) :
    SessionAccounted (final (rollback process servers fresh ⟨some t, log⟩)) := by
  by_cases active : t.status = .ACTIVE
  · rw [rollback_eq process servers fresh active]
    cases ending (servers .rollback) never t.preparedCache.keys with
    | none => exact ((accounted.undone _).withStatus .ROLLEDBACK).leave process none
    | some stop => exact sessionAccounted_some.mpr (accounted.undone _)
  · rw [rollback_of_not_active process servers fresh active]
    exact sessionAccounted_some.mpr accounted

theorem Accounted.use (accounted : Accounted t log) (cache : C) (context : X) :
    SessionAccounted (final (useCache cache context ⟨some t, log⟩)) := by
  apply sessionAccounted_some.mpr
  constructor
  · intro c member
    exact (SortedMap.mem_insert _).mpr (.inr (accounted.registered c member))
  · exact accounted.covered

theorem Accounted.begin (accounted : Accounted t log) (fresh : XID) :
    SessionAccounted (final (beginTransaction fresh ⟨some t, log⟩)) := by
  by_cases accepted : t.status.canBegin = true
  · simpa [beginTransaction, getCurrentTransaction, bind_apply, accepted, setStatus,
      updateTransaction, SessionAccounted] using ⟨accounted.registered, accounted.covered⟩
  · simpa [beginTransaction, getCurrentTransaction, bind_apply, accepted,
      SessionAccounted] using accounted

-- A request keeps the account, whichever way it exits.
theorem Request.step_accounted {s s' : Session C X} {request : Request C X}
    (accounted : SessionAccounted s) (served : request.step process s = some s') :
    SessionAccounted s' := by
  simp only [Request.step, Option.ite_none_right_eq_some, Option.some.injEq] at served
  obtain ⟨unused, rfl⟩ := served
  obtain ⟨current, log⟩ := s
  cases current with
  | none =>
    -- the call starts by creating a transaction
    have account : ∀ xid ∈ request.fresh, Accounted ({ xid } : Transaction C X) log :=
      fun xid drawn => .of_unused (unused xid drawn rfl)
    cases request with
    | use cache context => exact sessionAccounted_none
    | begin fresh => exact (account fresh rfl).begin fresh
    | commit servers fresh => exact (account fresh rfl).commit process servers fresh
    | rollback servers fresh => exact (account fresh rfl).rollback process servers fresh
  | some t =>
    have account := sessionAccounted_some.mp accounted
    cases request with
    | use cache context => exact account.use cache context
    | begin fresh => exact account.begin fresh
    | commit servers fresh => exact account.commit process servers fresh
    | rollback servers fresh => exact account.rollback process servers fresh

theorem Reachable.accounted {s : Session C X} (reachable : Reachable process s) :
    SessionAccounted s := by
  obtain ⟨requests, reached⟩ := reachable
  exact run_invariant_of_step SessionAccounted sessionAccounted_none
    (fun _ _ _ account served => Request.step_accounted account served) reached

/-- The process lives on, the thread may begin again, its contexts are cleared, and every
cache that voted XA_OK has been told the decision. -/
def Ended (xid : XID) (result : EStateM.Result Fault (Session C X) PUnit) : Prop :=
  (∀ fault, raised result = some fault → ∃ e, fault = .raised e) ∧
  (∀ fresh, ∃ s, beginTransaction fresh (final result) = .ok () s) ∧
  (∀ t, (final result).current = some t → t.registeredCache = SortedMap.empty ∧
    t.preparedCache = SortedMap.empty) ∧
  ∀ cache, VotedOk xid cache (final result).log → Decided xid cache (final result).log

/-- Every call of a ROLLBACK round over these caches returns. -/
def RollbackReturns (servers : Servers C) (cs : List C) : Prop :=
  ∀ cache ∈ cs, ∃ code, servers .rollback cache = .replied code

/-- The answers under which `commit` ends the transaction, if its contexts can be cleared. -/
def CommitEnds (process : Process X) (servers : Servers C) (t : Transaction C X)
    (log : List (Exchange C)) : Prop :=
  t.clears process = true ∧ match attemptFailure process servers t with
    | some e => e.isHotRodClient = true ∧
        RollbackReturns servers (voted servers t).preparedCache.keys
    | none => EntersCommit servers t ∨ ∀ cache, VotedOk t.xid cache log → Decided t.xid cache log

omit [LinearOrder C] in
theorem rollbackReturns_iff {cs : List C} :
    ending (servers .rollback) never cs = none ↔ RollbackReturns servers cs := by
  simp [ending_eq_none, RollbackReturns, never]

theorem not_ended_of_active {xid : XID} {result : EStateM.Result Fault (Session C X) PUnit}
    (left : (final result).current = some t) (active : t.status = .ACTIVE) :
    ¬ Ended xid result := by
  rintro ⟨-, accepted, -⟩
  obtain ⟨s, returned⟩ := accepted xid
  simp [beginTransaction, getCurrentTransaction, bind_apply, left, active,
    TransactionStatus.canBegin] at returned

theorem ended_iff_of_closed {xid : XID} {result : EStateM.Result Fault (Session C X) PUnit}
    (alive : ∀ fault, raised result = some fault → ∃ e, fault = .raised e)
    (closed : (final result).current = none) :
    Ended xid result ↔ ∀ cache, VotedOk xid cache (final result).log →
      Decided xid cache (final result).log := by
  have accepted : ∀ fresh, ∃ s, beginTransaction fresh (final result) = .ok () s := fun fresh => by
    simp [beginTransaction, getCurrentTransaction, bind_apply, map_apply, closed,
      TransactionStatus.canBegin, setStatus, updateTransaction]
  unfold Ended
  rw [and_iff_right alive, and_iff_right accepted, and_iff_right]
  intro t left
  rw [closed] at left
  cases left

theorem ended_leave_iff (report : Option Exn) {xid : XID} : Ended xid (leave process t log report) ↔
    t.clears process = true ∧ ∀ cache, VotedOk xid cache log → Decided xid cache log := by
  cases clears : t.clears process with
  | false =>
    rw [leave_of_foreign process clears]
    refine iff_of_false ?_ fun both => Bool.false_ne_true both.1
    rintro ⟨alive, -⟩
    obtain ⟨e, same⟩ := alive .foreignDelete rfl
    cases same
  | true =>
    rw [leave_of_clears process clears, and_iff_right rfl]
    cases report with
    | none => exact ended_iff_of_closed (by simp) rfl
    | some e => exact ended_iff_of_closed (by simp) rfl

theorem Accounted.decided_of_rollback (accounted : Accounted t log)
    (returns : ending (servers .rollback) never t.preparedCache.keys = none) (cache : C)
    (vote : VotedOk t.xid cache log) :
    Decided t.xid cache (log ++ record .rollback t.xid
      (trail (servers .rollback) never t.preparedCache.keys)) := by
  rw [decided_append, decided_record]
  refine (accounted.covered cache vote).imp id fun waiting => ⟨by decide, ?_⟩
  obtain ⟨code, reply, -⟩ := ending_eq_none.mp returns cache waiting
  exact ⟨some code, (mem_trail_of_ending_none returns).mpr ⟨waiting, code, rfl, reply⟩⟩

theorem mem_commitTrail (enters : EntersCommit servers t) (passed : commitFailure process servers t = none)
    {cache : C} (registered : cache ∈ t.registeredCache) :
    ∃ reply, (cache, reply) ∈ commitTrail servers t := by
  have through := ending_of_commitFailure_none passed
  obtain ⟨code, reply, -⟩ := ending_eq_none.mp through cache registered
  rw [commitTrail, if_pos enters]
  exact ⟨some code, (mem_trail_of_ending_none through).mpr ⟨registered, code, rfl, reply⟩⟩

theorem Accounted.decided_of_success (accounted : Accounted t log)
    (passed : attemptFailure process servers t = none) :
    (∀ cache, VotedOk t.xid cache (attemptLog servers t log) →
      Decided t.xid cache (attemptLog servers t log)) ↔
      (EntersCommit servers t ∨ ∀ cache, VotedOk t.xid cache log → Decided t.xid cache log) := by
  by_cases enters : EntersCommit servers t
  · refine iff_of_true (fun cache vote => ?_) (.inl enters)
    have registered : Decided t.xid cache log ∨ cache ∈ t.registeredCache := by
      rcases votedOk_attemptLog.mp vote with earlier | now
      · exact (accounted.covered cache earlier).imp id (accounted.registered cache)
      · exact .inr (mem_of_mem_trail now).1
    rw [attemptFailure_of_enters process servers t enters] at passed
    exact decided_attemptLog.mpr (registered.imp id (mem_commitTrail enters passed))
  · -- all caches have voted and none XA_OK: this attempt adds no vote
    have through := ending_of_attemptFailure_none passed
    have novote : ∀ cache, (cache, some XA_OK) ∉ voteTrail servers t := fun cache vote =>
      enters ⟨through, cache, (mem_of_mem_trail vote).1, (mem_of_mem_trail vote).2 XA_OK rfl⟩
    simp only [votedOk_attemptLog, decided_attemptLog, novote, commitTrail, enters, if_false,
      List.not_mem_nil, exists_false, or_false, false_or]

/-- On every session a thread can reach, `commit` and `rollback` end the active
transaction exactly when its contexts can be cleared, nothing but a client exception
stops a round, the ROLLBACK round (if there is one) goes through, and a read-only
outcome meets no earlier vote. -/
theorem transaction_ends_iff {session : Session C X} (reachable : Reachable process session)
    (current : session.current = some t) (active : t.status = .ACTIVE) (servers : Servers C)
    (fresh : XID) :
    (Ended t.xid (commit process servers fresh session) ↔
      CommitEnds process servers t session.log) ∧
    (Ended t.xid (rollback process servers fresh session) ↔
      t.clears process = true ∧ RollbackReturns servers t.preparedCache.keys) := by
  obtain ⟨_, log⟩ := session
  cases current
  have accounted : Accounted t log := sessionAccounted_some.mp reachable.accounted
  constructor
  · unfold CommitEnds
    cases failed : attemptFailure process servers t with
    | none =>
      rw [commit_of_success process servers fresh active log failed, ended_leave_iff]
      exact and_congr_right fun _ => accounted.decided_of_success failed
    | some e =>
      cases client : e.isHotRodClient with
      | false =>
        rw [commit_of_escape process servers fresh active log failed client]
        refine iff_of_false (not_ended_of_active rfl active) fun ends => ?_
        have handled : e.isHotRodClient = true := ends.2.1
        rw [client] at handled
        cases handled
      | true =>
        rw [commit_of_undo process servers fresh active log failed client, ← rollbackReturns_iff]
        cases round : ending (servers .rollback) never (voted servers t).preparedCache.keys with
        | none =>
          refine (ended_leave_iff _).trans (and_congr_right fun _ => ?_)
          refine iff_of_true (fun cache vote => ?_) ⟨client, rfl⟩
          apply accounted.voted.decided_of_rollback round cache
          exact (votedOk_append.mp vote).resolve_right not_votedOk_rollback
        | some stop =>
          exact iff_of_false (not_ended_of_active rfl active) fun ends => by cases ends.2.2
  · rw [rollback_eq process servers fresh active log, ← rollbackReturns_iff]
    cases round : ending (servers .rollback) never t.preparedCache.keys with
    | none =>
      refine (ended_leave_iff _).trans (and_congr_right fun _ => ?_)
      refine iff_of_true (fun cache vote => ?_) rfl
      apply accounted.decided_of_rollback round cache
      exact (votedOk_append.mp vote).resolve_right not_votedOk_rollback
    | some stop =>
      exact iff_of_false (not_ended_of_active rfl active) fun ends => by cases ends.2

def exhaustedPool : Servers Nat := fun _ _ => .failed false (.raised (.noSuchElement ""))

def oneCache : Session Nat Unit where
  current := some {
    status := .ACTIVE
    xid := ⟨[1], [2]⟩
    registeredCache := SortedMap.empty.insert 0 () }

theorem oneCache_reachable : Reachable plainProcess oneCache :=
  ⟨[.begin ⟨[1], [2]⟩, .use 0 ()], rfl⟩

/-- The exception passes both handlers and the transaction stays active. -/
theorem commit_leaves_transaction_active :
    Reachable plainProcess oneCache ∧
      ¬ Ended ⟨[1], [2]⟩ (commit plainProcess exhaustedPool ⟨[3], [4]⟩ oneCache) :=
  ⟨oneCache_reachable, not_ended_of_active rfl rfl⟩

theorem transaction_ends_oneCache :
    Ended ⟨[1], [2]⟩ (commit plainProcess (fun _ _ => .replied XA_OK) ⟨[3], [4]⟩ oneCache) := by
  refine ((transaction_ends_iff oneCache_reachable rfl rfl _ _).1).mpr
    ⟨rfl, .inl ⟨rfl, 0, ?_, rfl⟩⟩
  decide

end HotRod.Transactions
