import HotRod.Transactions.Manager

/-! What one `commit` or `rollback` decides, as a function of the answers.

The loops of the manager are replaced by the rounds they make. `commit_eq` and
`rollback_eq` are the only places that evaluate the manager's code; the results
on decisions and on endings work on rounds. -/

set_option autoImplicit false

namespace HotRod.Transactions

open Semantics.Execution Semantics.Rounds TransactionRemoteStatus

variable {C X : Type}

/-- A vote that ends the PREPARE round. -/
def refuses (code : UInt32) : Bool := code ≠ XA_OK && code ≠ XA_RDONLY

-- No code ends a COMMIT or ROLLBACK round.
def never (_ : UInt32) : Bool := false

def record (phase : Phase) (xid : XID) (sent : List (C × Option UInt32)) : List (Exchange C) :=
  sent.map fun call => { phase, xid, cache := call.1, reply := call.2 }

theorem mem_record {phase : Phase} {xid : XID} {sent : List (C × Option UInt32)} {x : Exchange C} :
    x ∈ record phase xid sent ↔ x.phase = phase ∧ x.xid = xid ∧ (x.cache, x.reply) ∈ sent := by
  obtain ⟨phase', xid', cache, reply⟩ := x
  simp only [record, List.mem_map, Prod.exists, Exchange.mk.injEq]
  constructor
  · rintro ⟨c, r, member, rfl, rfl, rfl, rfl⟩
    exact ⟨rfl, rfl, member⟩
  · rintro ⟨rfl, rfl, member⟩
    exact ⟨cache, reply, member, rfl, rfl, rfl, rfl⟩

/-- What a round's ending surfaces as. -/
def failure (image : Image) : Ending Fault UInt32 → Fault
  | .raised fault => fault
  | .halted code => txRemoteStateException image code

variable [LinearOrder C] (process : Process X)

def addVotes (prepared : SortedMap C Unit) (votes : List (C × Option UInt32)) : SortedMap C Unit :=
  votes.foldl (fun prepared vote => match vote.2 with
    | some code => if code = XA_RDONLY then prepared else prepared.insert vote.1 ()
    | none => prepared) prepared

def tallyOf (count : Tally → UInt32 → Tally) (answer : C → Answer Fault UInt32) (tally : Tally)
    (cs : List C) : Tally :=
  cs.foldl (fun tally c => match answer c with
    | .replied code => count tally code
    | .failed .. => tally) tally

theorem call_eq (servers : Servers C) (phase : Phase) (xid : XID) (cache : C) (s : Session C X) :
    call servers phase xid cache s = match servers phase cache with
      | .replied code => .ok code { s with log := s.log ++ record phase xid [(cache, some code)] }
      | .failed true e => .error e { s with log := s.log ++ record phase xid [(cache, none)] }
      | .failed false e => .error e s := by
  unfold call
  cases servers phase cache with
  | replied code => rfl
  | failed delivered e => cases delivered <;> rfl

/-! ### Rounds -/

theorem commitLoop_eq (servers : Servers C) (xid : XID) (tally : Tally) (cs : List C)
    (s : Session C X) :
    decisionLoop (baseCommit servers xid) Tally.countCommit tally cs s =
      match ending (servers .commit) never cs with
      | none => .ok (tallyOf Tally.countCommit (servers .commit) tally cs)
          { s with log := s.log ++ record .commit xid (trail (servers .commit) never cs) }
      | some stop => .error (failure process.image stop)
          { s with log := s.log ++ record .commit xid (trail (servers .commit) never cs) } := by
  induction cs generalizing tally s with
  | nil => simp [decisionLoop, ending, trail, record, tallyOf]
  | cons c rest ih =>
    rw [decisionLoop, bind_apply, baseCommit, call_eq]
    cases reply : servers .commit c with
    | replied code =>
      simp only [ih]
      simp [ending, trail, reply, never, record, tallyOf]
    | failed delivered e => cases delivered <;> simp [ending, trail, reply, record, failure]

theorem rollbackLoop_eq (servers : Servers C) (xid : XID) (tally : Tally) (cs : List C)
    (s : Session C X)
    (clean : tally.hasCommit = false ∧ tally.alreadyForgot = false ∧ tally.unknown = false) :
    (decisionLoop (baseRollback servers xid) Tally.countRollback tally cs >>= fun tally =>
        raiseVerdict process tally.rollbackVerdict) s =
      match ending (servers .rollback) never cs with
      | none =>
        .ok () { s with log := s.log ++ record .rollback xid (trail (servers .rollback) never cs) }
      | some stop => .error (failure process.image stop)
          { s with log := s.log ++ record .rollback xid (trail (servers .rollback) never cs) } := by
  induction cs generalizing tally s with
  | nil =>
    obtain ⟨commits, forgot, unknown⟩ := clean
    have verdict : tally.rollbackVerdict = none := by
      cases rollbacks : tally.hasRollback <;>
        simp [Tally.rollbackVerdict, commits, forgot, unknown, rollbacks]
    simp [decisionLoop, verdict, raiseVerdict, ending, trail, record]
  | cons c rest ih =>
    rw [decisionLoop, bind_assoc, bind_apply, baseRollback, bind_apply, call_eq]
    cases reply : servers .rollback c with
    | replied code =>
      -- whatever the server has said, the operation has returned 0
      have counted : Tally.countRollback tally 0 = { tally with hasRollback := true } := rfl
      simp only [pure_apply]
      rw [ih _ _ (by rw [counted]; exact clean)]
      simp [ending, trail, reply, never, record]
    | failed delivered e => cases delivered <;> simp [ending, trail, reply, record, failure]

theorem remoteRollback_eq (servers : Servers C) (t : Transaction C X) (log : List (Exchange C)) :
    remoteRollback process servers t.xid ⟨some t, log⟩ =
      match ending (servers .rollback) never t.preparedCache.keys with
      | none => .ok () ⟨some t,
          log ++ record .rollback t.xid (trail (servers .rollback) never t.preparedCache.keys)⟩
      | some stop => .error (failure process.image stop) ⟨some t,
          log ++ record .rollback t.xid (trail (servers .rollback) never t.preparedCache.keys)⟩ :=
  rollbackLoop_eq process servers t.xid {} t.preparedCache.keys ⟨some t, log⟩ ⟨rfl, rfl, rfl⟩

theorem prepareLoop_eq (servers : Servers C) (xid : XID) (readOnly : Bool) (cs : List C)
    (t : Transaction C X) (log : List (Exchange C)) :
    let votes := trail (servers .prepare) refuses cs
    let s : Session C X := ⟨some { t with preparedCache := addVotes t.preparedCache votes },
      log ++ record .prepare xid votes⟩
    prepareLoop process servers xid readOnly cs ⟨some t, log⟩ =
      match ending (servers .prepare) refuses cs with
      | none => .ok (readOnly && cs.all fun c => servers .prepare c ≠ .replied XA_OK) s
      | some stop => .error (failure process.image stop) s := by
  induction cs generalizing readOnly t log with
  | nil => simp [prepareLoop, ending, trail, record, addVotes]
  | cons c rest ih =>
    rw [prepareLoop, bind_apply, basePrepareCommit, call_eq]
    cases reply : servers .prepare c with
    | failed delivered e =>
      cases delivered <;> simp [ending, trail, reply, record, addVotes, failure]
    | replied code =>
      by_cases ok : code = XA_OK
      · subst ok
        simp only [if_true, setPrepared, updateTransaction, bind_apply, modify_apply,
          Option.map_some, ih]
        simp [ending, trail, reply, refuses, record, addVotes, XA_OK, XA_RDONLY]
      · by_cases rdonly : code = XA_RDONLY
        · subst rdonly
          simp only [if_neg ok, if_true, ih]
          simp [ending, trail, reply, refuses, record, addVotes, ok]
        · simp [ending, trail, reply, refuses, record, addVotes, ok, rdonly, setPrepared,
            updateTransaction, bind_apply, failure]

/-- Every registered cache has voted without a refusal, and one has work to commit. -/
def EntersCommit (servers : Servers C) (t : Transaction C X) : Prop :=
  ending (servers .prepare) refuses t.registeredCache.keys = none ∧
    ∃ c ∈ t.registeredCache.keys, servers .prepare c = .replied XA_OK

instance (servers : Servers C) (t : Transaction C X) : Decidable (EntersCommit servers t) :=
  inferInstanceAs (Decidable (_ ∧ _))

def voteTrail (servers : Servers C) (t : Transaction C X) : List (C × Option UInt32) :=
  trail (servers .prepare) refuses t.registeredCache.keys

def commitTrail (servers : Servers C) (t : Transaction C X) : List (C × Option UInt32) :=
  if EntersCommit servers t then trail (servers .commit) never t.registeredCache.keys else []

def voted (servers : Servers C) (t : Transaction C X) : Transaction C X :=
  { t with preparedCache := addVotes t.preparedCache (voteTrail servers t) }

-- The delivered ROLLBACK requests, when `commit` has to undo.
def undoTrail (servers : Servers C) (t : Transaction C X) : List (C × Option UInt32) :=
  trail (servers .rollback) never (voted servers t).preparedCache.keys

/-- What the COMMIT round makes `remoteCommit` raise. -/
def commitFailure (servers : Servers C) (t : Transaction C X) : Option Fault :=
  match ending (servers .commit) never t.registeredCache.keys with
  | some stop => some (failure process.image stop)
  | none =>
    (tallyOf Tally.countCommit (servers .commit) {} t.registeredCache.keys).commitVerdict.map
      (txRemoteStateException process.image)

/-- What the `try` block of `commit` raises. -/
def attemptFailure (servers : Servers C) (t : Transaction C X) : Option Fault :=
  match ending (servers .prepare) refuses t.registeredCache.keys with
  | some stop => some (failure process.image stop)
  | none => if EntersCommit servers t then commitFailure process servers t else none

def exCode : Fault → UInt32
  | .raised (.txRemoteState status) => status
  | _ => XA_RBROLLBACK

/-- How `commit` and `rollback` leave a transaction whose rounds are over: they run the
deleters of its contexts, and then return or report. -/
def leave (t : Transaction C X) (log : List (Exchange C)) (report : Option Exn) :
    EStateM.Result Fault (Session C X) PUnit :=
  if t.clears process then
    match report with
    | none => .ok () ⟨none, log⟩
    | some e => .error (.raised e) ⟨none, log⟩
  else .error .foreignDelete ⟨some t, log⟩

theorem leave_of_clears {t : Transaction C X} (clears : t.clears process = true)
    (log : List (Exchange C)) (report : Option Exn) :
    leave process t log report = match report with
      | none => .ok () ⟨none, log⟩
      | some e => .error (.raised e) ⟨none, log⟩ := by
  unfold leave
  rw [if_pos clears]

theorem leave_of_foreign {t : Transaction C X} (foreign : t.clears process = false)
    (log : List (Exchange C)) (report : Option Exn) :
    leave process t log report = .error .foreignDelete ⟨some t, log⟩ := by
  unfold leave
  rw [foreign, if_neg Bool.false_ne_true]

@[simp] theorem log_leave (t : Transaction C X) (log : List (Exchange C)) (report : Option Exn) :
    (final (leave process t log report)).log = log := by
  unfold leave
  split
  · cases report <;> rfl
  · rfl

def attemptLog (servers : Servers C) (t : Transaction C X) (log : List (Exchange C)) :
    List (Exchange C) :=
  log ++ record .prepare t.xid (voteTrail servers t) ++ record .commit t.xid (commitTrail servers t)

variable {process} in
theorem ending_of_commitFailure_none {servers : Servers C} {t : Transaction C X}
    (passed : commitFailure process servers t = none) :
    ending (servers .commit) never t.registeredCache.keys = none := by
  unfold commitFailure at passed
  cases round : ending (servers .commit) never t.registeredCache.keys with
  | none => rfl
  | some stop => simp [round] at passed

variable {process} in
theorem ending_of_attemptFailure_none {servers : Servers C} {t : Transaction C X}
    (passed : attemptFailure process servers t = none) :
    ending (servers .prepare) refuses t.registeredCache.keys = none := by
  unfold attemptFailure at passed
  cases round : ending (servers .prepare) refuses t.registeredCache.keys with
  | none => rfl
  | some stop => simp [round] at passed

theorem remoteCommit_eq (servers : Servers C) (t : Transaction C X) (s : Session C X) :
    remoteCommit process servers t s =
      let called := trail (servers .commit) never t.registeredCache.keys
      let s' := { s with log := s.log ++ record .commit t.xid called }
      match commitFailure process servers t with
      | none => .ok () s'
      | some e => .error e s' := by
  rw [remoteCommit, bind_apply, commitLoop_eq, commitFailure]
  cases ending (servers .commit) never t.registeredCache.keys with
  | some stop => rfl
  | none =>
    cases verdict : (tallyOf Tally.countCommit (servers .commit) {}
      t.registeredCache.keys).commitVerdict <;>
      simp [raiseVerdict, verdict]

theorem attemptCommit_eq (servers : Servers C) (t : Transaction C X) (log : List (Exchange C)) :
    attemptCommit process servers t ⟨some t, log⟩ = match attemptFailure process servers t with
      | none => .ok XA_RBROLLBACK
          ⟨some { voted servers t with status := .COMMITTED }, attemptLog servers t log⟩
      | some e => .error e ⟨some (voted servers t), attemptLog servers t log⟩ := by
  rw [attemptCommit, bind_apply, remotePrepareCommit, bind_apply, prepareLoop_eq]
  cases round : ending (servers .prepare) refuses t.registeredCache.keys with
  | some stop =>
    -- a round that was cut short is not followed by a COMMIT round
    have idle : ¬ EntersCommit servers t := fun enters => by simp [enters.1] at round
    simp [attemptFailure, round, attemptLog, commitTrail, idle, voted, voteTrail, record]
  | none =>
    by_cases enters : EntersCommit servers t
    · have work : (t.registeredCache.keys.all fun c => servers .prepare c ≠ .replied XA_OK) =
          false := by
        simpa using enters.2
      simp only [work, Bool.and_false, pure_apply, Bool.false_eq_true, if_false, if_true,
        bind_apply, remoteCommit_eq, attemptFailure, round, enters]
      cases commitFailure process servers t with
      | none =>
        simp [setStatus, updateTransaction, attemptLog, commitTrail, enters, voted, voteTrail]
      | some e => simp [attemptLog, commitTrail, enters, voted, voteTrail]
    · have idle : (t.registeredCache.keys.all fun c => servers .prepare c ≠ .replied XA_OK) =
          true := by
        simpa [EntersCommit, round] using enters
      have skipped : ¬ XA_RDONLY = XA_OK := by decide
      simp only [idle, Bool.and_true, pure_apply, if_true, skipped, if_false, attemptFailure, round,
        enters]
      simp [setStatus, updateTransaction, bind_apply, attemptLog, commitTrail, enters, voted,
        voteTrail, record]

/-! ### Calls -/

theorem handleCommitFailure_eq (servers : Servers C) (t : Transaction C X) (log : List (Exchange C))
    (fault : Fault) :
    handleCommitFailure process servers t.xid fault ⟨some t, log⟩ =
      if fault.isHotRodClient then
        (remoteRollback process servers t.xid >>= fun _ => setStatus .ROLLEDBACK >>= fun _ =>
          pure (exCode fault)) ⟨some t, log⟩
      else .error fault ⟨some t, log⟩ := by
  cases fault with
  | raised e => cases e <;> rfl
  | nullDereference | outOfBounds | foreignDelete => rfl

theorem clearAdapter_eq (t : Transaction C X) (log : List (Exchange C)) :
    clearAdapter process ⟨some t, log⟩ = if t.clears process then
        .ok () ⟨some { t with
          registeredCache := SortedMap.empty, preparedCache := SortedMap.empty }, log⟩
      else .error .foreignDelete ⟨some t, log⟩ := by
  simp only [clearAdapter, bind_apply, get_apply, Option.all_some]
  split <;> rfl

theorem cleanUp_of_cleared (t : Transaction C X) (log : List (Exchange C)) :
    cleanUpCurrentTransaction process ⟨some { t with
      registeredCache := SortedMap.empty, preparedCache := SortedMap.empty }, log⟩ =
        .ok () ⟨none, log⟩ := rfl

theorem finishCommit_eq (t : Transaction C X) (log : List (Exchange C)) (code : UInt32) :
    finishCommit process code ⟨some t, log⟩ =
      leave process t log (if t.status = .ROLLEDBACK then some (.rollback code) else none) := by
  simp only [finishCommit, bind_apply, get_apply, clearAdapter_eq]
  cases clears : t.clears process with
  | false => rw [leave_of_foreign process clears]; rfl
  | true =>
    rw [leave_of_clears process clears]
    simp only [cleanUp_of_cleared, Option.map_some, Option.some.injEq, if_true]
    split <;> rfl

theorem cleanUpCurrentTransaction_eq (t : Transaction C X) (log : List (Exchange C)) :
    cleanUpCurrentTransaction process ⟨some t, log⟩ = leave process t log none := by
  simp only [cleanUpCurrentTransaction, bind_apply, get_apply, Option.isSome_some, if_true,
    clearAdapter_eq]
  cases clears : t.clears process with
  | false => rw [leave_of_foreign process clears]; rfl
  | true => rw [leave_of_clears process clears]; rfl

def concluded (servers : Servers C) (t : Transaction C X) (status : TransactionStatus) :
    Transaction C X := { voted servers t with status }

theorem commit_eq (servers : Servers C) (fresh : XID) {t : Transaction C X}
    (active : t.status = .ACTIVE) (log : List (Exchange C)) :
    commit process servers fresh ⟨some t, log⟩ = match attemptFailure process servers t with
      | none => leave process (concluded servers t .COMMITTED) (attemptLog servers t log) none
      | some e =>
        if e.isHotRodClient then
          let log' := attemptLog servers t log ++ record .rollback t.xid (undoTrail servers t)
          match ending (servers .rollback) never (voted servers t).preparedCache.keys with
          | none =>
            leave process (concluded servers t .ROLLEDBACK) log' (some (.rollback (exCode e)))
          | some stop => .error (failure process.image stop) ⟨some (voted servers t), log'⟩
        else .error e ⟨some (voted servers t), attemptLog servers t log⟩ := by
  have start : commit process servers fresh ⟨some t, log⟩ =
      (tryCatch (attemptCommit process servers t) (handleCommitFailure process servers t.xid) >>=
        finishCommit process) ⟨some t, log⟩ := by
    simp [commit, getCurrentTransaction, bind_apply, active, TransactionStatus.canCommit,
      TransactionStatus.needsRollback]
  have attempt := attemptCommit_eq process servers t log
  rw [start]
  cases failed : attemptFailure process servers t with
  | none =>
    rw [failed] at attempt
    rw [bind_of_ok (tryCatch_of_ok attempt), finishCommit_eq]
    rfl
  | some e =>
    rw [failed] at attempt
    -- the handlers run on the session the failed attempt has left, votes included
    rw [bind_apply, tryCatch_of_error attempt, show t.xid = (voted servers t).xid from rfl,
      handleCommitFailure_eq]
    by_cases client : e.isHotRodClient = true
    · simp only [client, if_true, bind_apply, remoteRollback_eq]
      cases ending (servers .rollback) never (voted servers t).preparedCache.keys with
      | none =>
        simp only [setStatus, updateTransaction, modify_apply, pure_apply, Option.map_some,
          finishCommit_eq]
        rfl
      | some stop => rfl
    · simp [client]

theorem commit_of_success (servers : Servers C) (fresh : XID) {t : Transaction C X}
    (active : t.status = .ACTIVE) (log : List (Exchange C))
    (passed : attemptFailure process servers t = none) :
    commit process servers fresh ⟨some t, log⟩ =
      leave process (concluded servers t .COMMITTED) (attemptLog servers t log) none := by
  rw [commit_eq process servers fresh active, passed]

theorem commit_of_escape (servers : Servers C) (fresh : XID) {t : Transaction C X}
    (active : t.status = .ACTIVE) (log : List (Exchange C)) {e : Fault}
    (failed : attemptFailure process servers t = some e) (foreign : e.isHotRodClient = false) :
    commit process servers fresh ⟨some t, log⟩ =
      .error e ⟨some (voted servers t), attemptLog servers t log⟩ := by
  simp only [commit_eq process servers fresh active, failed, foreign, Bool.false_eq_true, if_false]

theorem commit_of_undo (servers : Servers C) (fresh : XID) {t : Transaction C X}
    (active : t.status = .ACTIVE) (log : List (Exchange C)) {e : Fault}
    (failed : attemptFailure process servers t = some e) (client : e.isHotRodClient = true) :
    commit process servers fresh ⟨some t, log⟩ =
      let log' := attemptLog servers t log ++ record .rollback t.xid (undoTrail servers t)
      match ending (servers .rollback) never (voted servers t).preparedCache.keys with
      | none => leave process (concluded servers t .ROLLEDBACK) log' (some (.rollback (exCode e)))
      | some stop => .error (failure process.image stop) ⟨some (voted servers t), log'⟩ := by
  simp only [commit_eq process servers fresh active, failed, client, if_true]

theorem log_of_undo (servers : Servers C) (fresh : XID) {t : Transaction C X}
    (active : t.status = .ACTIVE) (log : List (Exchange C)) {e : Fault}
    (failed : attemptFailure process servers t = some e) (client : e.isHotRodClient = true) :
    (final (commit process servers fresh ⟨some t, log⟩)).log =
      attemptLog servers t log ++ record .rollback t.xid (undoTrail servers t) := by
  rw [commit_of_undo process servers fresh active log failed client]
  cases ending (servers .rollback) never (voted servers t).preparedCache.keys with
  | none => exact log_leave process _ _ _
  | some stop => rfl

theorem commit_of_not_active (servers : Servers C) (fresh : XID) {t : Transaction C X}
    (idle : t.status ≠ .ACTIVE) (log : List (Exchange C)) :
    commit process servers fresh ⟨some t, log⟩ =
      .error (.raised (.txState t.status.statusToString "commit()")) ⟨some t, log⟩ := by
  simp [commit, getCurrentTransaction, bind_apply, idle, TransactionStatus.canCommit]

theorem rollback_eq (servers : Servers C) (fresh : XID) {t : Transaction C X}
    (active : t.status = .ACTIVE) (log : List (Exchange C)) :
    rollback process servers fresh ⟨some t, log⟩ =
      let log' :=
        log ++ record .rollback t.xid (trail (servers .rollback) never t.preparedCache.keys)
      match ending (servers .rollback) never t.preparedCache.keys with
      | none => leave process { t with status := .ROLLEDBACK } log' none
      | some stop => .error (failure process.image stop) ⟨some t, log'⟩ := by
  have accepted : t.status.canRollback = true := by simp [active, TransactionStatus.canRollback]
  simp only [rollback, getCurrentTransaction, bind_apply, get_apply, pure_apply, accepted, if_true,
    remoteRollback_eq]
  cases ending (servers .rollback) never t.preparedCache.keys with
  | none => exact cleanUpCurrentTransaction_eq process _ _
  | some stop => rfl

theorem rollback_of_not_active (servers : Servers C) (fresh : XID) {t : Transaction C X}
    (idle : t.status ≠ .ACTIVE) (log : List (Exchange C)) :
    rollback process servers fresh ⟨some t, log⟩ =
      .error (.raised (.txState t.status.statusToString "rollback()")) ⟨some t, log⟩ := by
  simp [rollback, getCurrentTransaction, bind_apply, idle, TransactionStatus.canRollback]

end HotRod.Transactions
