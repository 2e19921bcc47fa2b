import HotRod.Transactions.Atomicity
import Mathlib.Data.List.Induction

/-! What a decision round reports of the answers it has got.

The loops fold their answers into four flags, and the flags into one verdict.
The flags are read off the list of codes first; the results then say for which
lists the verdict tells the truth. -/

set_option autoImplicit false

namespace HotRod.Transactions

open Semantics.Execution Semantics.Rounds TransactionRemoteStatus

/-! ### Flags -/

def mixes (code : UInt32) : Bool := code = XA_HEURMIX || code = XA_HEURHAZ

-- The codes after COMMIT that speak of a rollback.
def undoes (code : UInt32) : Bool := code = XA_HEURRB || mixes code

-- The codes that speak of no outcome: the xid is not known, or the code is not.
def stray (code : UInt32) : Bool := !acknowledges code && !undoes code

theorem flag_foldl {count : Tally → UInt32 → Tally} (flag : Tally → Bool) {raises : UInt32 → Bool}
    (one : ∀ tally code, flag (count tally code) = (flag tally || raises code)) (tally : Tally)
    (codes : List UInt32) : flag (codes.foldl count tally) = (flag tally || codes.any raises) := by
  induction codes generalizing tally with
  | nil => simp
  | cons code rest ih => rw [List.foldl_cons, ih, one, List.any_cons, Bool.or_assoc]

def named : List UInt32 :=
  [XA_OK, XA_RDONLY, XA_HEURCOM, XAER_NOTA, XA_HEURMIX, XA_HEURHAZ, XA_HEURRB]

theorem countCommit_flags (tally : Tally) (code : UInt32) :
    (tally.countCommit code).hasCommit = (tally.hasCommit || (acknowledges code || mixes code)) ∧
      (tally.countCommit code).hasRollback = (tally.hasRollback || undoes code) ∧
      ((tally.countCommit code).alreadyForgot || (tally.countCommit code).unknown) =
        ((tally.alreadyForgot || tally.unknown) || stray code) := by
  by_cases known : code ∈ named
  · simp only [named, List.mem_cons, List.not_mem_nil, or_false] at known
    rcases known with rfl | rfl | rfl | rfl | rfl | rfl | rfl <;>
      simp [Tally.countCommit, acknowledges, mixes, undoes, stray, XA_OK, XA_RDONLY, XA_HEURCOM,
        XAER_NOTA, XA_HEURMIX, XA_HEURHAZ, XA_HEURRB]
  · simp only [named, List.mem_cons, List.not_mem_nil, or_false, not_or] at known
    simp [Tally.countCommit, acknowledges, mixes, undoes, stray, known]

theorem commitVerdict_eq_none {tally : Tally} :
    tally.commitVerdict = none ↔ tally.hasRollback = false ∧
      (tally.hasCommit = true ∨ (tally.alreadyForgot || tally.unknown) = false) := by
  obtain ⟨commits, rollbacks, forgot, unknown, code⟩ := tally
  cases commits <;> cases rollbacks <;> cases forgot <;> cases unknown <;>
    simp [Tally.commitVerdict]

theorem undoes_of_acknowledges {code : UInt32} (acknowledged : acknowledges code = true) :
    undoes code = false := by
  simp only [acknowledges, Bool.or_eq_true, decide_eq_true_eq] at acknowledged
  rcases acknowledged with (rfl | rfl) | rfl <;> decide

theorem stray_iff {code : UInt32} :
    stray code = true ↔ acknowledges code = false ∧ undoes code = false := by
  simp [stray]

theorem undoes_of_mixes {code : UInt32} (mixed : mixes code = true) : undoes code = true := by
  simp [undoes, mixed]

-- The verdict over a whole list of answers.
theorem commitVerdict_foldl (codes : List UInt32) :
    (codes.foldl Tally.countCommit {}).commitVerdict = none ↔
      (∀ code ∈ codes, undoes code = false) ∧
        ((∃ code ∈ codes, acknowledges code = true) ∨ ∀ code ∈ codes, stray code = false) := by
  rw [commitVerdict_eq_none,
    flag_foldl Tally.hasRollback (fun tally code => (countCommit_flags tally code).2.1),
    flag_foldl Tally.hasCommit (fun tally code => (countCommit_flags tally code).1),
    flag_foldl (fun tally => tally.alreadyForgot || tally.unknown)
      (fun tally code => (countCommit_flags tally code).2.2)]
  simp only [Bool.or_self, Bool.false_or, List.any_eq_false, List.any_eq_true, Bool.not_eq_true,
    Bool.or_eq_true]
  -- a mixed answer would be a rollback as well
  refine and_congr_right fun clean => or_congr_left (exists_congr fun code => ?_)
  refine and_congr_right fun member => or_iff_left fun mixed => ?_
  have undone := clean code member
  rw [undoes_of_mixes mixed] at undone
  cases undone

/-! ### COMMIT -/

variable {C X : Type}

def answering (answers : C → UInt32) : Servers C := fun _ c => .replied (answers c)

theorem ending_answering (answers : C → UInt32) (phase : Phase) (cs : List C) :
    ending (answering answers phase) never cs = none :=
  ending_eq_none.mpr fun _ _ => ⟨_, rfl, rfl⟩

theorem tallyOf_answering (count : Tally → UInt32 → Tally) (answers : C → UInt32) (phase : Phase)
    (tally : Tally) (cs : List C) :
    tallyOf count (answering answers phase) tally cs = (cs.map answers).foldl count tally := by
  rw [List.foldl_map]
  rfl

variable [LinearOrder C] (process : Process X)

theorem raised_remoteCommit (servers : Servers C) (t : Transaction C X) (s : Session C X) :
    raised (remoteCommit process servers t s) = commitFailure process servers t := by
  rw [remoteCommit_eq]
  cases commitFailure process servers t <;> rfl

/-- A normal return means a commit everywhere, and anything else is an exception
of the remote state. -/
def ReportsCommit (codes : List UInt32) (thrown : Option Fault) : Prop :=
  (thrown = none ↔ ∀ code ∈ codes, acknowledges code = true) ∧
    ((∃ code ∈ codes, acknowledges code = false) →
      ∃ status, thrown = some (.raised (.txRemoteState status)))

/-- Some caches have committed and none speaks of a rollback, but one knows nothing
of the transaction or answers with a code of its own. -/
def Masked (codes : List UInt32) : Prop :=
  (∃ code ∈ codes, acknowledges code = true) ∧ (∀ code ∈ codes, undoes code = false) ∧
    ∃ code ∈ codes, stray code = true

/-- The code that stands for a list of stray ones: XAER_NOTA, or else the last. -/
def spokesman (codes : List UInt32) : Option UInt32 :=
  if XAER_NOTA ∈ codes then some XAER_NOTA else codes.getLast?

/-- No answer speaks of an outcome, and the code that is to be reported leads out of the
text it is added to. -/
def Unspeakable (image : Image) (codes : List UInt32) : Prop :=
  (∀ code ∈ codes, stray code = true) ∧
    ∃ code, spokesman codes = some code ∧ image.readable code = false

theorem foldl_of_stray {codes : List UInt32} (lost : ∀ code ∈ codes, stray code = true) :
    let tally := codes.foldl Tally.countCommit {}
    tally.hasCommit = false ∧ tally.hasRollback = false ∧
      (tally.alreadyForgot = true ↔ XAER_NOTA ∈ codes) ∧
      (XAER_NOTA ∉ codes → codes.getLast? = if tally.unknown then some tally.unknownErrorCode
        else none) := by
  induction codes using List.reverseRecOn with
  | nil => simp
  | append_singleton before code ih =>
    obtain ⟨commits, rollbacks, forgot, unknown⟩ :=
      ih fun c member => lost c (List.mem_append_left _ member)
    obtain ⟨denied, kept⟩ := stray_iff.mp (lost code (by simp))
    simp only [acknowledges, undoes, mixes, Bool.or_eq_false_iff, decide_eq_false_iff_not]
      at denied kept
    rw [List.foldl_append, List.foldl_cons, List.foldl_nil]
    generalize before.foldl Tally.countCommit {} = tally at commits rollbacks forgot unknown ⊢
    by_cases known : code = XAER_NOTA
    · subst known
      simp [Tally.countCommit, denied, commits, rollbacks]
    · simp [Tally.countCommit, denied, kept, known, Ne.symm known, commits, rollbacks, forgot]

theorem commitVerdict_of_stray {codes : List UInt32} (lost : ∀ code ∈ codes, stray code = true) :
    (codes.foldl Tally.countCommit {}).commitVerdict = spokesman codes := by
  obtain ⟨commits, rollbacks, forgot, unknown⟩ := foldl_of_stray lost
  unfold Tally.commitVerdict spokesman
  rw [commits, rollbacks]
  by_cases known : XAER_NOTA ∈ codes
  · simp [forgot.mpr known, known]
  · have remembered : (codes.foldl Tally.countCommit {}).alreadyForgot = false := by
      simpa [known] using forgot
    simp [remembered, known, unknown known]

theorem readable_of_outcome (image : Image) {codes : List UInt32} {code status : UInt32}
    (member : code ∈ codes) (outcome : stray code = false)
    (verdict : (codes.foldl Tally.countCommit {}).commitVerdict = some status) :
    image.readable status = true := by
  have commits := flag_foldl Tally.hasCommit
    (fun tally code => (countCommit_flags tally code).1) {} codes
  have rollbacks := flag_foldl Tally.hasRollback
    (fun tally code => (countCommit_flags tally code).2.1) {} codes
  have known : ((codes.foldl Tally.countCommit {}).hasCommit ||
      (codes.foldl Tally.countCommit {}).hasRollback) = true := by
    rw [commits, rollbacks]
    have told : acknowledges code = true ∨ undoes code = true := by
      cases told : acknowledges code <;> cases undone : undoes code <;>
        simp [stray, told, undone] at outcome ⊢
    simp only [Bool.or_eq_true, List.any_eq_true, Bool.false_or]
    rcases told with told | undone
    · exact .inl ⟨code, member, .inl told⟩
    · exact .inr ⟨code, member, undone⟩
  -- both codes that are left lie within the text
  have own : status = XA_HEURMIX ∨ status = XA_HEURRB := by
    generalize codes.foldl Tally.countCommit {} = tally at known verdict
    obtain ⟨hasCommit, hasRollback, forgot, unknown, last⟩ := tally
    cases hasCommit <;> cases hasRollback <;>
      simp [Tally.commitVerdict] at known verdict
    · exact .inr verdict.symm
    · exact .inl verdict.symm
  rcases own with rfl | rfl
  · exact image.within _ (by decide)
  · exact image.within _ (by decide)

-- Outside a masked round the code raises nothing just where all have committed.
theorem commitVerdict_none_iff_of_not_masked {codes : List UInt32} (told : ¬ Masked codes) :
    (codes.foldl Tally.countCommit {}).commitVerdict = none ↔
      ∀ code ∈ codes, acknowledges code = true := by
  rw [commitVerdict_foldl]
  constructor
  · rintro ⟨clean, committed⟩ code member
    by_contra denied
    have lost : stray code = true :=
      stray_iff.mpr ⟨Bool.eq_false_of_not_eq_true denied, clean code member⟩
    rcases committed with committed | known
    · exact told ⟨committed, clean, code, member, lost⟩
    · rw [known code member] at lost
      cases lost
  · intro committed
    refine ⟨fun code member => undoes_of_acknowledges (committed code member), .inr ?_⟩
    intro code member
    simp [stray, committed code member]

theorem readable_of_not_unspeakable {image : Image} {codes : List UInt32} {status : UInt32}
    (speakable : ¬ Unspeakable image codes)
    (verdict : (codes.foldl Tally.countCommit {}).commitVerdict = some status) :
    image.readable status = true := by
  by_cases lost : ∀ code ∈ codes, stray code = true
  · rw [commitVerdict_of_stray lost] at verdict
    by_contra unreadable
    exact speakable ⟨lost, status, verdict, Bool.eq_false_of_not_eq_true unreadable⟩
  · obtain ⟨code, member, outcome⟩ : ∃ code ∈ codes, stray code = false := by
      simpa using lost
    exact readable_of_outcome image member outcome verdict

/-- `remoteCommit` tells the truth about every list of answers but the masked ones and
those it has no words for. -/
theorem remoteCommit_reports_iff (answers : C → UInt32) (t : Transaction C X) (s : Session C X) :
    ReportsCommit (t.registeredCache.keys.map answers)
        (raised (remoteCommit process (answering answers) t s)) ↔
      ¬ Masked (t.registeredCache.keys.map answers) ∧
        ¬ Unspeakable process.image (t.registeredCache.keys.map answers) := by
  rw [raised_remoteCommit, commitFailure, ending_answering, tallyOf_answering]
  generalize t.registeredCache.keys.map answers = codes
  constructor
  · rintro ⟨returns, reports⟩
    constructor
    · -- the commit of one cache silences the stray answer of another
      rintro ⟨committed, clean, code, member, lost⟩
      have quiet := (commitVerdict_foldl codes).mpr ⟨clean, .inl committed⟩
      rw [quiet, Option.map_none] at returns
      rw [stray_iff, returns.mp rfl code member] at lost
      cases lost.1
    · rintro ⟨lost, code, speaks, unreadable⟩
      have raise := (commitVerdict_of_stray lost).trans speaks
      have member : ∃ c ∈ codes, acknowledges c = false := by
        cases codes with
        | nil => simp [spokesman] at speaks
        | cons first rest => exact ⟨first, by simp, (stray_iff.mp (lost first (by simp))).1⟩
      obtain ⟨status, thrown⟩ := reports member
      rw [raise, Option.map_some, Option.some.injEq, txRemoteStateException_eq_raised] at thrown
      rw [thrown.1] at unreadable
      cases unreadable
  · rintro ⟨told, speakable⟩
    have whole := commitVerdict_none_iff_of_not_masked told
    cases raise : (codes.foldl Tally.countCommit {}).commitVerdict with
    | none =>
      have committed := whole.mp raise
      refine ⟨iff_of_true rfl committed, ?_⟩
      rintro ⟨code, member, denied⟩
      rw [committed code member] at denied
      cases denied
    | some status =>
      have failed : ¬ ∀ code ∈ codes, acknowledges code = true := fun committed => by
        rw [whole.mpr committed] at raise
        cases raise
      have readable := readable_of_not_unspeakable speakable raise
      refine ⟨iff_of_false (by simp) failed, fun _ => ⟨status, ?_⟩⟩
      rw [Option.map_some, txRemoteStateException_of_readable readable]

/-- A round in which one cache has forgotten the transaction: the other's commit hides it. -/
theorem remoteCommit_hides_forgotten :
    ¬ ReportsCommit [XA_OK, XAER_NOTA] (raised (remoteCommit plainProcess
      (answering fun c => if c = 0 then XA_OK else XAER_NOTA) twoCaches ⟨some twoCaches, []⟩)) := by
  rintro ⟨returns, -⟩
  have committed := returns.mp (by decide) XAER_NOTA (by decide)
  revert committed
  decide

/-! ### Who is sent a COMMIT -/

def commitsTo (xid : XID) (cache : C) (log : List (Exchange C)) : Nat :=
  log.countP fun x => x.phase = .commit ∧ x.xid = xid ∧ x.cache = cache

/-- One COMMIT for every cache that has voted XA_OK, and none for any other. -/
def CommitsPrepared (servers : Servers C) (t : Transaction C X) (log : List (Exchange C)) : Prop :=
  ∀ cache, commitsTo t.xid cache log =
    if cache ∈ t.registeredCache ∧ servers .prepare cache = .replied XA_OK then 1 else 0

/-- Every registered cache votes to commit or to stay out. -/
def Votes (servers : Servers C) (t : Transaction C X) : Prop :=
  ∀ c ∈ t.registeredCache.keys,
    servers .prepare c = .replied XA_OK ∨ servers .prepare c = .replied XA_RDONLY

instance (servers : Servers C) (t : Transaction C X) : Decidable (Votes servers t) :=
  inferInstanceAs (Decidable (∀ c ∈ t.registeredCache.keys, _))

theorem commitsTo_append (xid : XID) (cache : C) (a b : List (Exchange C)) :
    commitsTo xid cache (a ++ b) = commitsTo xid cache a + commitsTo xid cache b :=
  List.countP_append

theorem commitsTo_record (phase : Phase) (xid : XID) (cache : C) (sent : List (C × Option UInt32)) :
    commitsTo xid cache (record phase xid sent) =
      if phase = .commit then (sent.map Prod.fst).count cache else 0 := by
  unfold commitsTo record
  rw [List.countP_map, List.count, List.countP_map]
  split_ifs with commits
  · refine List.countP_congr fun call _ => ?_
    simp [commits]
  · refine List.countP_eq_zero.mpr fun call _ => ?_
    simp [commits]

-- The log of `commit`: its two rounds, and a ROLLBACK round if it has to undo.
theorem log_commit (servers : Servers C) (fresh : XID) {t : Transaction C X}
    (active : t.status = .ACTIVE) :
    ∃ undone, (final (commit process servers fresh ⟨some t, []⟩)).log =
      attemptLog servers t [] ++ record .rollback t.xid undone := by
  cases failed : attemptFailure process servers t with
  | none =>
    refine ⟨[], ?_⟩
    rw [commit_of_success process servers fresh active [] failed, log_leave]
    exact (List.append_nil _).symm
  | some e =>
    cases client : e.isHotRodClient with
    | false =>
      refine ⟨[], ?_⟩
      rw [commit_of_escape process servers fresh active [] failed client, final_error]
      exact (List.append_nil _).symm
    | true =>
      use undoTrail servers t
      exact log_of_undo process servers fresh active [] failed client

theorem commitsTo_commit (servers : Servers C) (fresh : XID) {t : Transaction C X}
    (active : t.status = .ACTIVE) (cache : C) :
    commitsTo t.xid cache (final (commit process servers fresh ⟨some t, []⟩)).log =
      ((commitTrail servers t).map Prod.fst).count cache := by
  obtain ⟨undone, log⟩ := log_commit process servers fresh active
  simp [log, attemptLog, commitsTo_append, commitsTo_record]

theorem count_trail_iff (answer : C → Answer Fault UInt32) {cs : List C} (distinct : cs.Nodup)
    (cache : C) (p : Prop) [Decidable p] :
    ((trail answer never cs).map Prod.fst).count cache = (if p then 1 else 0) ↔
      (Reaches answer cs cache ↔ p) := by
  have once : ((trail answer never cs).map Prod.fst).Nodup := distinct.sublist trail_prefix.sublist
  have sent : cache ∈ (trail answer never cs).map Prod.fst ↔ Reaches answer cs cache := by
    simp [Reaches]
  rw [← sent]
  by_cases member : cache ∈ (trail answer never cs).map Prod.fst
  · rw [List.count_eq_one_of_mem once member]
    by_cases holds : p <;> simp [holds, member]
  · rw [List.count_eq_zero_of_not_mem member]
    by_cases holds : p <;> simp [holds, member]

/-- Every registered cache before this one answers its COMMIT, and its own can be sent. -/
def InReach (servers : Servers C) (t : Transaction C X) (cache : C) : Prop :=
  (servers .commit cache).delivered = true ∧
    ∀ c ∈ t.registeredCache.keys, c < cache → ∃ code, servers .commit c = .replied code

theorem reaches_commit_iff (servers : Servers C) (t : Transaction C X) (cache : C) :
    Reaches (servers .commit) t.registeredCache.keys cache ↔
      cache ∈ t.registeredCache ∧ InReach servers t cache := by
  unfold Reaches InReach
  rw [mem_trail_iff_of_sorted t.registeredCache.keys_sorted]
  simp only [never, and_true, SortedMap.mem_keys]

theorem ending_of_votes {servers : Servers C} {t : Transaction C X} (votes : Votes servers t) :
    ending (servers .prepare) refuses t.registeredCache.keys = none := by
  apply ending_eq_none.mpr
  intro c registered
  rcases votes c registered with vote | vote
  · exact ⟨_, vote, rfl⟩
  · exact ⟨_, vote, rfl⟩

/-- The COMMIT round goes over the registered caches, not over the prepared ones: it
serves the votes only where it cannot tell the two apart. -/
theorem commit_goes_to_prepared_iff (servers : Servers C) (fresh : XID) {t : Transaction C X}
    (active : t.status = .ACTIVE) (votes : Votes servers t) :
    CommitsPrepared servers t (final (commit process servers fresh ⟨some t, []⟩)).log ↔
      (∀ c ∈ t.registeredCache, servers .prepare c = .replied XA_RDONLY) ∨
        ∀ c ∈ t.registeredCache, servers .prepare c = .replied XA_OK ↔ InReach servers t c := by
  simp only [CommitsPrepared, commitsTo_commit process servers fresh active, commitTrail]
  by_cases enters : EntersCommit servers t
  · -- the round visits the registered caches in order, readers included
    have busy : ¬ ∀ c ∈ t.registeredCache, servers .prepare c = .replied XA_RDONLY := by
      intro idle
      obtain ⟨-, prepared, member, willing⟩ := enters
      rw [idle prepared member] at willing
      revert willing
      decide
    simp only [if_pos enters, count_trail_iff _ t.registeredCache.keys_nodup, reaches_commit_iff,
      busy, false_or]
    constructor
    · intro exactly c registered
      have both := exactly c
      rw [and_iff_right registered, and_iff_right registered] at both
      exact both.symm
    · intro exactly cache
      exact and_congr_right fun registered => (exactly cache registered).symm
  · -- nobody has work, so there is no COMMIT round at all
    have unwilling : ∀ c ∈ t.registeredCache, ¬ servers .prepare c = .replied XA_OK :=
      fun c registered willing => enters ⟨ending_of_votes votes, c, registered, willing⟩
    apply iff_of_true
    · intro cache
      have idle : ¬ (cache ∈ t.registeredCache ∧ servers .prepare cache = .replied XA_OK) :=
        fun both => unwilling cache both.1 both.2
      rw [if_neg enters, if_neg idle]
      rfl
    · exact .inl fun c registered => (votes c registered).resolve_left (unwilling c registered)

def oneReader : Servers Nat
  | .prepare, 1 => .replied XA_RDONLY
  | _, _ => .replied XA_OK

theorem oneReader_votes : Votes oneReader twoCaches := by decide

/-- The reader is sent a COMMIT as well. -/
theorem commit_goes_to_reader :
    ¬ CommitsPrepared oneReader twoCaches
      (final (commit plainProcess oneReader ⟨[3], [4]⟩ ⟨some twoCaches, []⟩)).log := by
  intro exactly
  have reader := exactly 1
  revert reader
  decide

theorem commit_goes_to_prepared_two :
    CommitsPrepared oneReader twoCaches
        (final (commit plainProcess oneReader ⟨[3], [4]⟩ ⟨some twoCaches, []⟩)).log ↔
      (∀ c ∈ twoCaches.registeredCache, oneReader .prepare c = .replied XA_RDONLY) ∨
        ∀ c ∈ twoCaches.registeredCache,
          oneReader .prepare c = .replied XA_OK ↔ InReach oneReader twoCaches c :=
  commit_goes_to_prepared_iff plainProcess oneReader ⟨[3], [4]⟩ rfl oneReader_votes

/-! ### ROLLBACK -/

/-- The codes after ROLLBACK that speak of a rollback and of nothing else. -/
def rollsBack (code : UInt32) : Bool := code = XA_OK || code = XA_RDONLY || code = XA_HEURRB

def KnownCommit (codes : List UInt32) : Prop :=
  ∃ code ∈ codes, (code = XA_HEURCOM || mixes code) = true

def KnownRollback (codes : List UInt32) : Prop :=
  ∃ code ∈ codes, (rollsBack code || mixes code) = true

/-- A normal return means a rollback everywhere; anything else is an exception of the
remote state, whose code tells the known outcomes apart. -/
def ReportsUndo (codes : List UInt32) (thrown : Option Fault) : Prop :=
  (thrown = none ↔ ∀ code ∈ codes, rollsBack code = true) ∧
    ((∃ code ∈ codes, rollsBack code = false) →
      ∃ status, thrown = some (.raised (.txRemoteState status)) ∧
      (KnownCommit codes ∧ ¬ KnownRollback codes → status = XA_HEURCOM) ∧
      (KnownCommit codes ∧ KnownRollback codes → status = XA_HEURMIX))

-- The operation drops the code, so the round never raises a verdict.
theorem raised_remoteRollback (codes : C → UInt32) (t : Transaction C X)
    (log : List (Exchange C)) :
    raised (remoteRollback process (answering codes) t.xid ⟨some t, log⟩) = none := by
  rw [remoteRollback_eq, ending_answering]
  rfl

/-- `remoteRollback` tells the truth about the codes of the prepared caches only where
there is nothing to report. -/
theorem remoteRollback_reports_iff (codes : C → UInt32) (t : Transaction C X)
    (log : List (Exchange C)) :
    ReportsUndo (t.preparedCache.keys.map codes)
        (raised (remoteRollback process (answering codes) t.xid ⟨some t, log⟩)) ↔
      ∀ c ∈ t.preparedCache, rollsBack (codes c) = true := by
  rw [raised_remoteRollback]
  have sent : (∀ code ∈ t.preparedCache.keys.map codes, rollsBack code = true) ↔
      ∀ c ∈ t.preparedCache, rollsBack (codes c) = true := List.forall_mem_map
  constructor
  · rintro ⟨returns, -⟩
    exact sent.mp (returns.mp rfl)
  · intro undone
    constructor
    · exact iff_of_true rfl (sent.mpr undone)
    · rintro ⟨code, member, kept⟩
      rw [sent.mpr undone code member] at kept
      cases kept

def twoPrepared : Transaction Nat Unit :=
  { twoCaches with preparedCache := (SortedMap.empty.insert 0 ()).insert 1 () }

/-- Both caches answer that they have committed, and the rollback returns normally. -/
theorem remoteRollback_hides_commit :
    ¬ ReportsUndo [XA_HEURCOM, XA_HEURCOM] (raised (remoteRollback plainProcess
      (answering fun _ => XA_HEURCOM) twoPrepared.xid ⟨some twoPrepared, []⟩)) := by
  rintro ⟨returns, -⟩
  have undone := returns.mp (by decide) XA_HEURCOM (by decide)
  revert undone
  decide

end HotRod.Transactions
