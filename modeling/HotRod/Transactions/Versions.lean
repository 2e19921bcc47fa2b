import HotRod.Transactions.ContainsKey
import HotRod.Transactions.Pointers

/-! Versioned writes inside a transaction.

`replaceWithVersion` and `removeWithVersion` compare with the version of the context's
entry, which every write resets to the one after the original version.
`getWithVersion` reads the value through the context and leaves the version it was to
report as the caller has initialised it. As `replace` does, `replaceWithVersion` stores
the caller's pointer, together with a deleter for it. -/

set_option autoImplicit false

namespace HotRod.Transactions

open Semantics.Execution TransactionContext

variable {K A V : Type}

/-- `replaceWithVersion` or `removeWithVersion`, but for the key and the version. -/
inductive VersionedWrite (V : Type) where
  | replace (val : V) (life idle : Int)
  | remove
  deriving Repr

inductive TxCall (K V : Type) where
  | plain (call : CacheCall K V)
  | getWithVersion (key : K)
  | write (key : K) (version : Int) (w : VersionedWrite V)
  deriving Repr

section Calls

variable [LinearOrder K] (cache : Handle V) (status : TransactionStatus) (remote : Remote K V)

-- The transactional branch does not write through its pointer to the version.
def baseGetWithVersion (key : K) (version : Int) : CacheM K V (Option V × Int) := do
  let value ← transactionalBaseGet cache status remote key
  pure (value, version)

-- `RemoteCache::getWithVersion` passes a `VersionedValue` whose version is 0.
def getWithVersion (key : K) : CacheM K V (Option V × Int) :=
  baseGetWithVersion cache status remote key 0

def baseReplaceWithVersion (key : K) (value : V) (version life idle : Int) :
    CacheM K V Bool := do
  if !status.acceptRW then throw (.raised (.txState status.statusToString "replaceWithVersion"))
  let retVal ← transactionalBaseGet cache status remote key
  if retVal.isSome then
    let ce := entry (← get) key
    if ce.metadata.version = version then
      let newMeta : MetadataValue :=
        { lifespan := narrow life, maxIdle := narrow idle, version := ce.metadata.version + 1 }
      mutate fun tc => setValue tc key (some value) newMeta (some cache.valueDestructor)
        (some cache.valueMarshaller)
      pure true
    else pure false
  else pure false

def baseRemoveWithVersion (key : K) (version : Int) : CacheM K V Bool := do
  if !status.acceptRW then throw (.raised (.txState status.statusToString "removeWithVersion"))
  let retVal ← transactionalBaseGet cache status remote key
  if retVal.isSome then
    let ce := entry (← get) key
    if ce.metadata.version = version then
      mutate fun tc => setValueAsDeleted tc key
      pure true
    else pure false
  else pure false

def VersionedWrite.run (key : K) (version : Int) : VersionedWrite V → CacheM K V Bool
  | .replace val life idle => baseReplaceWithVersion cache status remote key val version life idle
  | .remove => baseRemoveWithVersion cache status remote key version

def TxCall.run : TxCall K V → CacheM K V PUnit
  | .plain call => discard (call.run cache status remote)
  | .getWithVersion key => discard (HotRod.Transactions.getWithVersion cache status remote key)
  | .write key version w => discard (w.run cache status remote key version)

end Calls

/-! ### Entries -/

def TxCall.key : TxCall K V → K
  | .plain (.op op) => op.key
  | .plain (.containsKey key) | .getWithVersion key | .write key _ _ => key

def VersionedWrite.entryAfter (cache : Handle V) (ce : ContextEntry V) :
    VersionedWrite V → ContextEntry V
  | .replace val life idle => setEntry cache ce val life idle
  | .remove => deletedEntry ce

-- The versions agree, and there is a value.
def Matches (ce : ContextEntry V) (version : Int) : Prop :=
  (visible ce).isSome = true ∧ ce.metadata.version = version

instance (ce : ContextEntry V) (version : Int) : Decidable (Matches ce version) :=
  inferInstanceAs (Decidable (_ ∧ _))

def TxCall.entryAfter (cache : Handle V) (found : Option (V × MetadataValue))
    (held : Option (ContextEntry V)) : TxCall K V → ContextEntry V
  | .plain (.op op) => op.entryAfter cache found held
  | .plain (.containsKey _) => held.getD {}
  | .getWithVersion _ => observed cache found held
  | .write _ version w =>
    let seen := observed cache found held
    if Matches seen version then w.entryAfter cache seen else seen

def TxCall.deletes (cache : Handle V) (found : Option (V × MetadataValue))
    (held : Option (ContextEntry V)) : TxCall K V → Bool
  | .plain (.op op) => op.deletes cache found held
  | .plain (.containsKey _) | .getWithVersion _ => true
  | .write _ version _ =>
    let seen := observed cache found held
    !decide (Matches seen version) || seen.deletable

theorem deletes_write_iff {cache : Handle V} {found : Option (V × MetadataValue)}
    {held : Option (ContextEntry V)} {key : K} {version : Int} {w : VersionedWrite V} :
    (TxCall.write key version w).deletes cache found held = true ↔
      (Matches (observed cache found held) version →
        (observed cache found held).deletable = true) := by
  by_cases agrees : Matches (observed cache found held) version <;> simp [TxCall.deletes, agrees]

def TxCall.Stores (cache : Handle V) (found : Option (V × MetadataValue))
    (held : Option (ContextEntry V)) : TxCall K V → Prop
  | .plain (.op (.get _)) | .plain (.containsKey _) | .getWithVersion _ => False
  | .plain (.op (.put ..)) | .plain (.op (.remove _)) => True
  | .plain (.op (.putIfAbsent ..)) => (visible (observed cache found held)).isNone = true
  | .plain (.op (.replace ..)) => (visible (observed cache found held)).isSome = true
  | .write _ version _ => Matches (observed cache found held) version

theorem entryAfter_of_stores {cache : Handle V} {found : Option (V × MetadataValue)}
    {ce : ContextEntry V} {call : TxCall K V} (stores : call.Stores cache found (some ce)) :
    (call.entryAfter cache found (some ce)).origMeta = ce.origMeta ∧
      (call.entryAfter cache found (some ce)).metadata.version = ce.origMeta.version + 1 := by
  cases call with
  | getWithVersion key => exact stores.elim
  | write key version w =>
    have agrees : Matches ce version := stores
    cases w <;> simp [TxCall.entryAfter, observed, agrees, VersionedWrite.entryAfter, setEntry,
      deletedEntry]
  | plain call =>
    cases call with
    | containsKey key => exact stores.elim
    | op op =>
      cases op with
      | get key => exact stores.elim
      | put key val life idle =>
        cases force : cache.forceReturnValue <;>
          simp [TxCall.entryAfter, Op.entryAfter, observed, storeEntry, setEntry, force]
      | putIfAbsent key val life idle =>
        have absent : (visible ce).isNone = true := stores
        simp [TxCall.entryAfter, Op.entryAfter, observed, absent, setEntry]
      | replace key val life idle =>
        have present : (visible ce).isSome = true := stores
        simp [TxCall.entryAfter, Op.entryAfter, observed, present, setEntry]
      | remove key =>
        cases force : cache.forceReturnValue <;>
          simp [TxCall.entryAfter, Op.entryAfter, observed, deletedEntry, force]

theorem entryAfter_of_not_stores {cache : Handle V} {found : Option (V × MetadataValue)}
    {ce : ContextEntry V} {call : TxCall K V} (reads : ¬ call.Stores cache found (some ce)) :
    call.entryAfter cache found (some ce) = ce := by
  cases call with
  | getWithVersion key => rfl
  | write key version w =>
    have differs : ¬ Matches ce version := reads
    simp [TxCall.entryAfter, observed, differs]
  | plain call =>
    cases call with
    | containsKey key => rfl
    | op op =>
      cases op with
      | get key => rfl
      | put key val life idle => exact absurd trivial reads
      | putIfAbsent key val life idle =>
        have present : ¬ (visible ce).isNone = true := reads
        simp [TxCall.entryAfter, Op.entryAfter, observed, present]
      | replace key val life idle =>
        have absent : ¬ (visible ce).isSome = true := reads
        simp [TxCall.entryAfter, Op.entryAfter, observed, absent]
      | remove key => exact absurd trivial reads

/-! ### Runs -/

variable [LinearOrder K]

def runHistory (cache : Handle V) (status : TransactionStatus) :
    List (Remote K V × TxCall K V) → CacheM K V PUnit
  | [] => pure ()
  | (remote, call) :: rest => do
    call.run cache status remote
    runHistory cache status rest

theorem versionedWrite_eq (cache : Handle V) (remote : Remote K V) (tc : TransactionContext K V)
    (key : K) (version : Int) (w : VersionedWrite V) :
    let seen := observed cache (remote key) (tc.get? key)
    w.run cache .ACTIVE remote key version tc =
      if Matches seen version then
        if seen.deletable then .ok true (tc.insert key (w.entryAfter cache seen))
        else .error .foreignDelete (tc.insert key seen)
      else .ok false (tc.insert key seen) := by
  intro seen
  have read : transactionalBaseGet cache .ACTIVE remote key tc =
      .ok (visible seen) (tc.insert key seen) := transactionalBaseGet_eq cache remote tc key
  have held : entry (tc.insert key seen) key = seen := by simp [entry]
  unfold Matches
  by_cases shown : (visible seen).isSome = true
  · by_cases same : seen.metadata.version = version
    · cases w with
      | replace val life idle =>
        cases own : seen.deletable <;>
          simp [VersionedWrite.run, baseReplaceWithVersion, TransactionStatus.acceptRW, bind_apply,
            map_apply, read, shown, held, same, own, mutate, setValue, VersionedWrite.entryAfter,
            setEntry]
      | remove =>
        cases own : seen.deletable <;>
          simp [VersionedWrite.run, baseRemoveWithVersion, TransactionStatus.acceptRW, bind_apply,
            map_apply, read, shown, held, same, own, mutate, setValueAsDeleted,
            VersionedWrite.entryAfter, deletedEntry]
    · cases w <;> simp [VersionedWrite.run, baseReplaceWithVersion, baseRemoveWithVersion,
        TransactionStatus.acceptRW, bind_apply, read, shown, held, same]
  · cases w <;> simp [VersionedWrite.run, baseReplaceWithVersion, baseRemoveWithVersion,
      TransactionStatus.acceptRW, bind_apply, read, shown]

theorem discard_of_ok {S B : Type} {x : EStateM Fault S B} {s t : S} {b : B}
    (returned : x s = .ok b t) : (discard x : EStateM Fault S PUnit) s = .ok () t := by
  change (Function.const B PUnit.unit <$> x) s = _
  rw [map_apply, returned]

theorem discard_of_error {S B : Type} {x : EStateM Fault S B} {s t : S} {fault : Fault}
    (raise : x s = .error fault t) : (discard x : EStateM Fault S PUnit) s = .error fault t := by
  change (Function.const B PUnit.unit <$> x) s = _
  rw [map_apply, raise]

section Run

variable {cache : Handle V} {remote : Remote K V} {tc : TransactionContext K V} {call : TxCall K V}

theorem TxCall.run_of_deletes
    (deletes : call.deletes cache (remote call.key) (tc.get? call.key) = true) :
    call.run cache .ACTIVE remote tc = .ok ()
      (tc.insert call.key (call.entryAfter cache (remote call.key) (tc.get? call.key))) := by
  cases call with
  | plain call =>
    cases call with
    | op op =>
      have runs : op.deletes cache (remote op.key) (tc.get? op.key) = true := deletes
      have returned := Op.run_eq cache remote tc op
      rw [if_pos runs] at returned
      apply discard_of_ok
      rw [CacheCall.run, bind_of_ok returned]
      rfl
    | containsKey key =>
      apply discard_of_ok
      rw [CacheCall.run, bind_of_ok (baseContainsKey_eq remote tc key)]
      rfl
  | getWithVersion key =>
    apply discard_of_ok
    rw [HotRod.Transactions.getWithVersion, baseGetWithVersion,
      bind_of_ok (transactionalBaseGet_eq cache remote tc key)]
    rfl
  | write key version w =>
    have returned := versionedWrite_eq cache remote tc key version w
    rw [TxCall.key, deletes_write_iff] at deletes
    by_cases agrees : Matches (observed cache (remote key) (tc.get? key)) version
    · have own := deletes agrees
      simp only [agrees, own, if_true] at returned
      rw [TxCall.key, TxCall.entryAfter, if_pos agrees]
      exact discard_of_ok returned
    · simp only [if_neg agrees] at returned
      rw [TxCall.key, TxCall.entryAfter, if_neg agrees]
      exact discard_of_ok returned

theorem TxCall.run_of_foreign
    (foreign : ¬ call.deletes cache (remote call.key) (tc.get? call.key) = true) :
    ∃ tc', call.run cache .ACTIVE remote tc = .error .foreignDelete tc' := by
  cases call with
  | plain call =>
    cases call with
    | op op =>
      have meets : ¬ op.deletes cache (remote op.key) (tc.get? op.key) = true := foreign
      have raise := Op.run_eq cache remote tc op
      rw [if_neg meets] at raise
      exact ⟨_, discard_of_error (bind_of_error raise)⟩
    | containsKey key => exact absurd rfl foreign
  | getWithVersion key => exact absurd rfl foreign
  | write key version w =>
    have raise := versionedWrite_eq cache remote tc key version w
    rw [TxCall.key, deletes_write_iff, Classical.not_imp] at foreign
    simp only [foreign, if_true] at raise
    exact ⟨_, discard_of_error raise⟩

end Run

/-! ### Writes between -/

def Wrote (cache : Handle V) (key : K) :
    List (Remote K V × TxCall K V) → TransactionContext K V → Prop
  | [], _ => False
  | (remote, call) :: rest, tc =>
    (call.key = key ∧ call.Stores cache (remote key) (tc.get? key)) ∨
      Wrote cache key rest (final (call.run cache .ACTIVE remote tc))

/-- Every call of the history finds an object to delete where it deletes one. -/
def Clean (cache : Handle V) : List (Remote K V × TxCall K V) → TransactionContext K V → Prop
  | [], _ => True
  | (remote, call) :: rest, tc =>
    call.deletes cache (remote call.key) (tc.get? call.key) = true ∧
      Clean cache rest (final (call.run cache .ACTIVE remote tc))

theorem runHistory_of_clean {cache : Handle V} {calls : List (Remote K V × TxCall K V)}
    {tc : TransactionContext K V} (clean : Clean cache calls tc) :
    ∃ tc', runHistory cache .ACTIVE calls tc = .ok () tc' := by
  induction calls generalizing tc with
  | nil => exact ⟨tc, rfl⟩
  | cons step rest ih =>
    obtain ⟨remote, call⟩ := step
    obtain ⟨deletes, later⟩ := clean
    have returned := TxCall.run_of_deletes deletes
    rw [returned, final_ok] at later
    obtain ⟨tc', done⟩ := ih later
    exact ⟨tc', by rw [runHistory, bind_of_ok returned, done]⟩

theorem runHistory_of_not_clean {cache : Handle V} {calls : List (Remote K V × TxCall K V)}
    {tc : TransactionContext K V} (foreign : ¬ Clean cache calls tc) :
    ∃ tc', runHistory cache .ACTIVE calls tc = .error .foreignDelete tc' := by
  induction calls generalizing tc with
  | nil => exact absurd trivial foreign
  | cons step rest ih =>
    obtain ⟨remote, call⟩ := step
    by_cases deletes : call.deletes cache (remote call.key) (tc.get? call.key) = true
    · have returned := TxCall.run_of_deletes deletes
      have later : ¬ Clean cache rest (final (call.run cache .ACTIVE remote tc)) :=
        fun clean => foreign ⟨deletes, clean⟩
      rw [returned, final_ok] at later
      obtain ⟨tc', raise⟩ := ih later
      exact ⟨tc', by rw [runHistory, bind_of_ok returned, raise]⟩
    · obtain ⟨tc', raise⟩ := TxCall.run_of_foreign deletes
      exact ⟨tc', by rw [runHistory, bind_of_error raise]⟩

-- Over a history an entry keeps its original version; it stays as it is until a write, and has the
-- next version from then on.
theorem history_keeps_version {cache : Handle V} {key : K}
    {calls : List (Remote K V × TxCall K V)} {tc tc' : TransactionContext K V}
    (clean : Clean cache calls tc) (returned : runHistory cache .ACTIVE calls tc = .ok () tc')
    {ce : ContextEntry V} (found : tc.get? key = some ce) :
    ∃ ce', tc'.get? key = some ce' ∧
      ce'.origMeta = ce.origMeta ∧ (¬ Wrote cache key calls tc → ce' = ce) ∧
      (Wrote cache key calls tc → ce'.metadata.version = ce.origMeta.version + 1) := by
  induction calls generalizing tc ce with
  | nil =>
    cases returned
    exact ⟨ce, found, rfl, fun _ => rfl, fun wrote => wrote.elim⟩
  | cons step rest ih =>
    obtain ⟨remote, call⟩ := step
    obtain ⟨deletes, clean⟩ := clean
    have first := TxCall.run_of_deletes deletes
    rw [runHistory, bind_of_ok first] at returned
    rw [first, final_ok] at clean
    rw [Wrote, first, final_ok]
    by_cases same : call.key = key
    · subst same
      have held := SortedMap.get?_insert_self tc call.key
        (call.entryAfter cache (remote call.key) (tc.get? call.key))
      obtain ⟨ce', after, orig, unwritten, written⟩ := ih clean returned held
      rw [found] at orig unwritten written ⊢
      by_cases stores : call.Stores cache (remote call.key) (some ce)
      · -- a later write starts from the original version again, not from the last one
        obtain ⟨origKept, versionSet⟩ := entryAfter_of_stores stores
        refine ⟨ce', after, orig.trans origKept, fun none => absurd (.inl ⟨rfl, stores⟩) none, ?_⟩
        intro _
        by_cases later : Wrote cache call.key rest
            (tc.insert call.key (call.entryAfter cache (remote call.key) (some ce)))
        · rw [written later, origKept]
        · rw [unwritten later, versionSet]
      · rw [entryAfter_of_not_stores stores] at orig unwritten written ⊢
        refine ⟨ce', after, orig, fun none => unwritten fun later => none (.inr later), ?_⟩
        rintro (⟨-, now⟩ | later)
        · exact absurd now stores
        · exact written later
    · have held : (tc.insert call.key (call.entryAfter cache (remote call.key)
          (tc.get? call.key))).get? key = some ce := by
        rw [SortedMap.get?_insert_of_ne _ _ (Ne.symm same), found]
      obtain ⟨ce', after, orig, unwritten, written⟩ := ih clean returned held
      refine ⟨ce', after, orig, fun none => unwritten fun later => none (.inr later), ?_⟩
      rintro (⟨here, -⟩ | later)
      · exact absurd here same
      · exact written later

/-- The calls in between return; a versioned write with the version that was reported
goes through if nobody has written the key since, and changes nothing if somebody has. -/
def VersionRespected (cache : Handle V) (key : K) (between : List (Remote K V × TxCall K V))
    (last : Remote K V) (w : VersionedWrite V) (version : Int) (tc : TransactionContext K V) :
    Prop :=
  ∃ tc', runHistory cache .ACTIVE between tc = .ok () tc' ∧
    (¬ Wrote cache key between tc →
      ∃ tc'', w.run cache .ACTIVE last key version tc' = .ok true tc'') ∧
    (Wrote cache key between tc → w.run cache .ACTIVE last key version tc' = .ok false tc')

theorem getWithVersion_eq_ok {cache : Handle V} {remote : Remote K V} {key : K}
    {tc tc' : TransactionContext K V} {value : V} {version : Int}
    (read : getWithVersion cache .ACTIVE remote key tc = .ok (some value, version) tc') :
    version = 0 ∧ ∃ ce, tc'.get? key = some ce ∧ visible ce = some value := by
  rw [getWithVersion, baseGetWithVersion,
    bind_of_ok (transactionalBaseGet_eq cache remote tc key)] at read
  injection read with result context
  injection result with shown reported
  subst context
  exact ⟨reported.symm, _, SortedMap.get?_insert_self _ _ _, shown⟩

theorem unwritten_accepted_iff {cache : Handle V} {last : Remote K V} {key : K}
    {w : VersionedWrite V} {tc : TransactionContext K V} {ce : ContextEntry V}
    (held : tc.get? key = some ce) {value : V} (shown : visible ce = some value) :
    (∃ tc', w.run cache .ACTIVE last key 0 tc = .ok true tc') ↔
      ce.metadata.version = 0 ∧ ce.deletable = true := by
  have agrees : Matches ce 0 ↔ ce.metadata.version = 0 := by simp [Matches, shown]
  have runs := versionedWrite_eq cache last tc key 0 w
  simp only [held, observed, Option.getD_some, agrees] at runs
  rw [runs]
  split
  · split <;> simp [*]
  · simp [*]

theorem written_refused_iff {cache : Handle V} {last : Remote K V} {key : K}
    {w : VersionedWrite V} {tc : TransactionContext K V} {ce : ContextEntry V}
    (held : tc.get? key = some ce) {original : Int} (next : ce.metadata.version = original + 1) :
    w.run cache .ACTIVE last key 0 tc = .ok false tc ↔ visible ce = none ∨ original ≠ -1 := by
  have misses : ¬ Matches ce 0 ↔ visible ce = none ∨ original ≠ -1 := by
    rw [Matches, next, not_and_or, Option.not_isSome_iff_eq_none]
    apply or_congr_right
    omega
  have runs := versionedWrite_eq cache last tc key 0 w
  simp only [held, observed, Option.getD_some] at runs
  rw [runs, ← misses, tc.insert_of_get? held]
  constructor
  · intro returned agrees
    rw [if_pos agrees] at returned
    split at returned <;> cases returned
  · intro differs
    rw [if_neg differs]

/-! ### Histories with addresses -/

def VersionedWrite.pointers : VersionedWrite A → VersionedWrite (Pointer A V)
  | .replace a life idle => .replace (.callers a) life idle
  | .remove => .remove

def TxCall.pointers (memory : A → V) : TxCall K A → TxCall K (Pointer A V)
  | .plain (.op op) => .plain (.op (op.pointers memory))
  | .plain (.containsKey key) => .plain (.containsKey key)
  | .getWithVersion key => .getWithVersion key
  | .write key version w => .write key version w.pointers

structure Moment (K A V : Type) where
  remote : Remote K V
  memory : A → V
  call : TxCall K A

def stored (moments : List (Moment K A V)) :
    List (Remote K (Pointer A V) × TxCall K (Pointer A V)) :=
  moments.map fun m => (m.remote.pointers, m.call.pointers m.memory)

/-- A history, and `getWithVersion` at its end. -/
def readAfter (cache : Handle (Pointer A V)) (before : List (Moment K A V)) (first : Remote K V)
    (key : K) : CacheM K (Pointer A V) (Option (Pointer A V) × Int) := do
  runHistory cache .ACTIVE (stored before)
  getWithVersion cache .ACTIVE first.pointers key

/-- The reported version is always 0. It is respected exactly when the calls in between
delete no object of the caller's, and: without a write in between, the context's version is
0 as well and the value is not the caller's; after one, the key was removed or the version
after the original one is not 0. -/
theorem version_respected_iff (force : Bool) (marshal : V → Except Exn Bytes) (atPrepare : A → V)
    (before between : List (Moment K A V)) (key : K) (first last : Remote K V)
    (w : VersionedWrite A) {value : Pointer A V} {version : Int}
    {tc : TransactionContext K (Pointer A V)}
    (read : readAfter (pointerHandle force marshal atPrepare) before first key SortedMap.empty =
      .ok (some value, version) tc) :
    VersionRespected (pointerHandle force marshal atPrepare) key (stored between) last.pointers
        w.pointers version tc ↔
      Clean (pointerHandle force marshal atPrepare) (stored between) tc ∧
        (¬ Wrote (pointerHandle force marshal atPrepare) key (stored between) tc →
          (entry tc key).metadata.version = 0 ∧ (entry tc key).deletable = true) ∧
        (Wrote (pointerHandle force marshal atPrepare) key (stored between) tc →
          visible (entry (final (runHistory (pointerHandle force marshal atPrepare) .ACTIVE
            (stored between) tc)) key) = none ∨ (entry tc key).origMeta.version ≠ -1) := by
  obtain ⟨_, middle, -, read⟩ := exists_of_bind read
  obtain ⟨rfl, ce, found, shown⟩ := getWithVersion_eq_ok read
  by_cases clean : Clean (pointerHandle force marshal atPrepare) (stored between) tc
  · obtain ⟨tc', returned⟩ := runHistory_of_clean clean
    obtain ⟨ce', after, -, unwritten, written⟩ := history_keeps_version clean returned found
    rw [VersionRespected, returned, final_ok, entry_of_get? found, entry_of_get? after,
      and_iff_right clean]
    have only : ∀ P : TransactionContext K (Pointer A V) → Prop,
        (∃ t, EStateM.Result.ok (ε := Fault) () tc' = .ok () t ∧ P t) ↔ P tc' := by simp
    rw [only]
    refine and_congr (imp_congr_right fun none => ?_) (imp_congr_right fun wrote => ?_)
    · rw [unwritten none] at after
      exact unwritten_accepted_iff after shown
    · exact written_refused_iff after (written wrote)
  · obtain ⟨tc', raise⟩ := runHistory_of_not_clean clean
    refine iff_of_false ?_ fun both => clean both.1
    rintro ⟨t, returned, -⟩
    rw [raise] at returned
    cases returned

def seventhVersion : Remote Nat Bytes := fun _ => some ([5], { version := 7 })

def bytesHandle : Handle (Pointer Unit Bytes) := pointerHandle false .ok fun _ => [1]

def afterSeventh : TransactionContext Nat (Pointer Unit Bytes) :=
  SortedMap.empty.insert 0 (readEntry bytesHandle (some (.copy [5], { version := 7 })))

theorem readAfter_seventh :
    readAfter bytesHandle [] seventhVersion 0 SortedMap.empty =
      .ok (some (.copy [5]), 0) afterSeventh := rfl

/-- With nothing in between, the write with the reported version fails. -/
theorem reported_version_refused :
    readAfter bytesHandle [] seventhVersion 0 SortedMap.empty =
        .ok (some (.copy [5]), 0) afterSeventh ∧
      ¬ VersionRespected bytesHandle 0 (stored []) seventhVersion.pointers .remove 0
        afterSeventh := by
  refine ⟨rfl, ?_⟩
  rintro ⟨tc', nothing, untouched, -⟩
  cases nothing
  obtain ⟨tc, removed⟩ := untouched id
  have refused : VersionedWrite.run bytesHandle .ACTIVE seventhVersion.pointers 0 0 .remove
      afterSeventh = .ok false afterSeventh := rfl
  rw [refused] at removed
  cases removed

theorem version_respected_seventh :
    VersionRespected bytesHandle 0 (stored []) seventhVersion.pointers .remove 0 afterSeventh ↔
      Clean bytesHandle (stored []) afterSeventh ∧
        (¬ Wrote bytesHandle 0 (stored []) afterSeventh →
          (entry afterSeventh 0).metadata.version = 0 ∧
            (entry afterSeventh 0).deletable = true) ∧
        (Wrote bytesHandle 0 (stored []) afterSeventh →
          visible (entry (final (runHistory bytesHandle .ACTIVE (stored []) afterSeventh)) 0) =
            none ∨ (entry afterSeventh 0).origMeta.version ≠ -1) :=
  version_respected_iff false .ok (fun _ => [1]) [] [] 0 seventhVersion seventhVersion .remove
    readAfter_seventh

end HotRod.Transactions
