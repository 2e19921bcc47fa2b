import HotRod.Transactions.Abstraction
import HotRod.Transactions.Pointers
import HotRod.Transactions.Verdicts

/-! One transaction over the handles a `RemoteCacheManager` gives out.

The manager keeps one handle for each cache name and `forceReturnValue` flag, and the
transaction one context for each handle. The results say when that comes to one
context for each cache. -/

set_option autoImplicit false

namespace HotRod.Transactions

open Semantics.Execution Semantics.Rounds TransactionRemoteStatus

variable {K A V : Type}

/-! ### Handles -/

def cacheKey (name : String) (forceReturnValue : Bool) : String :=
  if forceReturnValue then name ++ "/true" else name ++ "/false"

structure RemoteCacheManager where
  -- The `RemoteCache` objects are numbered in the order of their creation.
  remoteCacheMap : String → Option Nat := fun _ => none
  caches : List (String × Bool) := []

def RemoteCacheManager.getCache (m : RemoteCacheManager) (name : String) (force : Bool) :
    Nat × RemoteCacheManager :=
  match m.remoteCacheMap (cacheKey name force) with
  | some handle => (handle, m)
  | none => (m.caches.length,
      { remoteCacheMap :=
          Function.update m.remoteCacheMap (cacheKey name force) (some m.caches.length)
        caches := m.caches ++ [(name, force)] })

theorem cacheKey_injective {name name' : String} {force force' : Bool}
    (same : cacheKey name force = cacheKey name' force') : name = name' ∧ force = force' := by
  have chars := congrArg (fun key => key.toList.reverse) same
  cases force <;> cases force' <;> simp [cacheKey] at chars
  · exact ⟨String.toList_inj.mp chars, rfl⟩
  · exact ⟨String.toList_inj.mp chars, rfl⟩

/-! ### The transaction -/

/-- A call on a cache that the application names. -/
structure Use (K A V : Type) where
  cacheName : String
  force : Bool
  call : Call K A V

def through (name : String) (force : Bool) (uses : List (Use K A V)) : List (Call K A V) :=
  (uses.filter fun u => u.cacheName = name ∧ u.force = force).map Use.call

def onCache (name : String) (uses : List (Use K A V)) : List (Call K A V) :=
  (uses.filter fun u => u.cacheName = name).map Use.call

theorem through_snoc (name : String) (force : Bool) (past : List (Use K A V)) (u : Use K A V) :
    through name force (past ++ [u]) = through name force past ++
      if u.cacheName = name ∧ u.force = force then [u.call] else [] := by
  by_cases here : u.cacheName = name ∧ u.force = force
  · simp [through, List.filter_append, here]
  · simp only [if_neg here, List.append_nil]
    simp [through, List.filter_append, here]

/-- The application uses the cache through one of its handles only. -/
def OneHandle (name : String) (uses : List (Use K A V)) : Prop :=
  ∀ u ∈ uses, ∀ v ∈ uses, u.cacheName = name → v.cacheName = name → u.force = v.force

theorem OneHandle.through_eq {name : String} {uses past : List (Use K A V)}
    (one : OneHandle name uses) (subset : past ⊆ uses) {u : Use K A V} (member : u ∈ uses)
    (here : u.cacheName = name) : through name u.force past = onCache name past := by
  unfold through onCache
  congr 1
  apply List.filter_congr
  intro v earlier
  simp only [decide_eq_decide]
  exact and_iff_left_of_imp fun there => one v (subset earlier) u member there here

theorem getElem?_snoc_eq_some {A : Type} {l : List A} {a b : A} {i : Nat} :
    (l ++ [a])[i]? = some b ↔ l[i]? = some b ∨ i = l.length ∧ a = b := by
  rcases Nat.lt_trichotomy i l.length with before | rfl | after
  · simp [List.getElem?_append_left before, Nat.ne_of_lt before]
  · simp
  · have outside : (l ++ [a]).length ≤ i := by
      rw [List.length_append]
      exact after
    rw [List.getElem?_eq_none outside, List.getElem?_eq_none (Nat.le_of_lt after)]
    simp [Nat.ne_of_gt after]

/-- `registeredCache` of the transaction, with the manager that gives out its handles. -/
structure Contexts (K A V : Type) [LinearOrder K] where
  manager : RemoteCacheManager := {}
  registeredCache : SortedMap Nat (TransactionContext K (Pointer A V)) := SortedMap.empty

variable [LinearOrder K] (marshal : V → Except Exn Bytes) (atPrepare : A → V)

-- `registeredCache[cache]`.
def Contexts.getTransactionContext (s : Contexts K A V) (handle : Nat) :
    TransactionContext K (Pointer A V) :=
  (s.registeredCache.get? handle).getD SortedMap.empty

def Use.run (status : TransactionStatus) (u : Use K A V) :
    EStateM Fault (Contexts K A V) (Option V) := fun s =>
  let (handle, manager) := s.manager.getCache u.cacheName u.force
  let cache := pointerHandle u.force marshal atPrepare
  match u.call.run cache status (s.getTransactionContext handle) with
  | .ok result tc => .ok result { manager, registeredCache := s.registeredCache.insert handle tc }
  | .error e tc => .error e { manager, registeredCache := s.registeredCache.insert handle tc }

def runUses (status : TransactionStatus) :
    List (Use K A V) → EStateM Fault (Contexts K A V) (List (Option V))
  | [] => pure []
  | u :: rest => do
    let result ← u.run marshal atPrepare status
    let results ← runUses status rest
    pure (result :: results)

/-- The context is in step with the ledger, and the ledger can be read off it. -/
structure Stands (cache : Handle (Pointer A V)) (ledger : Ledger K (Pointer A V))
    (tc : TransactionContext K (Pointer A V)) : Prop where
  refines : Refines cache ledger tc
  shown : ledgerOf tc = ledger

/-- What the calls so far have made of the handles and their contexts. -/
structure Tracked (past : List (Use K A V)) (s : Contexts K A V) : Prop where
  listed : ∀ name force handle, s.manager.remoteCacheMap (cacheKey name force) = some handle ↔
    s.manager.caches[handle]? = some (name, force)
  used : ∀ name force, (∃ handle : Nat, s.manager.caches[handle]? = some (name, force)) ↔
    ∃ u ∈ past, u.cacheName = name ∧ u.force = force
  registered : ∀ handle, handle ∈ s.registeredCache ↔ handle < s.manager.caches.length
  ledger : ∀ (handle : Nat) name force, s.manager.caches[handle]? = some (name, force) →
    Stands (pointerHandle force marshal atPrepare)
      (Ledger.fresh.afterCalls (through name force past)).pointers (s.getTransactionContext handle)

variable {marshal atPrepare}

theorem tracked_fresh : Tracked marshal atPrepare [] ({} : Contexts K A V) where
  listed name force handle := by simp
  used name force := by simp
  registered handle := by simp
  ledger handle name force listed := by simp at listed

/-! ### One call -/

def Contexts.handle (s : Contexts K A V) (u : Use K A V) : Nat :=
  (s.manager.getCache u.cacheName u.force).1

def Contexts.put (s : Contexts K A V) (u : Use K A V) (tc : TransactionContext K (Pointer A V)) :
    Contexts K A V where
  manager := (s.manager.getCache u.cacheName u.force).2
  registeredCache := s.registeredCache.insert (s.handle u) tc

theorem Use.run_of_ok {u : Use K A V} {s : Contexts K A V} {result : Option V}
    {tc : TransactionContext K (Pointer A V)}
    (returned : u.call.run (pointerHandle u.force marshal atPrepare) .ACTIVE
      (s.getTransactionContext (s.handle u)) = .ok result tc) :
    u.run marshal atPrepare .ACTIVE s = .ok result (s.put u tc) := by
  simp only [Contexts.handle] at returned
  simp only [Use.run, returned]
  rfl

theorem Use.run_of_error {u : Use K A V} {s : Contexts K A V} {fault : Fault}
    {tc : TransactionContext K (Pointer A V)}
    (raise : u.call.run (pointerHandle u.force marshal atPrepare) .ACTIVE
      (s.getTransactionContext (s.handle u)) = .error fault tc) :
    u.run marshal atPrepare .ACTIVE s = .error fault (s.put u tc) := by
  simp only [Contexts.handle] at raise
  simp only [Use.run, raise]
  rfl

theorem afterCalls_snoc (ledger : Ledger K (Held A V)) (calls : List (Call K A V))
    (call : Call K A V) : ledger.afterCalls (calls ++ [call]) =
      (ledger.afterCalls calls).step call.remote.held call.held := by
  simp [Ledger.afterCalls]

theorem ledgerOf_callRun {cache : Handle (Pointer A V)} {call : Call K A V}
    {tc tc' : TransactionContext K (Pointer A V)} {result : Option V}
    (returned : call.run cache .ACTIVE tc = .ok result tc') : ledgerOf tc' =
      (ledgerOf tc).step call.remote.pointers (call.op.pointers call.memory) := by
  obtain ⟨pointer, middle, first, later⟩ := exists_of_bind returned
  cases later
  exact ledgerOf_run first

theorem context_put (s : Contexts K A V) (u : Use K A V) (tc : TransactionContext K (Pointer A V))
    (h : Nat) : (s.put u tc).getTransactionContext h =
      if h = s.handle u then tc else s.getTransactionContext h := by
  simp only [Contexts.getTransactionContext, Contexts.put, SortedMap.get?_insert]
  split <;> rfl

section Step

variable {past : List (Use K A V)} {s : Contexts K A V}

theorem Tracked.of_unknown (tracked : Tracked marshal atPrepare past s) {name : String}
    {force : Bool} (unknown : s.manager.remoteCacheMap (cacheKey name force) = none) :
    (∀ h : Nat, s.manager.caches[h]? ≠ some (name, force)) ∧ through name force past = [] := by
  have unlisted : ∀ h : Nat, s.manager.caches[h]? ≠ some (name, force) := by
    intro h found
    rw [← tracked.listed, unknown] at found
    cases found
  refine ⟨unlisted, ?_⟩
  have nobody : ∀ v ∈ past, ¬ (v.cacheName = name ∧ v.force = force) := by
    intro v member which
    obtain ⟨h, found⟩ := (tracked.used _ _).mpr ⟨v, member, which⟩
    exact unlisted h found
  simpa [through, List.filter_eq_nil_iff] using nobody

theorem Contexts.handle_of_known {u : Use K A V} {handle : Nat}
    (known : s.manager.remoteCacheMap (cacheKey u.cacheName u.force) = some handle) :
    s.manager.getCache u.cacheName u.force = (handle, s.manager) := by
  simp only [RemoteCacheManager.getCache, known]

theorem Contexts.handle_of_unknown {u : Use K A V}
    (unknown : s.manager.remoteCacheMap (cacheKey u.cacheName u.force) = none) :
    s.manager.getCache u.cacheName u.force = (s.manager.caches.length,
      { remoteCacheMap := Function.update s.manager.remoteCacheMap
          (cacheKey u.cacheName u.force) (some s.manager.caches.length)
        caches := s.manager.caches ++ [(u.cacheName, u.force)] }) := by
  simp only [RemoteCacheManager.getCache, unknown]

theorem Tracked.ledger_handle (tracked : Tracked marshal atPrepare past s) (u : Use K A V) :
    Stands (pointerHandle u.force marshal atPrepare)
      (Ledger.fresh.afterCalls (through u.cacheName u.force past)).pointers
      (s.getTransactionContext (s.handle u)) := by
  cases known : s.manager.remoteCacheMap (cacheKey u.cacheName u.force) with
  | some handle =>
    rw [Contexts.handle, Contexts.handle_of_known known]
    exact tracked.ledger handle _ _ ((tracked.listed _ _ _).mp known)
  | none =>
    have absent : s.manager.caches.length ∉ s.registeredCache := by
      rw [tracked.registered]
      exact Nat.lt_irrefl _
    rw [Contexts.handle, Contexts.handle_of_unknown known, (tracked.of_unknown known).2,
      Contexts.getTransactionContext, s.registeredCache.get?_eq_none.mpr absent]
    exact ⟨refines_fresh _, rfl⟩

theorem Tracked.put_known (tracked : Tracked marshal atPrepare past s) {u : Use K A V}
    {tc : TransactionContext K (Pointer A V)}
    (left : Stands (pointerHandle u.force marshal atPrepare)
      (Ledger.fresh.afterCalls (through u.cacheName u.force (past ++ [u]))).pointers tc)
    {handle : Nat}
    (known : s.manager.remoteCacheMap (cacheKey u.cacheName u.force) = some handle) :
    Tracked marshal atPrepare (past ++ [u]) (s.put u tc) := by
  have got := Contexts.handle_of_known known
  have here : s.handle u = handle := by rw [Contexts.handle, got]
  have same : (s.put u tc).manager = s.manager := by rw [Contexts.put, got]
  have listed := (tracked.listed u.cacheName u.force handle).mp known
  constructor
  · rw [same]
    exact tracked.listed
  · intro name force
    rw [same, tracked.used]
    constructor
    · rintro ⟨v, member, which⟩
      exact ⟨v, List.mem_append_left _ member, which⟩
    · rintro ⟨v, member, which⟩
      rcases List.mem_append.mp member with earlier | now
      · exact ⟨v, earlier, which⟩
      · rw [List.mem_singleton.mp now] at which
        exact (tracked.used name force).mp ⟨handle, by rw [listed, which.1, which.2]⟩
  · intro h
    rw [same, Contexts.put, here, SortedMap.mem_insert, tracked.registered]
    constructor
    · rintro (rfl | old)
      · exact (List.getElem?_eq_some_iff.mp listed).1
      · exact old
    · exact .inr
  · intro h name force found
    rw [same] at found
    rw [context_put, here]
    split
    · rename_i same
      rw [same, listed, Option.some.injEq, Prod.mk.injEq] at found
      obtain ⟨rfl, rfl⟩ := found
      exact left
    · rename_i other
      -- two handles of one name and flag would be entered under one key
      have elsewhere : ¬ (u.cacheName = name ∧ u.force = force) := by
        rintro ⟨rfl, rfl⟩
        have again := (tracked.listed _ _ h).mpr found
        rw [known, Option.some.injEq] at again
        exact other again.symm
      rw [through_snoc, if_neg elsewhere, List.append_nil]
      exact tracked.ledger h name force found

theorem Tracked.put_new (tracked : Tracked marshal atPrepare past s) {u : Use K A V}
    {tc : TransactionContext K (Pointer A V)}
    (left : Stands (pointerHandle u.force marshal atPrepare)
      (Ledger.fresh.afterCalls (through u.cacheName u.force (past ++ [u]))).pointers tc)
    (unknown : s.manager.remoteCacheMap (cacheKey u.cacheName u.force) = none) :
    Tracked marshal atPrepare (past ++ [u]) (s.put u tc) := by
  have got := Contexts.handle_of_unknown unknown
  have here : s.handle u = s.manager.caches.length := by rw [Contexts.handle, got]
  have unlisted := (tracked.of_unknown unknown).1
  constructor
  · intro name force h
    rw [Contexts.put, got, getElem?_snoc_eq_some, ← tracked.listed, Prod.mk.injEq]
    by_cases same : u.cacheName = name ∧ u.force = force
    · obtain ⟨rfl, rfl⟩ := same
      simp [unknown, eq_comm]
    · -- the key ends in the flag, so it gives both back
      have other : cacheKey name force ≠ cacheKey u.cacheName u.force := by
        intro clash
        obtain ⟨rfl, rfl⟩ := cacheKey_injective clash
        exact same ⟨rfl, rfl⟩
      simp [Function.update_of_ne other, same]
  · intro name force
    rw [Contexts.put, got]
    simp only [getElem?_snoc_eq_some, exists_or, tracked.used, List.mem_append, List.mem_singleton,
      or_and_right, Prod.mk.injEq]
    apply or_congr_right
    constructor
    · rintro ⟨h, -, which⟩
      exact ⟨u, rfl, which⟩
    · rintro ⟨v, rfl, which⟩
      exact ⟨_, rfl, which⟩
  · intro h
    rw [Contexts.put, got, here, SortedMap.mem_insert, tracked.registered, List.length_append,
      List.length_singleton]
    omega
  · intro h name force found
    rw [Contexts.put, got] at found
    rw [context_put, here]
    rcases getElem?_snoc_eq_some.mp found with earlier | ⟨rfl, now⟩
    · have inside := (List.getElem?_eq_some_iff.mp earlier).1
      have elsewhere : ¬ (u.cacheName = name ∧ u.force = force) := by
        rintro ⟨rfl, rfl⟩
        exact unlisted h earlier
      rw [if_neg (Nat.ne_of_lt inside), through_snoc, if_neg elsewhere, List.append_nil]
      exact tracked.ledger h name force earlier
    · injection now with sameName sameFlag
      subst sameName sameFlag
      rw [if_pos rfl]
      exact left

/-- What the handle of a call holds for its key. -/
def Use.content (past : List (Use K A V)) (u : Use K A V) : Option (Held A V) :=
  (Ledger.fresh.afterCalls (through u.cacheName u.force past) u.call.op.key).content

theorem Tracked.step (tracked : Tracked marshal atPrepare past s) {u : Use K A V}
    (spares : u.call.Spares (u.content past)) :
    ∃ s', u.run marshal atPrepare .ACTIVE s = .ok ((u.call.op.answer u.force
          ((((Ledger.fresh.afterCalls (through u.cacheName u.force past) u.call.op.key).observe
            ((u.call.remote.held u.call.op.key).map Prod.fst)).content).map Held.pointer)).map
              (Pointer.read u.call.memory)) s' ∧
      Tracked marshal atPrepare (past ++ [u]) s' := by
  have before := tracked.ledger_handle u
  obtain ⟨tc, returned, refines⟩ := Call.run_refines before.refines spares
  have left := Stands.mk refines (by
    rw [ledgerOf_callRun returned, before.shown, Ledger.pointers_step])
  rw [← afterCalls_snoc] at left
  have grown : through u.cacheName u.force (past ++ [u]) =
      through u.cacheName u.force past ++ [u.call] := by
    rw [through_snoc, if_pos ⟨rfl, rfl⟩]
  rw [← grown] at left
  refine ⟨_, Use.run_of_ok returned, ?_⟩
  cases known : s.manager.remoteCacheMap (cacheKey u.cacheName u.force) with
  | none => exact tracked.put_new left known
  | some handle => exact tracked.put_known left known

theorem Tracked.step_foreign (tracked : Tracked marshal atPrepare past s) {u : Use K A V}
    (foreign : ¬ u.call.Spares (u.content past)) :
    ∃ s', u.run marshal atPrepare .ACTIVE s = .error .foreignDelete s' := by
  obtain ⟨tc, raise⟩ := Call.run_foreign (tracked.ledger_handle u).refines foreign
  exact ⟨_, Use.run_of_error raise⟩

end Step

/-- No call on any cache writes over an object that a `replace` through its handle has
left with the caller. -/
def SparedFrom (past : List (Use K A V)) : List (Use K A V) → Prop
  | [] => True
  | u :: rest => u.call.Spares (u.content past) ∧ SparedFrom (past ++ [u]) rest

-- The calls of a whole transaction keep handles and contexts in step.
theorem Tracked.run {past : List (Use K A V)} {s : Contexts K A V}
    (tracked : Tracked marshal atPrepare past s) {uses : List (Use K A V)}
    (spared : SparedFrom past uses) :
    ∃ results s', runUses marshal atPrepare .ACTIVE uses s = .ok results s' ∧
      Tracked marshal atPrepare (past ++ uses) s' := by
  induction uses generalizing past s with
  | nil => exact ⟨[], s, rfl, by rwa [List.append_nil]⟩
  | cons u rest ih =>
    obtain ⟨middle, first, tracked'⟩ := tracked.step spared.1
    obtain ⟨results, s', later, done⟩ := ih tracked' spared.2
    rw [List.append_assoc] at done
    exact ⟨_, s', by rw [runUses, bind_of_ok first, bind_of_ok later, pure_apply], done⟩

theorem Tracked.run_foreign {past : List (Use K A V)} {s : Contexts K A V}
    (tracked : Tracked marshal atPrepare past s) {uses : List (Use K A V)}
    (foreign : ¬ SparedFrom past uses) :
    ∃ s', runUses marshal atPrepare .ACTIVE uses s = .error .foreignDelete s' := by
  induction uses generalizing past s with
  | nil => exact absurd trivial foreign
  | cons u rest ih =>
    by_cases spares : u.call.Spares (u.content past)
    · obtain ⟨middle, first, tracked'⟩ := tracked.step spares
      obtain ⟨s', raise⟩ := ih tracked' fun spared => foreign ⟨spares, spared⟩
      exact ⟨s', by rw [runUses, bind_of_ok first, bind_of_error raise]⟩
    · obtain ⟨s', raise⟩ := tracked.step_foreign spares
      exact ⟨s', by rw [runUses, bind_of_error raise]⟩

/-! ### PREPARE -/

theorem trail_accepting {C : Type} (phase : Phase) (cs : List C) :
    trail (answering (fun _ => XA_OK) phase) refuses cs = cs.map fun c => (c, some XA_OK) := by
  induction cs with
  | nil => rfl
  | cons c rest ih =>
    have goes : refuses XA_OK = false := by decide
    simp only [trail, answering, goes, Bool.false_eq_true, if_false, List.map_cons]
    exact congrArg _ ih

theorem filter_record {C : Type} (phase phase' : Phase) (xid : XID)
    (sent : List (C × Option UInt32)) :
    (record phase xid sent).filter (fun x => x.phase = phase') =
      if phase = phase' then record phase xid sent else [] := by
  split
  · rename_i same
    apply List.filter_eq_self.mpr
    intro x member
    simpa using (mem_record.mp member).1.trans same
  · rename_i other
    apply List.filter_eq_nil_iff.mpr
    intro x member
    rw [(mem_record.mp member).1]
    simpa using other

theorem prepares_commit {C X : Type} [LinearOrder C] (process : Process X) (servers : Servers C)
    (fresh : XID) {t : Transaction C X} (active : t.status = .ACTIVE) :
    (final (commit process servers fresh ⟨some t, []⟩)).log.filter (fun x => x.phase = .prepare) =
      record .prepare t.xid (voteTrail servers t) := by
  obtain ⟨undone, log⟩ := log_commit process servers fresh active
  simp [log, attemptLog, List.filter_append, filter_record]

def Contexts.transaction (s : Contexts K A V) (xid : XID) :
    Transaction Nat (TransactionContext K (Pointer A V)) where
  status := .ACTIVE
  xid := xid
  registeredCache := s.registeredCache

/-- The PREPARE requests `commit` sends a cache, when all caches accept. -/
def Contexts.prepares (image : Image) (s : Contexts K A V) (xid fresh : XID) (name : String) :
    List (Exchange Nat) :=
  ((final (commit { image, clears := TransactionContext.clears } (answering fun _ => XA_OK) fresh
      ⟨some (s.transaction xid), []⟩)).log.filter fun x => x.phase = .prepare).filter
    fun x => (s.manager.caches[x.cache]?).map Prod.fst = some name

def Contexts.handlesOf (s : Contexts K A V) (name : String) : List Nat :=
  s.registeredCache.keys.filter fun h => (s.manager.caches[h]?).map Prod.fst = some name

theorem prepares_eq (image : Image) (s : Contexts K A V) (xid fresh : XID) (name : String) :
    s.prepares image xid fresh name = (s.handlesOf name).map fun h =>
      { phase := .prepare, xid, cache := h, reply := some XA_OK } := by
  have active : (s.transaction xid).status = .ACTIVE := rfl
  rw [Contexts.prepares, prepares_commit _ _ fresh active, voteTrail, trail_accepting, record,
    List.map_map, List.filter_map]
  rfl

theorem Tracked.mem_handlesOf {past : List (Use K A V)} {s : Contexts K A V}
    (tracked : Tracked marshal atPrepare past s) {name : String} {h : Nat} :
    h ∈ s.handlesOf name ↔ ∃ force, s.manager.caches[h]? = some (name, force) := by
  have registered : h ∈ s.registeredCache.keys ↔ h < s.manager.caches.length :=
    tracked.registered h
  simp only [Contexts.handlesOf, List.mem_filter, registered, decide_eq_true_eq,
    Option.map_eq_some_iff, Prod.exists]
  constructor
  · rintro ⟨-, name', force, found, rfl⟩
    exact ⟨force, found⟩
  · rintro ⟨force, found⟩
    exact ⟨(List.getElem?_eq_some_iff.mp found).1, name, force, found, rfl⟩

theorem handlesOf_nodup (s : Contexts K A V) (name : String) : (s.handlesOf name).Nodup :=
  s.registeredCache.keys_nodup.filter _

/-! ### One context -/

def Used (name : String) (uses : List (Use K A V)) : Prop := ∃ u ∈ uses, u.cacheName = name

/-- What was written last to a key of the cache, through any of its handles. -/
def WroteLast (name : String) (uses : List (Use K A V)) (key : K)
    (content : Option (Held A V)) : Prop :=
  Ledger.fresh.afterCalls (onCache name uses) key = .wrote content

/-- What holds of every get on the cache that comes after a write to its key, given the
calls before it and what was written. -/
def EveryGet (name : String) (uses : List (Use K A V))
    (holds : List (Use K A V) → Use K A V → Option (Held A V) → Prop) : Prop :=
  ∀ past u rest key content, uses = past ++ u :: rest → u.cacheName = name →
    u.call.op = .get key → WroteLast name past key content → holds past u content

/-- A get returns what was written through any handle of the cache. -/
def SeesWrites (marshal : V → Except Exn Bytes) (atPrepare : A → V) (name : String)
    (uses : List (Use K A V)) : Prop :=
  EveryGet name uses fun past u content =>
    ∃ s, u.run marshal atPrepare .ACTIVE (final (runUses marshal atPrepare .ACTIVE past {})) =
      .ok (content.map Held.value) s

/-- `commit` sends the cache one PREPARE, from a context whose entries lead to all that
was written to it. -/
def PreparesOnce (image : Image) (atPrepare : A → V) (s : Contexts K A V) (xid fresh : XID)
    (name : String) (uses : List (Use K A V)) : Prop :=
  ∃ x, s.prepares image xid fresh name = [x] ∧ ∀ key content, WroteLast name uses key content →
    ∃ pointer, ledgerOf (s.getTransactionContext x.cache) key = .wrote pointer ∧
      pointer.map (Pointer.read atPrepare) = content.map Held.value

/-- The calls return, and the cache has one context in the transaction. -/
def OneContext (image : Image) (marshal : V → Except Exn Bytes) (atPrepare : A → V)
    (xid fresh : XID) (name : String) (uses : List (Use K A V)) : Prop :=
  ∃ results s, runUses marshal atPrepare .ACTIVE uses {} = .ok results s ∧
    SeesWrites marshal atPrepare name uses ∧ PreparesOnce image atPrepare s xid fresh name uses

/-- The caller's objects that are read, by a get or by PREPARE, are as they were lent. -/
def Undisturbed (atPrepare : A → V) (name : String) (uses : List (Use K A V)) : Prop :=
  EveryGet name uses (fun _ u content => Unmoved u.call.memory content) ∧
    ∀ key content, WroteLast name uses key content → Unmoved atPrepare content

theorem OneHandle.handlesOf_eq {name : String} {uses : List (Use K A V)} {s : Contexts K A V}
    (one : OneHandle name uses) (tracked : Tracked marshal atPrepare uses s) {u : Use K A V}
    (member : u ∈ uses) (here : u.cacheName = name) {h : Nat}
    (found : s.manager.caches[h]? = some (name, u.force)) : s.handlesOf name = [h] := by
  have only : ∀ a ∈ s.handlesOf name, a = h := by
    intro a listed
    obtain ⟨force, found'⟩ := tracked.mem_handlesOf.mp listed
    obtain ⟨v, member', there, rfl⟩ := (tracked.used name force).mp ⟨a, found'⟩
    rw [one v member' u member there here, ← tracked.listed] at found'
    rw [← tracked.listed, found', Option.some.injEq] at found
    exact found
  have listed : h ∈ s.handlesOf name := tracked.mem_handlesOf.mpr ⟨_, found⟩
  -- a list of one handle over and over, without duplicates
  have single := List.eq_replicate_of_mem only
  have distinct := handlesOf_nodup s name
  rw [single, List.nodup_replicate] at distinct
  have length : (s.handlesOf name).length = 1 :=
    Nat.le_antisymm distinct (List.length_pos_of_mem listed)
  rw [single, length]
  rfl

-- Two handles would be two entries of `registeredCache`, with a PREPARE each.
theorem PreparesOnce.oneHandle {image : Image} {name : String} {uses : List (Use K A V)}
    {s : Contexts K A V} {xid fresh : XID}
    (once : PreparesOnce image atPrepare s xid fresh name uses)
    (tracked : Tracked marshal atPrepare uses s) : OneHandle name uses := by
  intro u member v member' here there
  obtain ⟨x, single, -⟩ := once
  obtain ⟨h, found⟩ := (tracked.used name u.force).mpr ⟨u, member, here, rfl⟩
  obtain ⟨h', found'⟩ := (tracked.used name v.force).mpr ⟨v, member', there, rfl⟩
  rw [prepares_eq, List.map_eq_singleton_iff] at single
  obtain ⟨a, handles, -⟩ := single
  have first : h ∈ [a] := handles ▸ tracked.mem_handlesOf.mpr ⟨_, found⟩
  have second : h' ∈ [a] := handles ▸ tracked.mem_handlesOf.mpr ⟨_, found'⟩
  rw [List.mem_singleton.mp first, ← List.mem_singleton.mp second, found', Option.some.injEq,
    Prod.mk.injEq] at found
  exact found.2.symm

theorem SparedFrom.of_append {past before after : List (Use K A V)}
    (spared : SparedFrom past (before ++ after)) : SparedFrom past before := by
  induction before generalizing past with
  | nil => trivial
  | cons u rest ih => exact ⟨spared.1, ih spared.2⟩

theorem get_iff {past : List (Use K A V)} (spared : SparedFrom [] past) {u : Use K A V}
    {key : K} (get : u.call.op = .get key) {content : Option (Held A V)}
    (wrote : Ledger.fresh.afterCalls (through u.cacheName u.force past) key = .wrote content) :
    (∃ s, u.run marshal atPrepare .ACTIVE
        (final (runUses marshal atPrepare .ACTIVE past {})) = .ok (content.map Held.value) s) ↔
      Unmoved u.call.memory content := by
  obtain ⟨results, middle, ran, tracked⟩ := tracked_fresh.run spared
  rw [List.nil_append] at tracked
  have spares : u.call.Spares (u.content past) := by
    intro writes
    rw [get] at writes
    cases writes
  obtain ⟨s, returned, -⟩ := tracked.step spares
  rw [get, Op.key, wrote] at returned
  rw [ran, final_ok, returned, ← read_pointers_iff]
  constructor
  · rintro ⟨s', same⟩
    injection same
  · intro same
    exact ⟨s, congrArg (EStateM.Result.ok · s) same⟩

theorem OneHandle.preparesOnce_iff {name : String} {uses : List (Use K A V)}
    {s : Contexts K A V} (one : OneHandle name uses) (tracked : Tracked marshal atPrepare uses s)
    (used : Used name uses) (image : Image) (xid fresh : XID) :
    PreparesOnce image atPrepare s xid fresh name uses ↔
      ∀ key content, WroteLast name uses key content → Unmoved atPrepare content := by
  obtain ⟨u, member, here⟩ := used
  obtain ⟨h, found⟩ := (tracked.used name u.force).mpr ⟨u, member, here, rfl⟩
  have only := one.handlesOf_eq tracked member here found
  have ledger := (tracked.ledger h name u.force found).shown
  rw [one.through_eq (List.Subset.refl _) member here] at ledger
  have reads : ∀ {key content}, WroteLast name uses key content →
      ledgerOf (s.getTransactionContext h) key = .wrote (content.map Held.pointer) := by
    intro key content wrote
    rw [ledger, Ledger.pointers, wrote]
    rfl
  constructor
  · rintro ⟨x, single, carried⟩ key content wrote
    rw [prepares_eq, only] at single
    cases single
    obtain ⟨pointer, held, same⟩ := carried key content wrote
    rw [reads wrote] at held
    cases held
    exact (read_pointers_iff _ _).mp same
  · intro unmoved
    refine ⟨_, by rw [prepares_eq, only]; rfl, ?_⟩
    intro key content wrote
    exact ⟨_, reads wrote, (read_pointers_iff _ _).mpr (unmoved key content wrote)⟩

/-- A cache has one context exactly when one handle of it is used, no caller's object is
deleted by a write, and the objects that are read are as they were lent: the contexts
belong to handles, and hold the pointers of `replace`. -/
theorem one_context_iff (image : Image) (marshal : V → Except Exn Bytes) (atPrepare : A → V)
    (xid fresh : XID) (name : String) (uses : List (Use K A V)) :
    (Used name uses → OneContext image marshal atPrepare xid fresh name uses) ↔
      (Used name uses → OneHandle name uses ∧ SparedFrom [] uses ∧
        Undisturbed atPrepare name uses) := by
  refine imp_congr_right fun used => ?_
  constructor
  · rintro ⟨results, s, returned, sees, once⟩
    have spared : SparedFrom [] uses := by
      by_contra foreign
      obtain ⟨s', raise⟩ := tracked_fresh.run_foreign foreign
      rw [raise] at returned
      cases returned
    obtain ⟨results', s', returned', tracked⟩ := tracked_fresh.run spared
    rw [returned] at returned'
    cases returned'
    have one := once.oneHandle tracked
    refine ⟨one, spared, ?_, (one.preparesOnce_iff tracked used image xid fresh).mp once⟩
    rintro past u rest key content rfl rfl get wrote
    have shown := sees past u rest key content rfl rfl get wrote
    rw [WroteLast, ← one.through_eq (List.subset_append_left _ _) (by simp) rfl] at wrote
    exact (get_iff spared.of_append get wrote).mp shown
  · rintro ⟨one, spared, unmoved, still⟩
    obtain ⟨results, s, returned, tracked⟩ := tracked_fresh.run spared
    refine ⟨results, s, returned, ?_,
      (one.preparesOnce_iff tracked used image xid fresh).mpr still⟩
    rintro past u rest key content rfl rfl get wrote
    have lent := unmoved past u rest key content rfl rfl get wrote
    rw [WroteLast, ← one.through_eq (List.subset_append_left _ _) (by simp) rfl] at wrote
    exact (get_iff spared.of_append get wrote).mpr lent

-- A write through one handle of a cache, and a get through the other.
def twoHandles : List (Use Nat Unit Bytes) :=
  [{ cacheName := "accounts", force := true
     call := { remote := fun _ => none, memory := fun _ => [1], op := .put 0 () 0 0 } },
    { cacheName := "accounts", force := false
      call := { remote := fun _ => none, memory := fun _ => [1], op := .get 0 } }]

/-- The get does not see the write. -/
theorem write_unseen_through_other_handle :
    ¬ (Used "accounts" twoHandles → OneContext onePage .ok (fun _ => [1]) ⟨[1], [2]⟩ ⟨[3], [4]⟩
      "accounts" twoHandles) := by
  intro promised
  obtain ⟨results, s, -, sees, -⟩ := promised ⟨twoHandles[0], List.mem_cons_self, rfl⟩
  obtain ⟨s', got⟩ := sees [twoHandles[0]] twoHandles[1] [] 0 (some { value := [1] })
    rfl rfl rfl rfl
  have missed : Use.run .ok (fun _ => [1]) .ACTIVE twoHandles[1]
      (final (runUses .ok (fun _ => [1]) .ACTIVE [twoHandles[0]] {})) = .ok none _ := rfl
  rw [missed] at got
  cases got

end HotRod.Transactions
