import HotRod.Operations.Commands
import HotRod.Semantics.Transition
import HotRod.Transactions.Handles
import Mathlib.Data.String.Basic

/-! The caches that a `RemoteCacheManager` gives out, over its starts and its stops.

The manager has two maps of them, an outer one that `removeCache` erases from, and an inner
one that nothing is erased from. The results say which transport factory the requests of a
cache go to, when two calls of `getCache` give the same cache, and how often a name is
checked. -/

set_option autoImplicit false

namespace HotRod.Manager

open Semantics.Transition
open HotRod.Operations (PingResult)
open HotRod.Transactions (cacheKey cacheKey_injective)

/-! ### Caches -/

structure OperationsFactory where
  -- Transport factories are numbered as they are made, and 0 is no factory.
  transportFactory : Nat
  cacheName : String
  forceReturnValue : Bool
  deriving DecidableEq, Repr

structure RemoteCacheImpl where
  -- `near` if it is a `NearRemoteCacheImpl`.
  name : String
  near : Bool
  operationsFactory : OperationsFactory
  deriving DecidableEq, Repr

/-- The `RemoteCacheImpl` objects are numbered as they are made. `pings` has the names and
flags for which a server has answered `createRemoteCache`. -/
structure RemoteCacheManager where
  nearCaching : Bool := false
  started : Bool := false
  transportFactory : Nat := 0
  caches : List RemoteCacheImpl := []
  cacheName2RemoteCache : SortedMap String (Nat × Bool) := SortedMap.empty
  remoteCacheMap : SortedMap String Nat := SortedMap.empty
  pings : List (String × Bool) := []
  deriving DecidableEq

-- The name as `c_str()` hands it on.
def cString (name : String) : String := String.ofList (name.toList.takeWhile (· ≠ '\x00'))

namespace RemoteCacheManager

def newOperationsFactory (m : RemoteCacheManager) (name : String) (force : Bool) :
    OperationsFactory := ⟨m.transportFactory, name, force⟩

-- `init` of the cache with a new `OperationsFactory`.
def startRemoteCache (m : RemoteCacheManager) (cache : Nat) (force : Bool) : RemoteCacheManager :=
  { m with
    caches := m.caches.modify cache fun impl =>
      { impl with operationsFactory := m.newOperationsFactory impl.name force } }

def startRemoteCaches : List (String × Nat × Bool) → RemoteCacheManager → RemoteCacheManager
  | [], m => m
  | (_, cache, force) :: rest, m => startRemoteCaches rest (m.startRemoteCache cache force)

def newTransportFactory (m : RemoteCacheManager) : RemoteCacheManager :=
  { m with transportFactory := m.transportFactory + 1 }

-- `raised` is the number of caches it has started when an exception ends it.
def start (raised : Option Nat) (m : RemoteCacheManager) : RemoteCacheManager :=
  if m.started then m else
    match raised with
    | none =>
      { startRemoteCaches m.cacheName2RemoteCache.entries m.newTransportFactory with
        started := true }
    | some n => startRemoteCaches (m.cacheName2RemoteCache.entries.take n) m.newTransportFactory

def stop (m : RemoteCacheManager) : RemoteCacheManager := { m with started := false }

structure Attempt where
  initialised : Option Exn
  pinged : Except Exn PingResult

-- No server is asked for the default cache, or where there is no transport factory.
def pinging (m : RemoteCacheManager) (name : String) : Bool :=
  name ≠ "" ∧ m.transportFactory ≠ 0

/-- `ping` never gives `CACHE_DOES_NOT_EXIST`, and the cache is kept whatever it gives. -/
def createRemoteCache (name : String) (force near : Bool) (attempt : Attempt)
    (m : RemoteCacheManager) : Except Exn Nat × RemoteCacheManager :=
  match m.cacheName2RemoteCache.get? (cacheKey name force) with
  | some (cache, _) => (.ok cache, m)
  | none =>
    match if near then attempt.initialised else none with
    | some e => (.error e, m)
    | none =>
      match if m.pinging name then attempt.pinged else .ok .fail with
      | .error e => (.error e, m)
      | .ok _ => (.ok m.caches.length,
          { m with
            caches := m.caches ++ [⟨name, near, m.newOperationsFactory name force⟩]
            cacheName2RemoteCache :=
              m.cacheName2RemoteCache.insert (cacheKey name force) (m.caches.length, force)
            pings := if m.pinging name then m.pings ++ [(name, force)] else m.pings })

-- `configured` for the variants that pass the near cache configuration on.
def getCache (name : String) (force configured : Bool) (attempt : Attempt)
    (m : RemoteCacheManager) : Except Exn Nat × RemoteCacheManager :=
  match m.remoteCacheMap.get? (cacheKey name force) with
  | some cache => (.ok cache, m)
  | none =>
    match m.createRemoteCache (cString name) force (configured && m.nearCaching) attempt with
    | (.error e, t) => (.error e, t)
    | (.ok cache, t) =>
      (.ok cache, { t with remoteCacheMap := t.remoteCacheMap.insert (cacheKey name force) cache })

-- `new RemoteCacheImpl(*impl)`, never a near cache.
def cloneImplWithDataFormat (impl : RemoteCacheImpl) (m : RemoteCacheManager) :
    RemoteCacheManager := { m with caches := m.caches ++ [{ impl with near := false }] }

def removeFromMap (name : String) (m : RemoteCacheManager) : RemoteCacheManager :=
  { m with remoteCacheMap := (m.remoteCacheMap.erase (name ++ "/false")).erase (name ++ "/true") }

end RemoteCacheManager

/-! ### Runs -/

open RemoteCacheManager

inductive Event where
  | start (raised : Option Nat)
  | stop
  | getCache (name : String) (force configured : Bool) (attempt : Attempt)
  | withDataFormat (cache : Nat)
  | removeCache (name : String)

def step (m : RemoteCacheManager) : Event → Option RemoteCacheManager
  | .start raised => some (m.start raised)
  | .stop => some m.stop
  | .getCache name force configured attempt => some (m.getCache name force configured attempt).2
  | .withDataFormat cache => (m.caches[cache]?).map fun impl => m.cloneImplWithDataFormat impl
  | .removeCache name => some (m.removeFromMap name)

/-! ### What a step does -/

section Steps

variable {m : RemoteCacheManager}

theorem startRemoteCaches_caches (listed : List (String × Nat × Bool)) (m : RemoteCacheManager) :
    startRemoteCaches listed m = { m with caches := (startRemoteCaches listed m).caches } := by
  induction listed generalizing m with
  | nil => rfl
  | cons entry rest ih =>
    rw [startRemoteCaches, ih]
    rfl

theorem getElem?_startRemoteCaches {listed : List (String × Nat × Bool)} {cache : Nat}
    {impl : RemoteCacheImpl} {force : Bool} (known : m.caches[cache]? = some impl)
    (flags : ∀ e ∈ listed, e.2.1 = cache → e.2.2 = force) :
    (startRemoteCaches listed m).caches[cache]? =
      some (if ∃ e ∈ listed, e.2.1 = cache then
        { impl with operationsFactory := m.newOperationsFactory impl.name force } else impl) := by
  induction listed generalizing m impl with
  | nil => simpa [startRemoteCaches] using known
  | cons entry rest ih =>
    obtain ⟨key, other, flag⟩ := entry
    have later : ∀ e ∈ rest, e.2.1 = cache → e.2.2 = force := fun e member =>
      flags e (List.mem_cons_of_mem _ member)
    rw [startRemoteCaches]
    by_cases same : other = cache
    · have first : flag = force := flags _ List.mem_cons_self same
      subst same first
      have renewed : (m.startRemoteCache other flag).caches[other]? = some
          { impl with operationsFactory := m.newOperationsFactory impl.name flag } := by
        simp [startRemoteCache, known]
      have here : ∃ e ∈ (key, other, flag) :: rest, e.2.1 = other :=
        ⟨(key, other, flag), List.mem_cons_self, rfl⟩
      rw [ih renewed later, if_pos here]
      congr 1
      exact ite_self _
    · have left : (m.startRemoteCache other flag).caches[cache]? = some impl := by
        simp [startRemoteCache, same, known]
      rw [ih left later]
      simp only [List.mem_cons, exists_eq_or_imp, same, false_or]
      rfl

theorem older_startRemoteCaches (listed : List (String × Nat × Bool))
    (older : ∀ (cache : Nat) impl, m.caches[cache]? = some impl →
      impl.operationsFactory.transportFactory ≤ m.transportFactory) (cache : Nat)
    (impl : RemoteCacheImpl) (known : (startRemoteCaches listed m).caches[cache]? = some impl) :
    impl.operationsFactory.transportFactory ≤ m.transportFactory := by
  induction listed generalizing m with
  | nil => exact older cache impl known
  | cons entry rest ih =>
    refine ih (m := m.startRemoteCache entry.2.1 entry.2.2) ?_ known
    intro other impl' known'
    rw [startRemoteCache, List.getElem?_modify] at known'
    obtain ⟨before, found, same⟩ := Option.map_eq_some_iff.mp known'
    split at same
    · subst same
      exact le_rfl
    · subst same
      exact older other before found

-- The cache is known, its name fails, it is found in the inner map, or it is made.
theorem getCache_cases (name : String) (force configured : Bool) (attempt : Attempt)
    (m : RemoteCacheManager) :
    (∃ cache, m.remoteCacheMap.get? (cacheKey name force) = some cache ∧
        m.getCache name force configured attempt = (.ok cache, m)) ∨
      (∃ e, m.cacheName2RemoteCache.get? (cacheKey (cString name) force) = none ∧
        m.getCache name force configured attempt = (.error e, m)) ∨
      (∃ cache flag,
        m.cacheName2RemoteCache.get? (cacheKey (cString name) force) = some (cache, flag) ∧
        m.getCache name force configured attempt = (.ok cache,
          { m with remoteCacheMap := m.remoteCacheMap.insert (cacheKey name force) cache })) ∨
      (m.cacheName2RemoteCache.get? (cacheKey (cString name) force) = none ∧
        m.getCache name force configured attempt = (.ok m.caches.length,
          { m with
            caches := m.caches ++ [⟨cString name, configured && m.nearCaching,
              m.newOperationsFactory (cString name) force⟩]
            cacheName2RemoteCache := m.cacheName2RemoteCache.insert
              (cacheKey (cString name) force) (m.caches.length, force)
            remoteCacheMap := m.remoteCacheMap.insert (cacheKey name force) m.caches.length
            pings := if m.pinging (cString name) then m.pings ++ [(cString name, force)]
              else m.pings })) := by
  cases outer : m.remoteCacheMap.get? (cacheKey name force) with
  | some cache => exact .inl ⟨cache, rfl, by rw [getCache, outer]⟩
  | none =>
    rw [getCache, outer]
    refine .inr ?_
    cases inner : m.cacheName2RemoteCache.get? (cacheKey (cString name) force) with
    | some entry =>
      refine .inr (.inl ⟨entry.1, entry.2, rfl, ?_⟩)
      simp only [createRemoteCache, inner]
    | none =>
      rw [createRemoteCache, inner]
      cases if configured && m.nearCaching then attempt.initialised else none with
      | some e => exact .inl ⟨e, rfl, rfl⟩
      | none =>
        cases if m.pinging (cString name) then attempt.pinged else .ok .fail with
        | error e => exact .inl ⟨e, rfl, rfl⟩
        | ok result => exact .inr (.inr ⟨rfl, rfl⟩)

/-! ### What every step keeps -/

def Managed (m : RemoteCacheManager) (cache : Nat) : Prop :=
  ∃ key force, m.cacheName2RemoteCache.get? key = some (cache, force)

/-- A copy of a cache that had the factory of that time is not given a later one. -/
structure Grows (m t : RemoteCacheManager) : Prop where
  factories : m.transportFactory ≤ t.transportFactory
  listed : ∀ key entry, m.cacheName2RemoteCache.get? key = some entry →
    t.cacheName2RemoteCache.get? key = some entry
  kept : ∀ (cache : Nat) impl, m.caches[cache]? = some impl → ∃ impl',
    t.caches[cache]? = some impl' ∧ impl'.name = impl.name ∧ impl'.near = impl.near
  unmanaged : ∀ (cache : Nat) impl, m.caches[cache]? = some impl → ¬ Managed m cache →
    t.caches[cache]? = some impl ∧ ¬ Managed t cache

namespace Grows

theorem refl (m : RemoteCacheManager) : Grows m m where
  factories := le_rfl
  listed _ _ found := found
  kept _ impl found := ⟨impl, found, rfl, rfl⟩
  unmanaged _ _ found unmanaged := ⟨found, unmanaged⟩

theorem trans {t u : RemoteCacheManager} (first : Grows m t) (second : Grows t u) :
    Grows m u where
  factories := first.factories.trans second.factories
  listed key entry found := second.listed key entry (first.listed key entry found)
  kept cache impl found := by
    obtain ⟨impl', found', name', near'⟩ := first.kept cache impl found
    obtain ⟨impl'', found'', name'', near''⟩ := second.kept cache impl' found'
    exact ⟨impl'', found'', name''.trans name', near''.trans near'⟩
  unmanaged cache impl found unmanaged := by
    obtain ⟨found', unmanaged'⟩ := first.unmanaged cache impl found unmanaged
    exact second.unmanaged cache impl found' unmanaged'

end Grows

/-- The inner map finds a cache of the name and flag; the caches it finds have the factory
of a started manager, and no cache has a later one. -/
structure Consistent (m : RemoteCacheManager) : Prop where
  entry : ∀ key cache force, m.cacheName2RemoteCache.get? key = some (cache, force) →
    ∃ name near factory, key = cacheKey name force ∧
      m.caches[cache]? = some ⟨name, near, factory, name, force⟩ ∧
      (m.started = true → factory = m.transportFactory)
  older : ∀ (cache : Nat) impl, m.caches[cache]? = some impl →
    impl.operationsFactory.transportFactory ≤ m.transportFactory
  outer : ∀ key cache, m.remoteCacheMap.get? key = some cache → ∃ name force,
    key = cacheKey name force ∧
      m.cacheName2RemoteCache.get? (cacheKey (cString name) force) = some (cache, force)
  asked : m.pings.Nodup
  kept : ∀ name force, (name, force) ∈ m.pings →
    ∃ cache, m.cacheName2RemoteCache.get? (cacheKey name force) = some (cache, force)

theorem consistent_initial (nearCaching : Bool) : Consistent { nearCaching } where
  entry _ _ _ found := by cases found
  older _ _ found := by cases found
  outer _ _ found := by cases found
  asked := List.nodup_nil
  kept _ _ member := by cases member

namespace Consistent

theorem flag {name : String} {force force' : Bool} {cache : Nat} (good : Consistent m)
    (found : m.cacheName2RemoteCache.get? (cacheKey name force) = some (cache, force')) :
    force' = force := by
  obtain ⟨name', _, _, same, _⟩ := good.entry _ _ _ found
  exact (cacheKey_injective same).2.symm

theorem key_unique {key key' : String} {force force' : Bool} {cache : Nat} (good : Consistent m)
    (found : m.cacheName2RemoteCache.get? key = some (cache, force))
    (found' : m.cacheName2RemoteCache.get? key' = some (cache, force')) :
    key = key' ∧ force = force' := by
  obtain ⟨name, near, factory, rfl, impl, _⟩ := good.entry _ _ _ found
  obtain ⟨name', near', factory', rfl, impl', _⟩ := good.entry _ _ _ found'
  rw [impl] at impl'
  cases impl'
  exact ⟨rfl, rfl⟩

end Consistent

theorem start_cases (raised : Option Nat) (m : RemoteCacheManager) :
    m.start raised = m ∨ ∃ listed done,
      (∀ e ∈ listed, m.cacheName2RemoteCache.get? e.1 = some e.2) ∧
      (done = true → ∀ key entry, m.cacheName2RemoteCache.get? key = some entry →
        (key, entry) ∈ listed) ∧
      m.start raised = { m with
        transportFactory := m.transportFactory + 1
        started := done
        caches := (startRemoteCaches listed m.newTransportFactory).caches } := by
  unfold RemoteCacheManager.start
  by_cases running : m.started = true
  · exact .inl (if_pos running)
  · rw [if_neg running]
    refine .inr ?_
    cases raised with
    | none =>
      refine ⟨m.cacheName2RemoteCache.entries, true, ?_, ?_, ?_⟩
      · intro e member
        exact (m.cacheName2RemoteCache.get?_eq_some).mpr member
      · intro _ key entry found
        exact (m.cacheName2RemoteCache.get?_eq_some).mp found
      · exact congrArg (fun t : RemoteCacheManager => { t with started := true })
          (startRemoteCaches_caches _ m.newTransportFactory)
    | some n =>
      refine ⟨m.cacheName2RemoteCache.entries.take n, m.started, ?_, ?_, ?_⟩
      · intro e member
        exact (m.cacheName2RemoteCache.get?_eq_some).mpr (List.mem_of_mem_take member)
      · intro started
        exact absurd started running
      · exact startRemoteCaches_caches _ m.newTransportFactory

section Start

variable {listed : List (String × Nat × Bool)}
  (inMap : ∀ e ∈ listed, m.cacheName2RemoteCache.get? e.1 = some e.2)

include inMap

theorem Consistent.started (good : Consistent m) {name : String} {cache : Nat} {force : Bool}
    (found : m.cacheName2RemoteCache.get? (cacheKey name force) = some (cache, force)) :
    ∃ near factory, m.caches[cache]? = some ⟨name, near, factory, name, force⟩ ∧
      (startRemoteCaches listed m.newTransportFactory).caches[cache]? = some ⟨name, near,
        if ∃ e ∈ listed, e.2.1 = cache then m.transportFactory + 1 else factory, name, force⟩ := by
  obtain ⟨name', near, factory, same, impl, _⟩ := good.entry _ _ _ found
  obtain ⟨rfl, -⟩ := cacheKey_injective same
  refine ⟨near, factory, impl, ?_⟩
  rw [getElem?_startRemoteCaches (m := m.newTransportFactory) impl]
  · split <;> rfl
  · rintro ⟨key, cache', force'⟩ member rfl
    exact (good.key_unique (inMap _ member) found).2

theorem unmanaged_started {cache : Nat} {impl : RemoteCacheImpl}
    (known : m.caches[cache]? = some impl) (unmanaged : ¬ Managed m cache) :
    (startRemoteCaches listed m.newTransportFactory).caches[cache]? = some impl := by
  have unlisted : ∀ e ∈ listed, e.2.1 ≠ cache := by
    rintro ⟨key, cache', force⟩ member rfl
    exact unmanaged ⟨key, force, inMap _ member⟩
  have flags : ∀ e ∈ listed, e.2.1 = cache → e.2.2 = false := fun e member same =>
    absurd same (unlisted e member)
  rw [getElem?_startRemoteCaches (m := m.newTransportFactory) known flags, if_neg]
  rintro ⟨e, member, same⟩
  exact unlisted e member same

end Start

theorem Consistent.start_grows (good : Consistent m) (raised : Option Nat) :
    Grows m (m.start raised) := by
  obtain same | ⟨listed, done, inMap, all, same⟩ := start_cases raised m
  · rw [same]
    exact Grows.refl m
  rw [same]
  refine ⟨Nat.le_succ _, fun _ _ found => found, ?_, ?_⟩
  · intro cache impl known
    by_cases managed : Managed m cache
    · obtain ⟨key, force, found⟩ := managed
      obtain ⟨name, _, _, rfl, _⟩ := good.entry _ _ _ found
      obtain ⟨near, factory, before, after⟩ := good.started inMap found
      rw [known] at before
      cases before
      exact ⟨_, after, rfl, rfl⟩
    · exact ⟨impl, unmanaged_started inMap known managed, rfl, rfl⟩
  · intro cache impl known unmanaged
    exact ⟨unmanaged_started inMap known unmanaged, unmanaged⟩

theorem Consistent.start (good : Consistent m) (raised : Option Nat) :
    Consistent (m.start raised) := by
  obtain same | ⟨listed, done, inMap, all, same⟩ := start_cases raised m
  · rw [same]
    exact good
  rw [same]
  refine ⟨?_, ?_, good.outer, good.asked, good.kept⟩
  · intro key cache force found
    obtain ⟨name, _, _, rfl, _⟩ := good.entry _ _ _ found
    obtain ⟨near, factory, _, after⟩ := good.started inMap found
    refine ⟨name, near, _, rfl, after, ?_⟩
    intro running
    exact if_pos ⟨_, all running _ _ found, rfl⟩
  · refine older_startRemoteCaches listed (m := m.newTransportFactory) ?_
    intro cache impl known
    exact (good.older cache impl known).trans (Nat.le_succ _)

theorem getCache_grows (name : String) (force configured : Bool) (attempt : Attempt)
    (m : RemoteCacheManager) : Grows m (m.getCache name force configured attempt).2 := by
  obtain ⟨cache, _, same⟩ | ⟨e, _, same⟩ | ⟨cache, flag, _, same⟩ | ⟨fresh, same⟩ :=
    getCache_cases name force configured attempt m <;> rw [same]
  · exact Grows.refl m
  · exact Grows.refl m
  · exact { Grows.refl m with }
  · refine ⟨le_rfl, ?_, ?_, ?_⟩
    · intro key entry found
      rw [SortedMap.get?_insert_of_ne _ _ ?_, found]
      rintro rfl
      rw [fresh] at found
      cases found
    · intro cache impl known
      exact ⟨impl, List.getElem?_append_left (List.getElem?_eq_some_iff.mp known).1 ▸ known,
        rfl, rfl⟩
    · intro cache impl known unmanaged
      have bound := (List.getElem?_eq_some_iff.mp known).1
      refine ⟨List.getElem?_append_left bound ▸ known, ?_⟩
      rintro ⟨key, flag, found⟩
      rw [SortedMap.get?_insert] at found
      split at found
      · cases found
        exact Nat.lt_irrefl _ bound
      · exact unmanaged ⟨key, flag, found⟩

theorem Consistent.asked_once (good : Consistent m) {name : String} {force : Bool}
    (fresh : m.cacheName2RemoteCache.get? (cacheKey name force) = none) (ping : Bool) :
    (if ping then m.pings ++ [(name, force)] else m.pings).Nodup := by
  split
  · refine List.nodup_append.mpr ⟨good.asked, List.nodup_singleton _, ?_⟩
    rintro asked member other made rfl
    cases List.mem_singleton.mp made
    obtain ⟨cache, found⟩ := good.kept _ _ member
    rw [fresh] at found
    cases found
  · exact good.asked

theorem Consistent.getCache (good : Consistent m) (name : String) (force configured : Bool)
    (attempt : Attempt) : Consistent (m.getCache name force configured attempt).2 := by
  have grows := getCache_grows name force configured attempt m
  obtain ⟨cache, _, same⟩ | ⟨e, _, same⟩ | ⟨cache, flag, found, same⟩ | ⟨fresh, same⟩ :=
    getCache_cases name force configured attempt m <;> rw [same]
  · exact good
  · exact good
  · obtain rfl := good.flag found
    refine { good with outer := ?_ }
    intro key other listed
    rw [SortedMap.get?_insert] at listed
    split at listed
    · rename_i here
      cases listed
      exact ⟨name, flag, here, found⟩
    · exact good.outer key other listed
  · rw [same] at grows
    refine ⟨?_, ?_, ?_, ?_, ?_⟩
    · intro key cache flag found
      rw [SortedMap.get?_insert] at found
      split at found
      · rename_i here
        cases found
        exact ⟨cString name, configured && m.nearCaching, m.transportFactory, here,
          by simp [newOperationsFactory], fun _ => rfl⟩
      · obtain ⟨name', near, factory, here, impl, current⟩ := good.entry _ _ _ found
        exact ⟨name', near, factory, here,
          List.getElem?_append_left (List.getElem?_eq_some_iff.mp impl).1 ▸ impl, current⟩
    · intro cache impl known
      rcases List.mem_append.mp (List.mem_of_getElem? known) with before | made
      · obtain ⟨other, known'⟩ := List.mem_iff_getElem?.mp before
        exact good.older other impl known'
      · rw [List.mem_singleton.mp made]
        exact le_rfl
    · intro key cache listed
      rw [SortedMap.get?_insert] at listed
      split at listed
      · rename_i here
        cases listed
        exact ⟨name, force, here, SortedMap.get?_insert_self _ _ _⟩
      · obtain ⟨name', force', here, found⟩ := good.outer key cache listed
        exact ⟨name', force', here, grows.listed _ _ found⟩
    · exact good.asked_once fresh _
    · intro name' force' member
      dsimp only at member
      split at member
      · rcases List.mem_append.mp member with before | made
        · obtain ⟨cache, found⟩ := good.kept _ _ before
          exact ⟨cache, grows.listed _ _ found⟩
        · cases List.mem_singleton.mp made
          exact ⟨_, SortedMap.get?_insert_self _ _ _⟩
      · obtain ⟨cache, found⟩ := good.kept _ _ member
        exact ⟨cache, grows.listed _ _ found⟩

theorem Consistent.clone (good : Consistent m) {cache : Nat} {impl : RemoteCacheImpl}
    (known : m.caches[cache]? = some impl) : Consistent (m.cloneImplWithDataFormat impl) where
  entry key other force found := by
    obtain ⟨name, near, factory, here, impl', current⟩ := good.entry _ _ _ found
    exact ⟨name, near, factory, here,
      List.getElem?_append_left (List.getElem?_eq_some_iff.mp impl').1 ▸ impl', current⟩
  older other impl' known' := by
    rcases List.mem_append.mp (List.mem_of_getElem? known') with before | made
    · obtain ⟨place, found⟩ := List.mem_iff_getElem?.mp before
      exact good.older place impl' found
    · rw [List.mem_singleton.mp made]
      exact good.older cache impl known
  outer := good.outer
  asked := good.asked
  kept := good.kept

theorem clone_grows (impl : RemoteCacheImpl) (m : RemoteCacheManager) :
    Grows m (m.cloneImplWithDataFormat impl) where
  factories := le_rfl
  listed _ _ found := found
  kept _ impl' known :=
    ⟨impl', List.getElem?_append_left (List.getElem?_eq_some_iff.mp known).1 ▸ known, rfl, rfl⟩
  unmanaged _ _ known unmanaged :=
    ⟨List.getElem?_append_left (List.getElem?_eq_some_iff.mp known).1 ▸ known, unmanaged⟩

theorem Consistent.removeFromMap (good : Consistent m) (name : String) :
    Consistent (m.removeFromMap name) := by
  refine { good with outer := ?_ }
  intro key cache found
  rw [RemoteCacheManager.removeFromMap, SortedMap.get?_erase, SortedMap.get?_erase] at found
  split at found
  · cases found
  · split at found
    · cases found
    · exact good.outer key cache found

theorem Consistent.next {t : RemoteCacheManager} {e : Event} (good : Consistent m)
    (taken : step m e = some t) : Consistent t ∧ Grows m t := by
  cases e with
  | start raised =>
    cases taken
    exact ⟨good.start raised, good.start_grows raised⟩
  | stop =>
    cases taken
    refine ⟨{ good with entry := ?_ }, { Grows.refl m with }⟩
    intro key cache force found
    obtain ⟨name, near, factory, here, impl, _⟩ := good.entry _ _ _ found
    exact ⟨name, near, factory, here, impl, fun running => Bool.noConfusion running⟩
  | getCache name force configured attempt =>
    cases taken
    exact ⟨good.getCache name force configured attempt,
      getCache_grows name force configured attempt m⟩
  | withDataFormat cache =>
    obtain ⟨impl, known, rfl⟩ := Option.map_eq_some_iff.mp taken
    exact ⟨good.clone known, clone_grows impl m⟩
  | removeCache name =>
    cases taken
    exact ⟨good.removeFromMap name, { Grows.refl m with }⟩

theorem Consistent.after {t : RemoteCacheManager} {events : List Event} (good : Consistent m)
    (taken : run step m events = some t) : Consistent t ∧ Grows m t := by
  refine run_invariant_of_step (fun t => Consistent t ∧ Grows m t) ⟨good, Grows.refl m⟩ ?_ taken
  intro middle e last both next
  have later := both.1.next next
  exact ⟨later.1, both.2.trans later.2⟩

end Steps

/-! ### Transport factories -/

def Reachable (m : RemoteCacheManager) : Prop :=
  ∃ nearCaching events, run step { nearCaching } events = some m

theorem Reachable.consistent {m : RemoteCacheManager} (reachable : Reachable m) :
    Consistent m := by
  obtain ⟨nearCaching, events, taken⟩ := reachable
  exact ((consistent_initial nearCaching).after taken).1

def transportFactoryOf (m : RemoteCacheManager) (cache : Nat) : Option Nat :=
  (m.caches[cache]?).map fun impl => impl.operationsFactory.transportFactory

/-- In a started manager, requests through a cache that `getCache` has given out go to the
transport factory of the manager. Those through a copy for a data format do exactly as
long as no transport factory has been made since they did. -/
theorem transportFactoryOf_eq_iff {m t : RemoteCacheManager} {events : List Event} {cache : Nat}
    (reachable : Reachable m) (known : cache < m.caches.length)
    (taken : run step m events = some t) (running : t.started = true) :
    transportFactoryOf t cache = some t.transportFactory ↔
      Managed m cache ∨ transportFactoryOf m cache = some m.transportFactory ∧
        t.transportFactory = m.transportFactory := by
  obtain ⟨good, grows⟩ := reachable.consistent.after taken
  have found : m.caches[cache]? = some m.caches[cache] := List.getElem?_eq_getElem known
  by_cases managed : Managed m cache
  · refine iff_of_true ?_ (.inl managed)
    obtain ⟨key, force, listed⟩ := managed
    obtain ⟨name, near, factory, _, impl, current⟩ := good.entry _ _ _ (grows.listed _ _ listed)
    rw [transportFactoryOf, impl, current running]
    rfl
  · obtain ⟨impl, _⟩ := grows.unmanaged cache _ found managed
    have older := reachable.consistent.older cache _ found
    have later := grows.factories
    rw [transportFactoryOf, transportFactoryOf, impl, found, Option.map_some, Option.some_inj,
      Option.some_inj, or_iff_right managed]
    omega

def copied : RemoteCacheManager where
  started := true
  transportFactory := 1
  caches := [⟨"a", false, 1, "a", true⟩, ⟨"a", false, 1, "a", true⟩]
  cacheName2RemoteCache := SortedMap.empty.insert "a/true" (0, true)
  remoteCacheMap := SortedMap.empty.insert "a/true" 0
  pings := [("a", true)]

def restarted : RemoteCacheManager :=
  { copied with
    transportFactory := 2
    caches := [⟨"a", false, 2, "a", true⟩, ⟨"a", false, 1, "a", true⟩] }

theorem reachable_copied : Reachable copied :=
  ⟨false, [.start none, .getCache "a" true false ⟨none, .ok .success⟩, .withDataFormat 0],
    by decide +kernel⟩

theorem transportFactoryOf_restarted :
    transportFactoryOf restarted 0 = some 2 ∧ transportFactoryOf restarted 1 ≠ some 2 := by
  have taken : run step copied [.stop, .start none] = some restarted := by decide +kernel
  constructor
  · refine (transportFactoryOf_eq_iff reachable_copied (by decide) taken rfl).mpr (.inl ?_)
    exact ⟨"a/true", true, SortedMap.get?_insert_self _ _ _⟩
  · intro kept
    obtain ⟨key, force, found⟩ | ⟨_, same⟩ :=
      (transportFactoryOf_eq_iff reachable_copied (by decide) taken rfl).mp kept
    · cases List.mem_singleton.mp ((SortedMap.get?_eq_some _).mp found)
    · cases same

/-! ### The same cache -/

section Same

variable {m s t : RemoteCacheManager} {name : String} {force configured : Bool}
  {attempt : Attempt} {cache : Nat}

theorem Consistent.listed_of_getCache (good : Consistent m)
    (got : m.getCache name force configured attempt = (.ok cache, s)) :
    s.cacheName2RemoteCache.get? (cacheKey (cString name) force) = some (cache, force) := by
  obtain ⟨known, outer, same⟩ | ⟨e, _, same⟩ | ⟨known, flag, found, same⟩ | ⟨fresh, same⟩ :=
    getCache_cases name force configured attempt m <;> rw [got] at same <;> cases same
  · obtain ⟨name', force', here, found⟩ := good.outer _ _ outer
    obtain ⟨rfl, rfl⟩ := cacheKey_injective here
    exact found
  · obtain rfl := good.flag found
    exact found
  · exact SortedMap.get?_insert_self _ _ _

/-- Two calls of `getCache` give the same `RemoteCacheImpl`, whatever is started, stopped or
removed between them, exactly if they give the flag and the name up to its first NUL alike; it
then stays the near cache that it is, or stays none. The `RemoteCache` around it has the whole
name as its key, and `removeCache` destroys that. -/
theorem getCache_eq_iff {name' : String} {force' configured' : Bool} {attempt' : Attempt}
    {cache' : Nat} {u : RemoteCacheManager} {events : List Event} (reachable : Reachable m)
    (first : m.getCache name force configured attempt = (.ok cache, s))
    (between : run step s events = some t)
    (second : t.getCache name' force' configured' attempt' = (.ok cache', u)) :
    (cache = cache' ↔ cString name = cString name' ∧ force = force') ∧
      ∀ impl, s.caches[cache]? = some impl → ∃ impl', u.caches[cache]? = some impl' ∧
        impl'.name = impl.name ∧ impl'.near = impl.near := by
  have good : Consistent s := by
    have made := reachable.consistent.getCache name force configured attempt
    rwa [first] at made
  obtain ⟨goodAfter, grows⟩ := good.after between
  have goodLast : Consistent u := by
    have made := goodAfter.getCache name' force' configured' attempt'
    rwa [second] at made
  have growsLast : Grows t u := by
    have made := getCache_grows name' force' configured' attempt' t
    rwa [second] at made
  have both := grows.trans growsLast
  have here := both.listed _ _ (reachable.consistent.listed_of_getCache first)
  have there := goodAfter.listed_of_getCache second
  refine ⟨?_, both.kept cache⟩
  constructor
  · rintro rfl
    obtain ⟨sameKey, sameForce⟩ := goodLast.key_unique here there
    exact ⟨(cacheKey_injective sameKey).1, sameForce⟩
  · rintro ⟨sameName, rfl⟩
    rw [sameName, there] at here
    cases here
    rfl

theorem getCache_removed :
    ∃ cache u, (copied.removeFromMap "a").getCache "a" true false ⟨none, .ok .fail⟩ =
      (.ok cache, u) ∧ 0 = cache := by
  refine ⟨0, _, rfl, ?_⟩
  have found : copied.getCache "a" true false ⟨none, .ok .success⟩ = (.ok 0, copied) := rfl
  have removed : run step copied [.removeCache "a"] = some (copied.removeFromMap "a") := rfl
  have again : (copied.removeFromMap "a").getCache "a" true false ⟨none, .ok .fail⟩ = (.ok 0, _) :=
    rfl
  exact (getCache_eq_iff reachable_copied found removed again).1.mpr ⟨rfl, rfl⟩

/-- A server answers for a name and flag once. From then on `getCache` gives the same cache
for it, whatever the answer was and whatever happens to the manager. -/
theorem pings_nodup (reachable : Reachable m) :
    m.pings.Nodup ∧ ∀ name force, (cString name, force) ∈ m.pings → ∃ cache,
      ∀ events t, run step m events = some t → ∀ configured attempt,
        (t.getCache name force configured attempt).1 = .ok cache ∧
          (t.getCache name force configured attempt).2.pings = t.pings := by
  refine ⟨reachable.consistent.asked, ?_⟩
  intro name force asked
  obtain ⟨cache, found⟩ := reachable.consistent.kept _ _ asked
  refine ⟨cache, ?_⟩
  intro events t taken configured attempt
  obtain ⟨good, grows⟩ := reachable.consistent.after taken
  have still := grows.listed _ _ found
  obtain ⟨known, outer, same⟩ | ⟨e, fresh, same⟩ | ⟨known, flag, listed, same⟩ | ⟨fresh, same⟩ :=
    getCache_cases name force configured attempt t
  · obtain ⟨name', force', here, listed⟩ := good.outer _ _ outer
    obtain ⟨rfl, rfl⟩ := cacheKey_injective here
    rw [still] at listed
    cases listed
    rw [same]
    exact ⟨rfl, rfl⟩
  · rw [still] at fresh
    cases fresh
  · rw [still] at listed
    cases listed
    rw [same]
    exact ⟨rfl, rfl⟩
  · rw [still] at fresh
    cases fresh

theorem pings_nodup_copied :
    ((copied.removeFromMap "a").getCache "a" true false ⟨none, .ok .fail⟩).2.pings =
      [("a", true)] := by
  obtain ⟨cache, kept⟩ := (pings_nodup reachable_copied).2 "a" true (by decide +kernel)
  exact (kept [.removeCache "a"] _ rfl false ⟨none, .ok .fail⟩).2

end Same

end HotRod.Manager
