import HotRod.Semantics.Transition
import HotRod.Topology.TransportFactory

/-! The three views of the cluster: the keys of the pool, the servers of the
balancer and the list of the topology. -/

set_option autoImplicit false

namespace HotRod.Topology

open Semantics.Execution Semantics.Transition HotRod.Transport

variable {N K : Type} [LinearOrder N] [LinearOrder K]

/-- A server that stays is listed at least as often as before, and one that goes was
listed once. -/
def Proper (before after : List K) : Prop :=
  ∀ k, before.count k ≤ max 1 (after.count k)

/-- The views agree, with at most one connection lent. -/
structure Agree (lent : Option (K × Conn)) (s : TransportFactory N K) : Prop where
  balanced : ∀ k, k ∈ s.balancer.servers ↔ k ∈ s.initialServers
  resting : Resting (· ∈ s.initialServers) (if lent.isSome then 1 else 0) [] s.connectionPool
  held : ∀ k obj, lent = some (k, obj) → obj ∈ s.connectionPool.busyItems k

variable {s : TransportFactory N K} {A : Type} (config : Configuration)

def poolSet (s : TransportFactory N K) (connectionPool : ConnectionPool K) :
    TransportFactory N K :=
  { s with connectionPool }

theorem onPool_meets {call : PoolM K A} {post : A → ConnectionPool K → Prop}
    {fail : Fault → ConnectionPool K → Prop} (meets : Meets (call s.connectionPool) post fail) :
    Meets (onPool call s) (fun a t => ∃ pool, t = poolSet s pool ∧ post a pool)
      (fun e t => ∃ pool, t = poolSet s pool ∧ fail e pool) := by
  unfold onPool
  cases result : call s.connectionPool with
  | ok a pool =>
    rw [result] at meets
    exact ⟨pool, rfl, meets⟩
  | error e pool =>
    rw [result] at meets
    exact ⟨pool, rfl, meets⟩

/-! ### Servers that come and go -/

variable {keys : K → Prop} {active : Int}

theorem addServers_resting (resting : Resting keys active [] s.connectionPool) (added : List K) :
    Meets (addServers config added s)
      (fun _ t => ∃ pool, t = poolSet s pool ∧
        Resting (fun k => k ∈ added ∨ keys k) active [] pool ∧
        ∀ k, pool.busyItems k = s.connectionPool.busyItems k)
      (fun _ t => ∃ pool, t = poolSet s pool) := by
  induction added generalizing s keys with
  | nil => exact ⟨s.connectionPool, rfl, by simpa using resting, fun _ => rfl⟩
  | cons server rest ih =>
    have first := onPool_meets (s := s) ((addObject_resting config resting server).and
      (addObject_opens config server s.connectionPool))
    refine (first.mono (fun _ _ => id) fun _ t => ?_).bind ?_
    · rintro ⟨pool, rfl, -⟩
      exact ⟨pool, rfl⟩
    rintro - t ⟨pool, rfl, added_resting, opens⟩
    refine (ih (s := poolSet s pool) added_resting).mono (fun _ t => ?_) fun _ t => ?_
    · rintro ⟨pool', rfl, all_resting, same'⟩
      refine ⟨pool', rfl, ?_, fun k => (same' k).trans (opens.busyItems k)⟩
      refine { all_resting with keys := fun k => (all_resting.keys k).trans ?_ }
      rw [List.mem_cons]
      tauto
    · rintro ⟨pool', rfl⟩
      exact ⟨pool', rfl⟩

theorem removeServers_resting (resting : Resting keys active [] s.connectionPool)
    {failed : List K} (once : failed.Nodup) (known : ∀ k ∈ failed, keys k) :
    Meets (removeServers failed s)
      (fun _ t => ∃ pool, t = poolSet s pool ∧
        Resting (fun k => k ∉ failed ∧ keys k) active [] pool ∧
        ∀ k, pool.busyItems k = s.connectionPool.busyItems k)
      (fun _ _ => False) := by
  induction failed generalizing s keys with
  | nil => exact ⟨s.connectionPool, rfl, by simpa using resting, fun _ => rfl⟩
  | cons server rest ih =>
    obtain ⟨fresh, once⟩ := List.nodup_cons.mp once
    have first := onPool_meets (s := s) ((clear_resting resting
      (known server List.mem_cons_self)).and (clear_busyItems server s.connectionPool))
    refine (first.mono (fun _ _ => id) fun _ t => ?_).bind ?_
    · rintro ⟨pool, -, no, -⟩
      exact no
    rintro - t ⟨pool, rfl, removed, same⟩
    -- a second removal of the same server would find no queue
    have others : ∀ k ∈ rest, k ≠ server ∧ keys k := fun k member =>
      ⟨fun here => fresh (here ▸ member), known k (List.mem_cons_of_mem _ member)⟩
    refine (ih (s := poolSet s pool) removed once others).mono (fun _ t => ?_) fun _ _ => id
    rintro ⟨pool', rfl, all_removed, same'⟩
    refine ⟨pool', rfl, ?_, fun k => (same' k).trans (same k)⟩
    refine { all_removed with keys := fun k => (all_removed.keys k).trans ?_ }
    rw [List.mem_cons]
    tauto

theorem proper_of_nodup {before : List K} (once : before.Nodup) (after : List K) :
    Proper before after :=
  fun k => (List.nodup_iff_count_le_one.mp once k).trans (le_max_left _ _)

theorem count_sort (servers : List K) (k : K) : (sort servers).count k = servers.count k :=
  (List.perm_insertionSort _ servers).count_eq k

theorem sorted_sort (servers : List K) : (sort servers).Pairwise (· ≤ ·) :=
  List.pairwise_insertionSort _ servers

theorem mem_sort {servers : List K} {k : K} : k ∈ sort servers ↔ k ∈ servers :=
  List.mem_insertionSort _

-- What is added and what is removed, by how often a server is listed.
theorem mem_difference (first second : List K) (k : K) :
    k ∈ setDifference (sort first) (sort second) ↔ second.count k < first.count k := by
  rw [mem_setDifference (sorted_sort first) (sorted_sort second), count_sort, count_sort]

theorem Proper.nodup {before after : List K} (proper : Proper before after) :
    (setDifference (sort before) (sort after)).Nodup := by
  rw [List.nodup_iff_count_le_one]
  intro k
  rw [count_setDifference (sorted_sort before) (sorted_sort after), count_sort, count_sort]
  have listed := proper k
  omega

theorem Proper.keys_iff {before after : List K} (proper : Proper before after) (k : K) :
    k ∉ setDifference (sort before) (sort after) ∧
      (k ∈ setDifference (sort after) (sort before) ∨ k ∈ before) ↔ k ∈ after := by
  have listed := proper k
  rw [mem_difference, mem_difference]
  by_cases stays : k ∈ after
  · have there := List.count_pos_iff.mpr stays
    rw [← List.count_pos_iff (l := before)]
    simp only [stays, iff_true]
    omega
  · have gone := List.count_eq_zero_of_not_mem stays
    rw [← List.count_pos_iff (l := before)]
    simp only [stays, iff_false]
    omega

variable {lent : Option (K × Conn)}

theorem installServers_agree (agree : Agree lent s) {newServers : List K}
    (proper : Proper s.initialServers newServers) :
    Meets (installServers config (sort newServers) (sort s.initialServers) s)
      (fun _ t => Agree lent t) (fun _ _ => True) := by
  simp only [installServers]
  split
  · exact agree
  have adds := addServers_resting config agree.resting
    (setDifference (sort newServers) (sort s.initialServers))
  refine (adds.mono (fun _ _ => id) fun _ _ _ => trivial).bind ?_
  rintro - t ⟨pool, rfl, added, same⟩
  have removes := removeServers_resting
    (s := { poolSet s pool with balancer := s.balancer.setServers (sort newServers) }) added
    proper.nodup fun k member => .inr
      (mem_sort.mp ((setDifference_sublist _ _).subset member))
  have whole : Meets ((removeServers (setDifference (sort s.initialServers) (sort newServers)) >>=
      fun _ => modify fun s => { s with initialServers := sort newServers })
        { poolSet s pool with balancer := s.balancer.setServers (sort newServers) })
      (fun _ t => Agree lent t) (fun _ _ => True) := by
    refine (removes.mono (fun _ _ => id) fun _ _ => False.elim).bind ?_
    rintro - t ⟨pool', rfl, removed, same'⟩
    refine ⟨fun k => Iff.rfl, ?_, fun k obj here => ?_⟩
    · refine { removed with keys := fun k => (removed.keys k).trans ?_ }
      exact (proper.keys_iff k).trans mem_sort.symm
    · exact (same' k).symm ▸ (same k).symm ▸ agree.held k obj here
  exact whole

/-! ### The record of updates -/

theorem onPool_updates (call : PoolM K A) (s : TransportFactory N K) :
    Meets (onPool call s) (fun _ t => t.updates = s.updates) (fun _ t => t.updates = s.updates) := by
  unfold onPool
  cases call s.connectionPool <;> rfl

theorem addServers_updates (added : List K) (s : TransportFactory N K) :
    Meets (addServers config added s) (fun _ t => t.updates = s.updates)
      (fun _ t => t.updates = s.updates) := by
  induction added generalizing s with
  | nil => rfl
  | cons server rest ih =>
    refine (onPool_updates (addObject config server) s).bind ?_
    rintro - t same
    exact same ▸ ih t

theorem removeServers_updates (failed : List K) (s : TransportFactory N K) :
    Meets (removeServers failed s) (fun _ t => t.updates = s.updates)
      (fun _ t => t.updates = s.updates) := by
  induction failed generalizing s with
  | nil => rfl
  | cons server rest ih =>
    refine (onPool_updates (clear server) s).bind ?_
    rintro - t same
    exact same ▸ ih t

theorem installServers_updates (newServers topoServers : List K) (s : TransportFactory N K) :
    Meets (installServers config newServers topoServers s) (fun _ t => t.updates = s.updates)
      (fun _ t => t.updates = s.updates) := by
  simp only [installServers]
  split
  · rfl
  refine (addServers_updates config (setDifference newServers topoServers) s).bind ?_
  rintro - t same
  have removes := removeServers_updates (setDifference topoServers newServers)
    { t with balancer := t.balancer.setServers newServers }
  have whole : Meets ((removeServers (setDifference topoServers newServers) >>=
      fun _ => modify fun s => { s with initialServers := newServers })
        { t with balancer := t.balancer.setServers newServers })
      (fun _ u => u.updates = t.updates) (fun _ u => u.updates = t.updates) :=
    removes.bind fun _ _ kept => kept
  rw [← same]
  exact whole

/-- The calls of `updateServers` so far have returned and were proper. -/
def WellUpdated (s : TransportFactory N K) : Prop :=
  ∀ u ∈ s.updates, u.completed = true ∧ Proper u.before u.after

/-- The views agree as long as that holds. -/
def Sound (lent : Option (K × Conn)) (s : TransportFactory N K) : Prop :=
  WellUpdated s → Agree lent s

theorem updateServers_sound (sound : Sound lent s) (makes : List (Option Exn))
    (newServers : List K) :
    Meets (updateServers config makes newServers s) (fun _ t => Sound lent t)
      (fun _ t => Sound lent t) := by
  have kept := installServers_updates config (sort newServers) (sort s.initialServers)
    { s with connectionPool := { s.connectionPool with makes } }
  simp only [updateServers]
  cases result : installServers config (sort newServers) (sort s.initialServers)
      { s with connectionPool := { s.connectionPool with makes } } with
  | error e t =>
    -- a call that raised is on record
    intro later
    cases (later ⟨s.initialServers, newServers, false⟩ (by simp)).1
  | ok _ t =>
    rw [result] at kept
    simp only [meets_ok] at kept ⊢
    intro later
    have earlier : WellUpdated s := fun u member => later u (by simp [kept, member])
    have proper := (later ⟨s.initialServers, newServers, true⟩ (by simp)).2
    have agree := sound earlier
    have begun : Agree lent { s with connectionPool := { s.connectionPool with makes } } :=
      ⟨agree.balanced, agree.resting.makes makes, agree.held⟩
    have installs : Meets (installServers config (sort newServers) (sort s.initialServers)
        { s with connectionPool := { s.connectionPool with makes } })
        (fun _ t => Agree lent t) (fun _ _ => True) := installServers_agree config begun proper
    rw [result] at installs
    exact ⟨installs.balanced, installs.resting, installs.held⟩

/-! ### Pings and switches -/

theorem catching_meets {call : FactoryM N K A} (value : A) {post : A → TransportFactory N K → Prop}
    {fail : Fault → TransportFactory N K → Prop} (meets : Meets (call s) post fail)
    (caught : ∀ e t, fail e t → post value t) : Meets (catching call value s) post fail := by
  unfold catching
  cases result : call s with
  | ok a t =>
    rw [tryCatch_of_ok result]
    rw [result] at meets
    exact meets
  | error e t =>
    rw [tryCatch_of_error result]
    rw [result] at meets
    cases e with
    | nullDereference | outOfBounds | foreignDelete => exact meets
    | raised e =>
      simp only
      split
      · exact caught _ t meets
      · exact meets

theorem ping_sound (sound : Sound lent s) (answer : Ping K) :
    Meets (ping config answer s) (fun _ t => Sound lent t) (fun _ t => Sound lent t) := by
  have updated : Meets (takeView config answer.view s) (fun _ t => Sound lent t)
      (fun _ t => Sound lent t) := by
    match answer.view with
    | some (newServers, makes) => exact updateServers_sound config sound makes newServers
    | none => exact sound
  refine updated.bind ?_
  rintro - t sound
  match answer.raises with
  | some e => exact sound
  | none => exact sound

theorem onPool_sound {call : PoolM K A} {lent' : A → Option (K × Conn)} (sound : Sound lent s)
    (meets : Agree lent s → Meets (call s.connectionPool)
      (fun a pool => Agree (lent' a) (poolSet s pool)) (fun _ pool => Agree none (poolSet s pool))) :
    Meets (onPool call s) (fun a t => Sound (lent' a) t) (fun _ t => Sound none t) := by
  unfold onPool
  cases result : call s.connectionPool with
  | ok a pool =>
    intro good
    have agree := meets (sound good)
    rw [result] at agree
    exact agree
  | error e pool =>
    intro good
    have agree := meets (sound good)
    rw [result] at agree
    exact agree

theorem borrow_sound (sound : Sound none s) (server : K) (first : Turn) (turns : List Turn) :
    Meets (catching (some <$> onPool (borrowAlone config server first turns)) none s)
      (fun outcome t => Sound (outcome.join.map (server, ·)) t) (fun _ t => Sound none t) := by
  have borrows : Meets (onPool (borrowAlone config server first turns) s)
      (fun found t => Sound (found.map (server, ·)) t) (fun _ t => Sound none t) := by
    refine onPool_sound sound fun agree => ?_
    refine (borrowAlone_resting agree.resting server first turns).mono ?_ ?_
    · intro found pool lends
      cases found with
      | none => exact ⟨agree.balanced, lends, fun k obj no => by cases no⟩
      | some obj =>
        refine ⟨agree.balanced, lends.1, fun k c same => ?_⟩
        cases same
        exact lends.2
    · intro e pool resting
      exact ⟨agree.balanced, resting, fun k obj no => by cases no⟩
  refine catching_meets none ?_ fun _ _ sound => sound
  rw [map_apply]
  cases result : onPool (borrowAlone config server first turns) s with
  | ok found t =>
    rw [result] at borrows
    exact borrows
  | error e t =>
    rw [result] at borrows
    exact borrows

theorem return_sound {server : K} {obj : Conn} (sound : Sound (some (server, obj)) s)
    (verdict : Except Exn Bool) :
    Meets (onPool (returnObject config server obj verdict) s)
      (fun _ t => Sound none t) (fun _ t => Sound none t) := by
  refine onPool_sound sound fun agree => ?_
  refine (returnObject_resting agree.resting (agree.held _ _ rfl) verdict).mono ?_ ?_
  · intro _ pool resting
    exact ⟨agree.balanced, resting, fun k obj no => by cases no⟩
  · intro _ pool resting
    exact ⟨agree.balanced, resting, fun k obj no => by cases no⟩

theorem pingServer_sound (sound : Sound none s) (server : K) (answer : Ping K) :
    Meets (pingServer config server answer s) (fun _ t => Sound none t) (fun _ _ => True) := by
  unfold pingServer
  have borrows := borrow_sound config sound server answer.first answer.turns
  refine (borrows.mono (fun _ _ => id) fun _ _ _ => trivial).bind ?_
  intro outcome t sound
  match outcome with
  | none => exact sound
  | some none => exact sound
  | some (some obj) =>
    have pings := ping_sound config sound answer
    have pinged := catching_meets () pings fun _ _ sound => sound
    have whole : Meets ((catching (ping config answer) () >>= fun _ =>
        onPool (returnObject config server obj answer.verdict) >>= fun _ => pure true) t)
        (fun _ u => Sound none u) (fun _ _ => True) := by
      refine (pinged.mono (fun _ _ => id) fun _ _ _ => trivial).bind ?_
      rintro - u sound
      have returns := return_sound config sound answer.verdict
      exact (returns.mono (fun _ _ => id) fun _ _ _ => trivial).bind fun _ _ => id
    exact whole

theorem pingServers_sound (servers : List K) (pings : List (Ping K)) (sound : Sound none s) :
    Meets (pingServers config servers pings s) (fun _ t => Sound none t) (fun _ _ => True) := by
  induction servers generalizing pings s with
  | nil => exact sound
  | cons server rest ih =>
    refine (pingServer_sound config sound server (pings.headD {})).bind ?_
    rintro (_ | _) t sound
    · exact sound
    · exact ih pings.tail sound

theorem resting_empty (makes : List (Option Exn)) :
    Resting (· ∈ ([] : List K)) 0 [] ({ makes } : ConnectionPool K) where
  tallied := ⟨rfl, rfl, fun c => Nat.zero_le _⟩
  sound k found := by cases found
  unasked := rfl
  active := rfl
  keys k := ⟨fun member => absurd member SortedMap.not_mem_empty, fun member => by cases member⟩

theorem createAndPreparePool_resting (makes : List (Option Exn)) (s : TransportFactory N K) :
    Meets (createAndPreparePool config makes s)
      (fun _ t => ∃ pool, t = poolSet s pool ∧ Resting (· ∈ s.initialServers) 0 [] pool)
      (fun _ _ => True) := by
  have adds := addServers_resting (s := poolSet s { makes }) config (resting_empty makes)
    s.initialServers
  refine adds.mono (fun _ t => ?_) fun _ _ _ => trivial
  rintro ⟨pool, rfl, resting, -⟩
  exact ⟨pool, rfl, { resting with keys := fun k => (resting.keys k).trans (by simp) }⟩

theorem switchTo_sound (servers : List K) (makes : List (Option Exn)) (pings : List (Ping K))
    (s : TransportFactory N K) :
    Meets (switchTo config servers makes pings s) (fun _ t => Sound none t) (fun _ _ => True) := by
  unfold switchTo
  rw [bind_of_ok (modify_apply _ _)]
  refine (createAndPreparePool_resting config makes _).bind ?_
  rintro - t ⟨pool, rfl, resting⟩
  rw [bind_of_ok (modify_apply _ _), bind_of_ok (get_apply _)]
  refine pingServers_sound config _ pings fun _ => ⟨fun k => Iff.rfl, resting, ?_⟩
  exact fun k obj no => by cases no

/-! ### Runs -/

inductive Change (K : Type) where
  | update (newServers : List K) (makes : List (Option Exn))
  | switch (servers : List K) (makes : List (Option Exn)) (pings : List (Ping K))

def change (config : Configuration) (s : TransportFactory N K) :
    Change K → Option (TransportFactory N K)
  | .update newServers makes =>
    match updateServers config makes newServers s with
    | .ok _ t => some t
    | .error _ _ => none
  | .switch servers makes pings =>
    match switchTo config servers makes pings s with
    | .ok true t => some t
    | _ => none

/-- The three sets are equal, and what the balancer chooses has a queue. -/
structure ViewsAgree (s : TransportFactory N K) : Prop where
  pool : ∀ k, k ∈ s.connectionPool.idle ↔ k ∈ s.balancer.servers
  topology : ∀ k, k ∈ s.balancer.servers ↔ k ∈ s.initialServers
  borrowable : ∀ failedServers k, (s.balancer.nextServer failedServers).1 = some k →
    ∃ q, s.connectionPool.idle.get? k = some (some q)

theorem Agree.views (agree : Agree none s) : ViewsAgree s where
  pool k := (agree.resting.keys k).trans (agree.balanced k).symm
  topology := agree.balanced
  borrowable failedServers k chosen := by
    have listed := RoundRobinBalancingStrategy.nextFrom_mem chosen
    exact agree.resting.sound.found ((agree.resting.keys k).mpr ((agree.balanced k).mp listed))

theorem change_sound {t : TransportFactory N K} {next : Change K}
    (sound : Sound none s) (changed : change config s next = some t) : Sound none t := by
  cases next with
  | update newServers makes =>
    have updated := updateServers_sound config sound makes newServers
    simp only [change] at changed
    split at changed
    · rename_i result
      cases changed
      rw [result] at updated
      exact updated
    · cases changed
  | switch servers makes pings =>
    have switched := switchTo_sound config servers makes pings s
    simp only [change] at changed
    split at changed
    · rename_i result
      cases changed
      rw [result] at switched
      exact switched
    · cases changed

/-- After every change of a run that begins with the configured servers, the three
views agree, if every call of `updateServers` so far returned and was proper. -/
theorem views_agree (servers : List K) (makes : List (Option Exn)) (pings : List (Ping K))
    (changes : List (Change K))
    (reached : run (change config) ({} : TransportFactory N K)
      (.switch servers makes pings :: changes) = some s)
    (good : WellUpdated s) : ViewsAgree s := by
  have sound : Sound none s := by
    refine run_invariant_of_step (Sound none) (fun _ => ?_)
      (fun _ _ _ sound changed => change_sound config sound changed) reached
    exact ⟨fun k => Iff.rfl, resting_empty [], fun k obj no => by cases no⟩
  exact (sound good).views

def namedOnce : List (Change Nat) := [.switch [0, 0] [] [], .update [0] []]

/-- The server loses its queue, and the balancer still chooses it. -/
theorem duplicate_loses_queue :
    ∃ s, run (change {}) ({} : TransportFactory Nat Nat) namedOnce = some s ∧
      0 ∉ s.connectionPool.idle ∧ (s.balancer.nextServer []).1 = some 0 ∧ ¬ ViewsAgree s := by
  have returns : (run (change {}) ({} : TransportFactory Nat Nat) namedOnce).isSome = true := by
    decide +kernel
  have gone : 0 ∉ (Option.get _ returns).connectionPool.idle := by
    decide +kernel +revert
  have chosen : ((Option.get _ returns).balancer.nextServer []).1 = some 0 := by
    decide +kernel +revert
  refine ⟨Option.get _ returns, (Option.some_get returns).symm, gone, chosen, fun agree => ?_⟩
  exact gone ((agree.pool 0).mpr (RoundRobinBalancingStrategy.nextFrom_mem chosen))

def replaced : List (Change Nat) := [.switch [0, 1] [] [], .update [1, 2] []]

theorem views_agree_replaced :
    ∃ s, run (change {}) ({} : TransportFactory Nat Nat) replaced = some s ∧ ViewsAgree s := by
  have returns : (run (change {}) ({} : TransportFactory Nat Nat) replaced).isSome = true := by
    decide +kernel
  have recorded : (Option.get _ returns).updates = [⟨[0, 1], [1, 2], true⟩] := by
    decide +kernel +revert
  refine ⟨_, (Option.some_get returns).symm, views_agree {} [0, 1] [] [] [.update [1, 2] []]
    (Option.some_get returns).symm ?_⟩
  intro u member
  rw [recorded] at member
  cases List.mem_singleton.mp member
  exact ⟨rfl, proper_of_nodup (by decide) _⟩

end HotRod.Topology
