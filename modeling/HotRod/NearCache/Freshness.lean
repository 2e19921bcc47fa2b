import HotRod.NearCache.NearRemoteCache
import HotRod.Semantics.Transition

/-! Freshness of the near map.

Every update of the server is announced by an event, so an entry of the near map
is what the server holds or an event for its key is on the way. The one step that
breaks this is the insertion of an entry that was fetched before an update whose
event has already been delivered. -/

set_option autoImplicit false

namespace HotRod.NearCache

open Semantics.Transition

variable {K V : Type} [LinearOrder K] {s t : System K V}

def Announced (s : System K V) (key : K) : Prop := ∃ event ∈ s.events, event.key = key

-- An event for an update after the given one is on the way.
def Outdated (s : System K V) (key : K) (stamp : Nat) : Prop :=
  ∃ event ∈ s.events, event.key = key ∧ stamp < event.stamp

/-- Near entries, and entries that are about to be inserted, are those of the
server or are going to be dropped. -/
structure Coherent (s : System K V) : Prop where
  near : ∀ key e, s.near.map.get? key = some e → s.server.find key = some e ∨ Announced s key
  flight : ∀ thread key e, s.threads.get? thread = some (.fetched key e) →
    e.version ≤ s.server.clock ∧ (s.server.find key = some e ∨ Outdated s key e.version)
  stamped : ∀ key, s.server.stamp key ≤ s.server.clock

def Quiescent (s : System K V) : Prop := s.events = [] ∧ ∀ thread, thread ∉ s.threads

def Current (s : System K V) : Prop :=
  ∀ key e, s.near.map.get? key = some e → s.server.find key = some e

/-- No event is delivered while a get of its key carries an entry from before the update. -/
def Unhurried (s : System K V) : Action K V → Prop
  | .deliver => ∀ event ∈ s.events.head?, ∀ thread e,
      s.threads.get? thread = some (.fetched event.key e) → event.stamp ≤ e.version
  | _ => True

theorem Coherent.shrink (coherent : Coherent s) (near : NearMap K V)
    (threads : SortedMap Thread (Progress K V)) (seen : List (Observation K V))
    (fewer : ∀ k e, near.map.get? k = some e → s.near.map.get? k = some e)
    (carried : ∀ thread k e, threads.get? thread = some (.fetched k e) →
      s.threads.get? thread = some (.fetched k e)) :
    Coherent { s with near, threads, seen } where
  near k e found := coherent.near k e (fewer k e found)
  flight thread k e found := coherent.flight thread k e (carried thread k e found)
  stamped := coherent.stamped

theorem carried_erase (s : System K V) (thread : Thread) (other : Thread) (k : K) (e : Entry V)
    (found : (s.threads.erase thread).get? other = some (.fetched k e)) :
    s.threads.get? other = some (.fetched k e) := by
  rw [SortedMap.get?_erase] at found
  split at found
  · cases found
  · exact found

theorem carried_insert (s : System K V) (thread : Thread) {progress : Progress K V}
    (other : ∀ k e, progress ≠ .fetched k e) (thread' : Thread) (k : K) (e : Entry V)
    (found : (s.threads.insert thread progress).get? thread' = some (.fetched k e)) :
    s.threads.get? thread' = some (.fetched k e) := by
  rw [SortedMap.get?_insert] at found
  split at found
  · exact absurd (Option.some.inj found) (other k e)
  · exact found

theorem Coherent.publish (coherent : Coherent s) (kind : EventKind) (key : K) (value : Option V) :
    Coherent (publish s kind key value) where
  near k e found := by
    by_cases here : k = key
    · exact .inr ⟨_, List.mem_append_right _ (List.mem_singleton.mpr rfl), here.symm⟩
    · refine (coherent.near k e found).imp (fun same => ?_) ?_
      · exact (s.server.find_update key k value).trans ((if_neg here).trans same)
      · rintro ⟨event, member, same⟩
        exact ⟨event, List.mem_append_left _ member, same⟩
  flight thread k e found := by
    obtain ⟨past, current⟩ := coherent.flight thread k e found
    refine ⟨past.trans (Nat.le_succ _), ?_⟩
    by_cases here : k = key
    · exact .inr ⟨_, List.mem_append_right _ (List.mem_singleton.mpr rfl), here.symm,
        Nat.lt_succ_of_le past⟩
    · refine current.imp (fun same => ?_) ?_
      · exact (s.server.find_update key k value).trans ((if_neg here).trans same)
      · rintro ⟨event, member, same, later⟩
        exact ⟨event, List.mem_append_left _ member, same, later⟩
  stamped k := by
    have before := coherent.stamped k
    change (s.server.update key value).stamp k ≤ s.server.clock + 1
    rw [Server.stamp_update]
    split <;> omega

theorem Coherent.executeCall (coherent : Coherent s) (call : Call K V) :
    Coherent (executeCall s call) :=
  executeCall_induction coherent (fun _ kind key value coherent =>
    coherent.publish kind key value) call

/-! ### Steps -/

section Steps

variable {maxEntries : Nat} {thread : Thread} {key : K}

theorem Coherent.lookup (coherent : Coherent s) : Coherent (lookup s thread key) := by
  unfold NearCache.lookup
  split
  · exact coherent.shrink s.near s.threads _ (fun _ _ => id) fun _ _ _ => id
  · exact coherent.shrink s.near _ s.seen (fun _ _ => id) (carried_insert s thread nofun)

theorem Coherent.fetch (coherent : Coherent s) : Coherent (fetch s thread key) := by
  unfold NearCache.fetch
  split
  · rename_i e found
    refine ⟨coherent.near, fun other k e' flying => ?_, coherent.stamped⟩
    simp only [SortedMap.get?_insert] at flying
    split at flying
    · cases flying
      exact ⟨Server.version_of_find found ▸ coherent.stamped key, .inl found⟩
    · exact coherent.flight other k e' flying
  · exact coherent.shrink s.near _ _ (fun _ _ => id) (carried_erase s thread)

theorem Coherent.insert (coherent : Coherent s) {e : Entry V}
    (carried : s.threads.get? thread = some (.fetched key e)) :
    Coherent { s with
      near := s.near.addElementToMap maxEntries key e
      threads := s.threads.erase thread
      seen := s.seen ++ [.got key (some e.value) e.version] } where
  near k e' found := by
    rcases NearMap.get?_addElementToMap found with ⟨rfl, rfl⟩ | earlier
    · apply (coherent.flight thread k e' carried).2.imp id
      rintro ⟨event, member, same, -⟩
      exact ⟨event, member, same⟩
    · exact coherent.near k e' earlier
  flight other k e' found := coherent.flight other k e' (carried_erase s thread other k e' found)
  stamped := coherent.stamped

theorem Coherent.begin (coherent : Coherent s) (call : Call K V) :
    Coherent (begin maxEntries s thread call) := by
  have sending : ∀ other k e,
      (s.threads.insert thread (.sending call)).get? other = some (.fetched k e) →
        s.threads.get? other = some (.fetched k e) := carried_insert s thread nofun
  cases call with
  | clear => exact coherent.shrink s.near _ s.seen (fun _ _ => id) sending
  | write key w =>
    simp only [NearCache.begin]
    split
    · exact coherent.shrink _ _ s.seen (fun _ _ found =>
        (NearMap.get?_removeElementFromMap found).2) sending
    · exact coherent.shrink s.near _ s.seen (fun _ _ => id) sending

theorem Coherent.send (coherent : Coherent s) (call : Call K V) :
    Coherent (send s thread call) := by
  have executed := coherent.executeCall call
  cases call with
  | clear => exact executed.shrink _ _ _ (fun _ _ => id) (carried_insert _ thread nofun)
  | write key w =>
    simp only [NearCache.executeCall] at executed
    simp only [NearCache.send]
    cases result : execute s key w with
    | mk u stamp =>
      rw [result] at executed
      cases stamp with
      | none => exact executed.shrink _ _ _ (fun _ _ => id) (carried_erase _ thread)
      | some stamp =>
        simp only
        split
        · exact executed.shrink _ _ _ (fun _ _ => id) (carried_insert _ thread nofun)
        · exact executed.shrink _ _ _ (fun _ _ => id) (carried_erase _ thread)

theorem Coherent.drop (coherent : Coherent s) (call : Call K V) (stamps : List (K × Nat)) :
    Coherent (drop maxEntries s thread call stamps) := by
  refine coherent.shrink _ _ _ (fun k e found => ?_) (carried_erase s thread)
  cases call with
  | write key w => exact (NearMap.get?_removeElementFromMap found).2
  | clear => cases found

theorem Coherent.deliver {event : Event K} {rest : List (Event K)} (coherent : Coherent s)
    (queue : s.events = event :: rest) (unhurried : Unhurried s .deliver) :
    Coherent
      { s with events := rest, near := s.near.removeElementFromMap maxEntries event.key } where
  near k e found := by
    obtain ⟨other, earlier⟩ := NearMap.get?_removeElementFromMap found
    apply (coherent.near k e earlier).imp id
    rintro ⟨announcing, member, same⟩
    rw [queue] at member
    rcases List.mem_cons.mp member with rfl | later
    · exact absurd same.symm other
    · exact ⟨announcing, later, same⟩
  flight thread k e found := by
    obtain ⟨past, current⟩ := coherent.flight thread k e found
    refine ⟨past, current.imp id ?_⟩
    rintro ⟨announcing, member, same, later⟩
    rw [queue] at member
    rcases List.mem_cons.mp member with rfl | waiting
    · -- the event would overtake the entry in flight
      subst same
      exact absurd (unhurried announcing (by simp [queue]) thread e found) (Nat.not_le.mpr later)
    · exact ⟨announcing, waiting, same, later⟩
  stamped := coherent.stamped

theorem step_coherent {action : Action K V} (coherent : Coherent s) (unhurried : Unhurried s action)
    (taken : step maxEntries s action = some t) : Coherent t := by
  cases action with
  | lookup thread key =>
    obtain ⟨-, rfl⟩ := step_lookup taken
    exact coherent.lookup
  | fetch thread =>
    obtain ⟨key, rfl⟩ := step_fetch taken
    exact coherent.fetch
  | insert thread =>
    obtain ⟨key, e, carried, rfl⟩ := step_insert taken
    exact coherent.insert carried
  | begin thread call =>
    rw [step_begin taken]
    exact coherent.begin call
  | send thread =>
    obtain ⟨call, -, rfl⟩ := step_send taken
    exact coherent.send call
  | drop thread =>
    obtain ⟨call, stamps, -, rfl⟩ := step_drop taken
    exact coherent.drop call stamps
  | fail thread executed =>
    obtain ⟨u, reached, rfl⟩ := step_fail taken
    have coherent : Coherent u := by
      rcases reached with rfl | ⟨call, rfl⟩
      · exact coherent
      · exact coherent.executeCall call
    exact coherent.shrink u.near _ u.seen (fun _ _ => id) (carried_erase u thread)
  | other call =>
    cases taken
    exact coherent.executeCall call
  | expire key =>
    rw [step_expire taken]
    exact coherent.publish .expired key none
  | deliver =>
    -- the only step that can take away the event an entry in flight depends on
    obtain ⟨event, rest, queue, rfl⟩ := step_deliver taken
    exact coherent.deliver queue unhurried

end Steps

theorem coherent_empty : Coherent ({} : System K V) where
  near key e found := by cases found
  flight thread key e found := by cases found
  stamped _ := le_rfl

/-- In every run in which no event overtakes a get that has fetched an older entry,
the near map is current whenever everything is delivered and nothing in progress. -/
theorem near_map_current (maxEntries : Nat) (actions : List (Action K V)) {s : System K V}
    (guarded : Guarded (step maxEntries) Unhurried {} actions)
    (reached : run (step maxEntries) {} actions = some s) (quiescent : Quiescent s) :
    Current s := by
  have coherent : Coherent s := run_invariant Coherent coherent_empty
    (fun _ _ _ coherent unhurried taken => step_coherent coherent unhurried taken) guarded reached
  intro key e found
  apply (coherent.near key e found).resolve_right
  rintro ⟨event, member, -⟩
  rw [quiescent.1] at member
  cases member

def overtaken : List (Action Nat Nat) :=
  [.other (.write 0 (.put 10)), .deliver, .lookup 0 0, .fetch 0, .other (.write 0 (.put 11)),
    .deliver, .insert 0]

/-- The old value stays in the near map. -/
theorem near_map_stale :
    ∃ s, run (step 0) ({} : System Nat Nat) overtaken = some s ∧ Quiescent s ∧ ¬ Current s := by
  refine ⟨_, rfl, ⟨rfl, fun _ => SortedMap.not_mem_empty⟩, fun current => ?_⟩
  have held := current 0 ⟨10, 1⟩ rfl
  revert held
  decide

theorem near_map_current_inserted :
    ∃ s, run (step 0) ({} : System Nat Nat)
      [.other (.write 0 (.put 10)), .deliver, .lookup 0 0, .fetch 0,
        .other (.write 0 (.put 11)), .insert 0, .deliver] = some s ∧ Current s := by
  refine ⟨_, rfl, near_map_current 0 [.other (.write 0 (.put 10)), .deliver, .lookup 0 0, .fetch 0,
    .other (.write 0 (.put 11)), .insert 0, .deliver] ?_ rfl
      ⟨rfl, fun _ => SortedMap.not_mem_empty⟩⟩
  apply Guarded.cons rfl trivial
  -- no get is on its way when either event is delivered
  apply Guarded.cons rfl (fun event _ thread e => nofun)
  apply Guarded.cons rfl trivial
  apply Guarded.cons rfl trivial
  apply Guarded.cons rfl trivial
  apply Guarded.cons rfl trivial
  exact Guarded.cons rfl (fun event _ thread e => nofun) trivial

end HotRod.NearCache
