import HotRod.NearCache.NearRemoteCache
import HotRod.Semantics.Transition

/-! The size of the near map, and the order in which its entries go.

Every access of the map and its queue holds `_nearMutex`, so what threads, events
and failovers do to them is one sequence of changes. A failover empties the map and
leaves the queue as it is. -/

set_option autoImplicit false

namespace HotRod.NearCache

open Semantics.Transition

variable {K V : Type} [LinearOrder K]

namespace NearMap

def clearMap (_near : NearMap K V) : NearMap K V := {}

-- The queue is not cleared.
def invalidateCache (near : NearMap K V) : NearMap K V := { near with map := SortedMap.empty }

end NearMap

inductive Change (K V : Type) where
  | insert (key : K) (value : Entry V)
  | remove (key : K)
  | clear
  | invalidate
  deriving DecidableEq, Repr

def Change.apply (maxEntries : Nat) : Change K V → NearMap K V → NearMap K V
  | .insert key value, near => near.addElementToMap maxEntries key value
  | .remove key, near => near.removeElementFromMap maxEntries key
  | .clear, near => near.clearMap
  | .invalidate, near => near.invalidateCache

/-- An entry that an insertion has evicted: how many entries had other keys than the
inserted one, and the key that had been in the map for longest. -/
structure Eviction (K : Type) where
  evicted : K
  others : Nat
  oldest : Option K
  deriving DecidableEq, Repr

/-- The near map with what the code does not keep. `residents` are the keys of the map
in the order in which they came, and a key that leaves the map loses its place. -/
structure Residence (K V : Type) [LinearOrder K] where
  near : NearMap K V := {}
  residents : List K := []
  evictions : List (Eviction K) := []

def stay (map : SortedMap K (Entry V)) (residents : List K) : List K :=
  residents.filter fun k => decide (k ∈ map)

def next (maxEntries : Nat) (s : Residence K V) (change : Change K V) : Residence K V :=
  let near := change.apply maxEntries s.near
  match change with
  | .insert key _ =>
    -- the map before the entry is put into it
    let map := (s.near.makeRoom maxEntries key).map
    { near
      residents := stay map s.residents ++ if key ∈ map then [] else [key]
      evictions := s.evictions ++ (s.near.map.keys.filter fun k => decide (k ∉ map)).map
        fun evicted => ⟨evicted, (s.near.map.erase key).entries.length, s.residents.head?⟩ }
  | _ => { s with near, residents := stay near.map s.residents }

def follow (maxEntries : Nat) (s : Residence K V) (change : Change K V) :
    Option (Residence K V) :=
  some (next maxEntries s change)

/-! ### Eviction -/

namespace NearMap

-- The keys in front that are not in the map go with the first one that is.
theorem evict_of_queued (map : SortedMap K (Entry V)) {fifo : List K} {held : K}
    (queued : held ∈ fifo) (there : held ∈ map) (tail : List K) :
    ∃ stale oldest rest, fifo = stale ++ oldest :: rest ∧ (∀ k ∈ stale, k ∉ map) ∧
      oldest ∈ map ∧
      evict map (fifo ++ tail) = { map := map.erase oldest, fifo := rest ++ tail } := by
  induction fifo with
  | nil => cases queued
  | cons key rest ih =>
    rw [List.cons_append, evict]
    by_cases here : key ∈ map
    · exact ⟨[], key, rest, rfl, List.forall_mem_nil _, here, if_pos here⟩
    · have later : held ∈ rest := (List.mem_cons.mp queued).resolve_left fun same =>
        here (same ▸ there)
      obtain ⟨stale, oldest, behind, rfl, gone, there, evicted⟩ := ih later
      rw [if_neg here]
      exact ⟨key :: stale, oldest, behind, rfl, List.forall_mem_cons.mpr ⟨here, gone⟩, there,
        evicted⟩

end NearMap

/-! ### The bound -/

/-- At most that many entries, and the queue knows all of them. -/
structure Bounded (maxEntries : Nat) (near : NearMap K V) : Prop where
  size : near.map.entries.length ≤ maxEntries
  queued : ∀ k ∈ near.map, k ∈ near.fifo

variable {maxEntries : Nat} {near : NearMap K V} {key : K}

theorem exists_mem_of_full (positive : 0 < maxEntries)
    (full : maxEntries ≤ near.map.entries.length) : ∃ k, k ∈ near.map := by
  have filled : near.map.entries ≠ [] := List.ne_nil_of_length_pos (by omega)
  obtain ⟨e, rest, entries⟩ := List.exists_cons_of_ne_nil filled
  exact ⟨e.1, List.mem_map_of_mem (entries ▸ List.mem_cons_self)⟩

theorem Bounded.makeRoom (bounded : Bounded maxEntries near) (positive : 0 < maxEntries)
    (key : K) :
    (near.makeRoom maxEntries key).map.entries.length < maxEntries ∧
      ∀ k, k = key ∨ k ∈ (near.makeRoom maxEntries key).map →
        k ∈ (near.makeRoom maxEntries key).fifo := by
  unfold NearMap.makeRoom
  rw [if_pos positive]
  split
  · rename_i full
    obtain ⟨held, there⟩ := exists_mem_of_full positive full
    obtain ⟨stale, oldest, rest, fifo, gone, leaves, evicted⟩ :=
      NearMap.evict_of_queued near.map (bounded.queued held there) there [key]
    rw [evicted]
    have size := near.map.length_erase_of_mem leaves
    have before := bounded.size
    refine ⟨by simp only; omega, ?_⟩
    rintro k (rfl | held)
    · exact List.mem_append_right _ (List.mem_singleton.mpr rfl)
    · obtain ⟨other, held⟩ := (SortedMap.mem_erase _).mp held
      have queued := bounded.queued k held
      rw [fifo] at queued
      rcases List.mem_append.mp queued with behind | ahead
      · exact absurd held (gone k behind)
      · exact List.mem_append_left _ ((List.mem_cons.mp ahead).resolve_left other)
  · rename_i roomy
    refine ⟨Nat.lt_of_not_le roomy, ?_⟩
    rintro k (rfl | held)
    · exact List.mem_append_right _ (List.mem_singleton.mpr rfl)
    · exact List.mem_append_left _ (bounded.queued k held)

theorem Bounded.insert (bounded : Bounded maxEntries near) (positive : 0 < maxEntries)
    (key : K) (value : Entry V) : Bounded maxEntries (near.addElementToMap maxEntries key value) := by
  obtain ⟨room, queued⟩ := bounded.makeRoom positive key
  constructor
  · simp only [NearMap.addElementToMap]
    by_cases present : key ∈ (near.makeRoom maxEntries key).map
    · rw [SortedMap.length_insert_of_mem _ present]
      exact room.le
    · rw [SortedMap.length_insert_of_not_mem _ present]
      exact room
  · intro k held
    exact queued k ((SortedMap.mem_insert _).mp held)

theorem Bounded.remove (bounded : Bounded maxEntries near) (key : K) :
    Bounded maxEntries (near.removeElementFromMap maxEntries key) where
  size := (near.map.length_erase_le key).trans bounded.size
  queued := by
    intro k held
    obtain ⟨other, held⟩ := (SortedMap.mem_erase _).mp held
    unfold NearMap.removeElementFromMap
    split
    · exact (List.mem_erase_of_ne other).mpr (bounded.queued k held)
    · exact bounded.queued k held

theorem bounded_empty (fifo : List K) :
    Bounded maxEntries { map := SortedMap.empty, fifo : NearMap K V } where
  size := Nat.zero_le _
  queued _ held := absurd held SortedMap.not_mem_empty

theorem Bounded.apply (bounded : Bounded maxEntries near) (positive : 0 < maxEntries)
    (change : Change K V) : Bounded maxEntries (change.apply maxEntries near) := by
  cases change with
  | insert key value => exact bounded.insert positive key value
  | remove key => exact bounded.remove key
  | clear => exact bounded_empty []
  | invalidate => exact bounded_empty near.fifo

theorem next_near (maxEntries : Nat) (s : Residence K V) (change : Change K V) :
    (next maxEntries s change).near = change.apply maxEntries s.near := by
  cases change <;> rfl

theorem run_bounded (positive : 0 < maxEntries) {changes : List (Change K V)} {s : Residence K V}
    (reached : run (follow maxEntries) {} changes = some s) : Bounded maxEntries s.near := by
  refine run_invariant_of_step (fun s : Residence K V => Bounded maxEntries s.near)
    (bounded_empty []) ?_ reached
  intro s change t bounded followed
  cases followed
  rw [next_near]
  exact bounded.apply positive change

/-- Whatever is done to the near map and in whatever order, it never has more than
`maxEntries` entries, and each of their keys is in the queue. -/
theorem near_map_bounded (maxEntries : Nat) (positive : 0 < maxEntries)
    (changes : List (Change K V)) {s : Residence K V}
    (reached : run (follow maxEntries) {} changes = some s) :
    s.near.map.entries.length ≤ maxEntries ∧ ∀ k ∈ s.near.map, k ∈ s.near.fifo := by
  have bounded := run_bounded positive reached
  exact ⟨bounded.size, bounded.queued⟩

theorem near_map_bounded_failover :
    ∃ s, run (follow 2) ({} : Residence Nat Nat)
      [.insert 0 ⟨10, 1⟩, .insert 0 ⟨10, 1⟩, .invalidate, .insert 1 ⟨11, 2⟩, .remove 1,
        .insert 0 ⟨10, 1⟩, .insert 2 ⟨12, 3⟩, .insert 3 ⟨13, 4⟩] = some s ∧
      s.near.map.entries.length ≤ 2 ∧ ∀ k ∈ s.near.map, k ∈ s.near.fifo :=
  ⟨_, rfl, near_map_bounded 2 (by decide)
    [.insert 0 ⟨10, 1⟩, .insert 0 ⟨10, 1⟩, .invalidate, .insert 1 ⟨11, 2⟩, .remove 1,
      .insert 0 ⟨10, 1⟩, .insert 2 ⟨12, 3⟩, .insert 3 ⟨13, 4⟩] rfl⟩

/-! ### The client with its failovers -/

inductive Turn (K V : Type) where
  | act (action : Action K V)
  | failOver
  deriving DecidableEq, Repr

def happen (maxEntries : Nat) (s : System K V) : Turn K V → Option (System K V)
  | .act action => step maxEntries s action
  | .failOver => some { s with near := s.near.invalidateCache }

theorem executeCall_near (s : System K V) (call : Call K V) :
    (executeCall s call).near = s.near :=
  executeCall_induction (P := fun u => u.near = s.near) rfl (fun _ _ _ _ same => same) call

theorem step_near {s t : System K V} {action : Action K V}
    (taken : step maxEntries s action = some t) :
    t.near = s.near ∨ ∃ change : Change K V, t.near = change.apply maxEntries s.near := by
  cases action with
  | lookup thread key =>
    obtain ⟨-, rfl⟩ := step_lookup taken
    unfold lookup
    split <;> exact .inl rfl
  | fetch thread =>
    obtain ⟨key, rfl⟩ := step_fetch taken
    unfold fetch
    split <;> exact .inl rfl
  | insert thread =>
    obtain ⟨key, e, -, rfl⟩ := step_insert taken
    exact .inr ⟨.insert key e, rfl⟩
  | begin thread call =>
    rw [step_begin taken]
    cases call with
    | clear => exact .inl rfl
    | write key w =>
      simp only [begin]
      split
      · exact .inr ⟨.remove key, rfl⟩
      · exact .inl rfl
  | send thread =>
    obtain ⟨call, -, rfl⟩ := step_send taken
    refine .inl ?_
    cases call with
    | clear => exact executeCall_near s .clear
    | write key w =>
      have kept := executeCall_near s (.write key w)
      simp only [executeCall] at kept
      simp only [send]
      cases result : execute s key w with
      | mk u stamp =>
        rw [result] at kept
        cases stamp with
        | none => exact kept
        | some stamp =>
          simp only
          split <;> exact kept
  | drop thread =>
    obtain ⟨call, stamps, -, rfl⟩ := step_drop taken
    cases call with
    | write key w => exact .inr ⟨.remove key, rfl⟩
    | clear => exact .inr ⟨.clear, rfl⟩
  | fail thread executed =>
    obtain ⟨u, rfl | ⟨call, rfl⟩, rfl⟩ := step_fail taken
    · exact .inl rfl
    · exact .inl (executeCall_near s call)
  | other call =>
    cases taken
    exact .inl (executeCall_near s call)
  | expire key =>
    rw [step_expire taken]
    exact .inl rfl
  | deliver =>
    obtain ⟨event, rest, -, rfl⟩ := step_deliver taken
    exact .inr ⟨.remove event.key, rfl⟩

theorem run_near (maxEntries : Nat) (turns : List (Turn K V)) {s : System K V}
    (reached : run (happen maxEntries) {} turns = some s) :
    ∃ (changes : List (Change K V)) (r : Residence K V),
      run (follow maxEntries) {} changes = some r ∧ r.near = s.near := by
  refine run_invariant_of_step (fun s : System K V => ∃ (changes : List (Change K V))
    (r : Residence K V), run (follow maxEntries) {} changes = some r ∧ r.near = s.near)
    ⟨[], {}, rfl, rfl⟩ ?_ reached
  rintro s turn t ⟨changes, r, followed, same⟩ happened
  have changed : t.near = s.near ∨ ∃ change : Change K V, t.near = change.apply maxEntries s.near := by
    cases turn with
    | act action => exact step_near happened
    | failOver =>
      cases happened
      exact .inr ⟨.invalidate, rfl⟩
  rcases changed with kept | ⟨change, made⟩
  · exact ⟨changes, r, followed, same.trans kept.symm⟩
  · refine ⟨changes ++ [change], next maxEntries r change, ?_, ?_⟩
    · rw [run_append, followed]
      rfl
    · rw [next_near, same, made]

-- So the near map of the client is bounded, whatever its threads do.
theorem client_bounded (positive : 0 < maxEntries) {turns : List (Turn K V)} {s : System K V}
    (reached : run (happen maxEntries) {} turns = some s) : Bounded maxEntries s.near := by
  obtain ⟨changes, r, followed, same⟩ := run_near maxEntries turns reached
  rw [← same]
  exact run_bounded positive followed

/-! ### The order -/

/-- Each evicted entry was the one that had been in the map for longest, and the map
was full of entries with other keys. -/
def EvictsOldest (maxEntries : Nat) (s : Residence K V) : Prop :=
  ∀ e ∈ s.evictions, maxEntries ≤ e.others ∧ e.oldest = some e.evicted

/-- The evictions were in order, and the queue has the keys of the map, each once. -/
structure InOrder (maxEntries : Nat) (s : Residence K V) : Prop where
  oldest : EvictsOldest maxEntries s
  once : s.near.fifo.Nodup
  held : ∀ k ∈ s.near.fifo, k ∈ s.near.map

def Plain (s : Residence K V) : Change K V → Prop
  | .insert key _ => key ∉ s.near.map
  | .invalidate => ∀ k, k ∉ s.near.map
  | _ => True

structure Queued (maxEntries : Nat) (s : Residence K V) : Prop where
  -- The queue is the list of the residents.
  oldest : EvictsOldest maxEntries s
  fifo : s.near.fifo = s.residents
  once : s.residents.Nodup
  held : ∀ k, k ∈ s.residents ↔ k ∈ s.near.map

variable {s t : Residence K V}

theorem stay_eq_self {map : SortedMap K (Entry V)} {residents : List K}
    (all : ∀ k ∈ residents, k ∈ map) : stay map residents = residents :=
  List.filter_eq_self.mpr fun k member => decide_eq_true (all k member)

theorem stay_erase {map : SortedMap K (Entry V)} {residents : List K} (once : residents.Nodup)
    (all : ∀ k ∈ residents, k ∈ map) (key : K) :
    stay (map.erase key) residents = residents.erase key := by
  rw [once.erase_eq_filter]
  refine List.filter_congr fun k member => ?_
  by_cases same : k = key
  · simp [same]
  · simp [same, all k member]

theorem Queued.insert_of_roomy (queued : Queued maxEntries s) (positive : 0 < maxEntries)
    (absent : key ∉ s.near.map) (value : Entry V)
    (roomy : ¬ maxEntries ≤ s.near.map.entries.length) :
    Queued maxEntries (next maxEntries s (.insert key value)) := by
  have made : s.near.makeRoom maxEntries key =
      { s.near with fifo := s.near.fifo ++ [key] } := by
    unfold NearMap.makeRoom
    rw [if_pos positive, if_neg roomy]
  have stays : stay s.near.map s.residents = s.residents :=
    stay_eq_self fun k member => (queued.held k).mp member
  have none_evicted : (s.near.map.keys.filter fun k => decide (k ∉ s.near.map)) = [] := by
    refine List.filter_eq_nil_iff.mpr fun k member => ?_
    rw [decide_eq_true_eq]
    exact not_not.mpr member
  have new : key ∉ s.residents := fun member => absent ((queued.held key).mp member)
  simp only [next, Change.apply, NearMap.addElementToMap, made, stays, if_neg absent, none_evicted,
    List.map_nil, List.append_nil]
  refine ⟨queued.oldest, ?_, ?_, fun k => ?_⟩
  · simp only [queued.fifo]
  · rw [List.nodup_append]
    exact ⟨queued.once, List.nodup_singleton key, fun k member j last same =>
      new (List.mem_singleton.mp last ▸ same ▸ member)⟩
  · rw [List.mem_append, List.mem_singleton, SortedMap.mem_insert, queued.held k, or_comm]

theorem Queued.insert_of_full (queued : Queued maxEntries s) (positive : 0 < maxEntries)
    (absent : key ∉ s.near.map) (value : Entry V)
    (full : maxEntries ≤ s.near.map.entries.length) :
    Queued maxEntries (next maxEntries s (.insert key value)) := by
  obtain ⟨k, there⟩ := exists_mem_of_full positive full
  obtain ⟨oldest, rest, residents⟩ :=
    List.exists_cons_of_ne_nil (List.ne_nil_of_mem ((queued.held k).mpr there))
  have once := queued.once
  rw [residents] at once
  obtain ⟨apart, once⟩ := List.nodup_cons.mp once
  have leaves : oldest ∈ s.near.map :=
    (queued.held oldest).mp (residents ▸ List.mem_cons_self)
  have made : s.near.makeRoom maxEntries key =
      { map := s.near.map.erase oldest, fifo := rest ++ [key] } := by
    unfold NearMap.makeRoom
    rw [if_pos positive, if_pos full, queued.fifo, residents, List.cons_append, NearMap.evict,
      if_pos leaves]
  have others : ∀ k ∈ rest, k ≠ oldest := fun k member same => apart (same ▸ member)
  have stays : stay (s.near.map.erase oldest) s.residents = rest := by
    rw [stay_erase queued.once (fun k member => (queued.held k).mp member), residents,
      List.erase_cons_head]
  have gone : (s.near.map.keys.filter fun k => decide (k ∉ s.near.map.erase oldest)) =
      [oldest] := by
    have same : (s.near.map.keys.filter fun k => decide (k ∉ s.near.map.erase oldest)) =
        s.near.map.keys.filter fun k => decide (k = oldest) := by
      refine List.filter_congr fun k member => ?_
      have held : k ∈ s.near.map := member
      simp [held]
    rw [same, List.filter_eq, List.count_eq_one_of_mem s.near.map.keys_nodup leaves]
    rfl
  have still_absent : key ∉ s.near.map.erase oldest := fun member =>
    absent ((SortedMap.mem_erase _).mp member).2
  have new : key ∉ rest := fun member =>
    absent ((queued.held key).mp (residents ▸ List.mem_cons_of_mem _ member))
  simp only [next, Change.apply, NearMap.addElementToMap, made, stays, if_neg still_absent, gone,
    SortedMap.erase_of_not_mem absent]
  refine ⟨?_, rfl, ?_, fun k => ?_⟩
  · intro e recorded
    rcases List.mem_append.mp recorded with earlier | now
    · exact queued.oldest e earlier
    · rw [List.mem_singleton.mp now, residents]
      exact ⟨full, rfl⟩
  · rw [List.nodup_append]
    exact ⟨once, List.nodup_singleton key, fun k member j last same =>
      new (List.mem_singleton.mp last ▸ same ▸ member)⟩
  · have before := queued.held k
    rw [residents, List.mem_cons] at before
    rw [List.mem_append, List.mem_singleton, SortedMap.mem_insert, SortedMap.mem_erase, ← before]
    have apart : k ∈ rest → k ≠ oldest := others k
    tauto

theorem Queued.remove (queued : Queued maxEntries s) (positive : 0 < maxEntries) (key : K) :
    Queued maxEntries (next maxEntries s (.remove key)) := by
  have stays : stay (s.near.map.erase key) s.residents = s.residents.erase key :=
    stay_erase queued.once (fun k member => (queued.held k).mp member) key
  simp only [next, Change.apply, NearMap.removeElementFromMap, gt_iff_lt, positive, if_true, stays]
  refine ⟨queued.oldest, ?_, queued.once.erase key, fun k => ?_⟩
  · simp only [queued.fifo]
  · rw [queued.once.mem_erase_iff, SortedMap.mem_erase, queued.held k]

theorem Queued.clear (queued : Queued maxEntries s) :
    Queued maxEntries (next maxEntries s .clear) := by
  have stays : stay (SortedMap.empty : SortedMap K (Entry V)) s.residents = [] :=
    List.filter_eq_nil_iff.mpr fun k _ => by simp
  simp only [next, Change.apply, NearMap.clearMap, stays]
  refine ⟨queued.oldest, rfl, List.nodup_nil, fun k => ?_⟩
  simp

theorem Queued.next (queued : Queued maxEntries s) (positive : 0 < maxEntries)
    {change : Change K V} (plain : Plain s change) :
    Queued maxEntries (next maxEntries s change) := by
  cases change with
  | insert key value =>
    by_cases full : maxEntries ≤ s.near.map.entries.length
    · exact queued.insert_of_full positive plain value full
    · exact queued.insert_of_roomy positive plain value full
  | remove key => exact queued.remove positive key
  | clear => exact queued.clear
  | invalidate =>
    -- without entries there is nothing in the queue either
    have nobody : s.residents = [] := List.eq_nil_iff_forall_not_mem.mpr fun k member =>
      plain k ((queued.held k).mp member)
    have cleared := queued.clear
    have fifo := queued.fifo
    rw [nobody] at fifo
    refine ⟨queued.oldest, ?_, cleared.once, cleared.held⟩
    exact fifo.trans cleared.fifo

theorem Queued.inOrder (queued : Queued maxEntries s) : InOrder maxEntries s where
  oldest := queued.oldest
  once := queued.fifo ▸ queued.once
  held k member := (queued.held k).mp (queued.fifo ▸ member)

theorem queued_empty : Queued maxEntries ({} : Residence K V) where
  oldest e recorded := by cases recorded
  fifo := rfl
  once := List.nodup_nil
  held k := by simp

/-- In every run that inserts no key that is in the map, and whose failovers find the
map empty, entries are evicted in the order in which they came, and only from a full
map. -/
theorem evicts_in_order (maxEntries : Nat) (positive : 0 < maxEntries)
    (changes : List (Change K V)) {s : Residence K V}
    (guarded : Guarded (follow maxEntries) Plain {} changes)
    (reached : run (follow maxEntries) {} changes = some s) : InOrder maxEntries s := by
  have queued : Queued maxEntries s := by
    refine run_invariant (Queued maxEntries) queued_empty ?_ guarded reached
    intro s change t queued plain followed
    cases followed
    exact queued.next positive plain
  exact queued.inOrder

def comesBack : List (Change Nat Nat) :=
  [.insert 0 ⟨10, 1⟩, .invalidate, .insert 1 ⟨11, 2⟩, .insert 0 ⟨10, 1⟩, .insert 2 ⟨12, 3⟩]

/-- The younger entry is evicted. With a key that is inserted twice an entry is evicted
although there is room for it. -/
theorem younger_evicted :
    (∃ s, run (follow 2) ({} : Residence Nat Nat) comesBack = some s ∧
      s.evictions = [⟨0, 2, some 1⟩] ∧ ¬ InOrder 2 s) ∧
    ∃ s, run (follow 2) ({} : Residence Nat Nat)
        [.insert 0 ⟨10, 1⟩, .insert 1 ⟨11, 2⟩, .insert 1 ⟨11, 2⟩] = some s ∧
      s.evictions = [⟨0, 1, some 0⟩] ∧ s.near.fifo = [1, 1] ∧ ¬ InOrder 2 s := by
  refine ⟨⟨_, rfl, rfl, fun order => ?_⟩, _, rfl, rfl, rfl, fun order => ?_⟩
  · have first := (order.oldest ⟨0, 2, some 1⟩ (List.mem_singleton.mpr rfl)).2
    cases first
  · have once := order.once
    revert once
    decide

theorem evicts_in_order_full :
    ∃ s, run (follow 2) ({} : Residence Nat Nat)
      [.insert 0 ⟨10, 1⟩, .insert 1 ⟨11, 2⟩, .insert 2 ⟨12, 3⟩] = some s ∧ InOrder 2 s := by
  refine ⟨_, rfl, evicts_in_order 2 (by decide)
    [.insert 0 ⟨10, 1⟩, .insert 1 ⟨11, 2⟩, .insert 2 ⟨12, 3⟩] ?_ rfl⟩
  apply Guarded.cons rfl SortedMap.not_mem_empty
  refine Guarded.cons rfl ?_ (Guarded.cons rfl ?_ trivial)
  · unfold Plain
    decide
  · unfold Plain
    decide

end HotRod.NearCache
