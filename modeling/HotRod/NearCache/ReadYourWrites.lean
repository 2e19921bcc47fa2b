import HotRod.NearCache.NearRemoteCache
import HotRod.Semantics.Transition

/-! Read-your-writes through the near map, for one thread of the client.

A get returns what the near map holds or what the server holds. The server's state
of a key is never older than a write that has completed; the near map's is not
either if each write drops the entry of its key, before or after its remote call.
`putIfAbsent` does neither. -/

set_option autoImplicit false

namespace HotRod.NearCache

open Semantics.Transition

variable {K V : Type} [LinearOrder K] {s t : System K V} {me : Thread}

/-- No get returns a state from before a write that was seen to complete. -/
def ReadsOwnWrites (s : System K V) : Prop :=
  s.seen.Pairwise fun earlier later => ∀ key n value m, earlier = .wrote key n →
    later = .got key value m → n ≤ m

/-- No `putIfAbsent` takes effect for a key that the near map holds. -/
def Unshadowed (s : System K V) : Action K V → Prop
  | .send thread => ∀ key value,
      s.threads.get? thread = some (.sending (.write key (.putIfAbsent value))) →
        s.server.find key = none → key ∉ s.near.map
  | _ => True

-- What an operation in progress knows of the near map and the server.
def Sees (s : System K V) : Progress K V → Prop
  | .missed _ => True
  | .fetched key e => ∀ n, .wrote key n ∈ s.seen → n ≤ e.version
  | .sending (.write key w) => w.dropsBefore = true → key ∉ s.near.map
  | .sending .clear => True
  | .dropping call stamps => ∀ e ∈ stamps,
      e.2 ≤ s.server.stamp e.1 ∧ ∀ key w, call = .write key w → key = e.1

/-- The near map and the server are at least as new as the writes seen. -/
structure Ordered (me : Thread) (s : System K V) : Prop where
  near : ∀ key e, s.near.map.get? key = some e → ∀ n, .wrote key n ∈ s.seen → n ≤ e.version
  server : ∀ key n, .wrote key n ∈ s.seen → n ≤ s.server.stamp key
  stamped : ∀ key, s.server.stamp key ≤ s.server.clock
  alone : ∀ thread, thread ∈ s.threads → thread = me
  progress : ∀ p, s.threads.get? me = some p → Sees s p
  reads : ReadsOwnWrites s

/-! ### The parts of a step -/

theorem Sees.mono {p : Progress K V} (sees : Sees s p)
    (seen : ∀ key n, .wrote key n ∈ t.seen → .wrote key n ∈ s.seen)
    (near : ∀ key, key ∈ t.near.map → key ∈ s.near.map)
    (server : ∀ key, s.server.stamp key ≤ t.server.stamp key) :
    Sees t p := by
  match p with
  | .missed _ => trivial
  | .fetched key e => exact fun n member => sees n (seen key n member)
  | .sending (.write key w) => exact fun before held => sees before (near key held)
  | .sending .clear => trivial
  | .dropping call stamps =>
    exact fun e member => ⟨(sees e member).1.trans (server e.1), (sees e member).2⟩

theorem Ordered.publish (ordered : Ordered me s) (kind : EventKind) (key : K) (value : Option V) :
    Ordered me (publish s kind key value) := by
  have grows : ∀ k,
      s.server.stamp k ≤ (NearCache.publish s kind key value).server.stamp k := by
    intro k
    have before := ordered.stamped k
    change _ ≤ (s.server.update key value).stamp k
    rw [Server.stamp_update]
    split <;> omega
  refine ⟨ordered.near, fun k n member => (ordered.server k n member).trans (grows k), ?_,
    ordered.alone, ?_, ordered.reads⟩
  · intro k
    have before := ordered.stamped k
    change (s.server.update key value).stamp k ≤ s.server.clock + 1
    rw [Server.stamp_update]
    split <;> omega
  · intro p here
    exact (ordered.progress p here).mono (fun _ _ => id) (fun _ => id) grows

theorem Ordered.executeCall (ordered : Ordered me s) (call : Call K V) :
    Ordered me (executeCall s call) :=
  executeCall_induction ordered (fun _ kind key value ordered =>
    ordered.publish kind key value) call

theorem Ordered.proceed (ordered : Ordered me s) {p : Progress K V} (sees : Sees s p) :
    Ordered me { s with threads := s.threads.insert me p } where
  near := ordered.near
  server := ordered.server
  stamped := ordered.stamped
  alone thread member := ((SortedMap.mem_insert _).mp member).elim id (ordered.alone thread)
  progress p' here := by
    rw [SortedMap.get?_insert_self, Option.some.injEq] at here
    exact here ▸ sees.mono (fun _ _ => id) (fun _ => id) fun _ => le_rfl
  reads := ordered.reads

theorem Ordered.forget (ordered : Ordered me s) (near : NearMap K V) (events : List (Event K))
    (fewer : ∀ k e, near.map.get? k = some e → s.near.map.get? k = some e) :
    Ordered me { s with near, events } where
  near k e found := ordered.near k e (fewer k e found)
  server := ordered.server
  stamped := ordered.stamped
  alone := ordered.alone
  progress p here := (ordered.progress p here).mono (fun _ _ => id) (fun k member => by
    obtain ⟨e, found⟩ := near.map.mem_iff.mp member
    exact s.near.map.mem_iff.mpr ⟨e, fewer k e found⟩) fun _ => le_rfl
  reads := ordered.reads

theorem Ordered.complete (ordered : Ordered me s) (observed : List (Observation K V))
    (reads : ReadsOwnWrites { s with seen := s.seen ++ observed })
    (wrote : ∀ key n, .wrote key n ∈ observed → key ∉ s.near.map ∧ n ≤ s.server.stamp key) :
    Ordered me { s with threads := s.threads.erase me, seen := s.seen ++ observed } where
  near k e found n member := by
    rcases List.mem_append.mp member with earlier | now
    · exact ordered.near k e found n earlier
    · exact absurd (s.near.map.mem_iff.mpr ⟨e, found⟩) (wrote k n now).1
  server k n member :=
    (List.mem_append.mp member).elim (ordered.server k n) fun now => (wrote k n now).2
  stamped := ordered.stamped
  alone thread member := ordered.alone thread ((SortedMap.mem_erase _).mp member).2
  progress p here := by
    rw [SortedMap.get?_erase_self] at here
    cases here
  reads := reads

theorem Ordered.give_up (ordered : Ordered me s) :
    Ordered me { s with threads := s.threads.erase me } := by
  have reads : ReadsOwnWrites { s with seen := s.seen ++ [] } := by
    simpa [ReadsOwnWrites] using ordered.reads
  have done := ordered.complete [] reads fun _ _ member => by cases member
  simpa using done

theorem ReadsOwnWrites.got (reads : ReadsOwnWrites s) (key : K) (value : Option V) (stamp : Nat)
    (newest : ∀ n, .wrote key n ∈ s.seen → n ≤ stamp) :
    ReadsOwnWrites { s with seen := s.seen ++ [.got key value stamp] } := by
  refine List.pairwise_append.mpr ⟨reads, List.pairwise_singleton _ _, ?_⟩
  intro earlier member later single
  rintro k n v m rfl got
  rw [List.mem_singleton.mp single] at got
  cases got
  exact newest n member

theorem ReadsOwnWrites.wrote (reads : ReadsOwnWrites s) (stamps : List (K × Nat)) :
    ReadsOwnWrites { s with seen := s.seen ++ stamps.map fun e => .wrote e.1 e.2 } := by
  refine List.pairwise_append.mpr ⟨reads, ?_, ?_⟩
  · apply List.pairwise_map.mpr
    exact List.pairwise_of_forall fun _ _ _ _ _ _ _ got => by cases got
  · rintro earlier - later member k n v m - rfl
    obtain ⟨e, -, same⟩ := List.mem_map.mp member
    cases same

/-! ### Steps -/

section Steps

variable {maxEntries : Nat} {key : K}

theorem Ordered.lookup (ordered : Ordered me s) (idle : me ∉ s.threads) :
    Ordered me (lookup s me key) := by
  unfold NearCache.lookup
  split
  · rename_i e found
    have same : s.threads.erase me = s.threads := SortedMap.erase_of_not_mem idle
    have reads := ordered.reads.got key (some e.value) e.version (ordered.near key e found)
    have done := ordered.complete _ reads fun k n member => by simp at member
    rwa [same] at done
  · exact ordered.proceed trivial

theorem Ordered.fetch (ordered : Ordered me s) : Ordered me (fetch s me key) := by
  unfold NearCache.fetch
  split
  · rename_i e found
    refine ordered.proceed fun n member => ?_
    rw [Server.version_of_find found]
    exact ordered.server key n member
  · have reads := ordered.reads.got key none _ (ordered.server key)
    exact ordered.complete _ reads fun k n member => by simp at member

theorem Ordered.insert (ordered : Ordered me s) {e : Entry V}
    (carried : s.threads.get? me = some (.fetched key e)) :
    Ordered me { s with
      near := s.near.addElementToMap maxEntries key e
      threads := s.threads.erase me
      seen := s.seen ++ [.got key (some e.value) e.version] } := by
  have newest : ∀ n, .wrote key n ∈ s.seen → n ≤ e.version := ordered.progress _ carried
  have done := ordered.complete _ (ordered.reads.got key (some e.value) e.version newest)
    fun k n member => by simp at member
  refine ⟨fun k e' found n member => ?_, done.server, done.stamped, done.alone, fun p here => ?_,
    done.reads⟩
  · rcases NearMap.get?_addElementToMap found with ⟨rfl, rfl⟩ | earlier
    · exact newest n (by simpa using member)
    · exact done.near k e' earlier n member
  · rw [SortedMap.get?_erase_self] at here
    cases here

theorem Ordered.begin (ordered : Ordered me s) (call : Call K V) :
    Ordered me (begin maxEntries s me call) := by
  cases call with
  | clear => exact ordered.proceed trivial
  | write key w =>
    simp only [NearCache.begin]
    split
    · have forgotten := ordered.forget (s.near.removeElementFromMap maxEntries key) s.events
        fun _ _ found => (NearMap.get?_removeElementFromMap found).2
      refine forgotten.proceed fun _ held => ?_
      obtain ⟨e, found⟩ := SortedMap.mem_iff _ |>.mp held
      exact (NearMap.get?_removeElementFromMap found).1 rfl
    · rename_i later
      exact ordered.proceed fun before => absurd before later

theorem Ordered.absent (ordered : Ordered me s) {w : Write V} {value : Option V}
    (sending : s.threads.get? me = some (.sending (.write key w)))
    (unshadowed : Unshadowed s (.send me)) (effect : w.effect (s.server.find key) = some value)
    (stays : w.dropsAfter = false) : key ∉ s.near.map := by
  have sees : w.dropsBefore = true → key ∉ s.near.map := ordered.progress _ sending
  cases w with
  | put v => exact sees rfl
  | replace v => exact sees rfl
  | remove => exact sees rfl
  | replaceWithVersion v version => cases stays
  | removeWithVersion version => cases stays
  | putIfAbsent v =>
    -- it drops nothing at all: only the assumption keeps an older entry away
    apply unshadowed key v sending
    cases found : s.server.find key with
    | none => rfl
    | some e => simp [found, Write.effect] at effect

theorem Ordered.send (ordered : Ordered me s) {call : Call K V}
    (sending : s.threads.get? me = some (.sending call)) (unshadowed : Unshadowed s (.send me)) :
    Ordered me (send s me call) := by
  have executed := ordered.executeCall call
  cases call with
  | clear =>
    refine executed.proceed fun e member => ⟨?_, nofun⟩
    obtain ⟨k, -, rfl⟩ := List.mem_map.mp member
    exact le_rfl
  | write key w =>
    simp only [NearCache.executeCall, execute] at executed
    simp only [NearCache.send, execute]
    cases effect : w.effect (s.server.find key) with
    | none => exact ordered.give_up
    | some value =>
      simp only [effect] at executed
      have newest : s.server.clock + 1 = (s.server.update key value).stamp key := by
        rw [Server.stamp_update, if_pos rfl]
      cases stays : w.dropsAfter with
      | true =>
        -- the write counts as seen only after the drop
        refine executed.proceed fun e member => ?_
        rw [List.mem_singleton.mp member]
        exact ⟨newest.le, fun k w same => by cases same; rfl⟩
      | false =>
        refine executed.complete [.wrote key (s.server.clock + 1)]
          (executed.reads.wrote [(key, s.server.clock + 1)]) fun k n member => ?_
        cases List.mem_singleton.mp member
        exact ⟨ordered.absent sending unshadowed effect stays, newest.le⟩

theorem Ordered.drop (ordered : Ordered me s) {call : Call K V} {stamps : List (K × Nat)}
    (dropping : s.threads.get? me = some (.dropping call stamps)) :
    Ordered me (drop maxEntries s me call stamps) := by
  have sees : ∀ e ∈ stamps, e.2 ≤ s.server.stamp e.1 ∧ ∀ key w, call = .write key w → key = e.1 :=
    ordered.progress _ dropping
  have wrote : ∀ key n, (.wrote key n : Observation K V) ∈ stamps.map (fun e => .wrote e.1 e.2) →
      (key, n) ∈ stamps := by
    intro key n member
    obtain ⟨e, found, same⟩ := List.mem_map.mp member
    cases same
    exact found
  cases call with
  | write key w =>
    have forgotten := ordered.forget (s.near.removeElementFromMap maxEntries key) s.events
      fun _ _ found => (NearMap.get?_removeElementFromMap found).2
    refine forgotten.complete _ (ordered.reads.wrote stamps) fun k n member => ?_
    obtain ⟨bound, same⟩ := sees _ (wrote k n member)
    refine ⟨fun held => ?_, bound⟩
    obtain ⟨e, found⟩ := SortedMap.mem_iff _ |>.mp held
    exact (NearMap.get?_removeElementFromMap found).1 (same key w rfl).symm
  | clear =>
    have forgotten := ordered.forget {} s.events fun _ _ found => by cases found
    refine forgotten.complete _ (ordered.reads.wrote stamps) fun k n member => ?_
    exact ⟨SortedMap.not_mem_empty, (sees _ (wrote k n member)).1⟩

end Steps

end HotRod.NearCache
