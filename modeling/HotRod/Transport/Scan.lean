import HotRod.Transport.ConnectionPool

/-! The scan of `tryRemoveIdle` for a queue to take a connection from.

It takes the first queue that is longer than `minIdle`, else the first of the longest, and goes
through every queue before the one at which it stops, also where the map has a null pointer. -/

set_option autoImplicit false

namespace HotRod.Transport

open ConnectionPool

variable {K : Type} {config : Configuration}

def Above (config : Configuration) (q : IdleQueue) : Prop :=
  config.minIdle > 0 ∧ (q.items.length : Int) > config.minIdle

instance (config : Configuration) (q : IdleQueue) : Decidable (Above config q) :=
  inferInstanceAs (Decidable (_ ∧ _))

/-- No null pointer stands before the queue at which the scan stops. -/
def Queued (config : Configuration) : List (K × Option IdleQueue) → Prop
  | [] => True
  | (_, none) :: _ => False
  | (_, some q) :: rest => Above config q ∨ Queued config rest

/-- What the scan chooses among these entries, coming to them with the best so far. -/
inductive Chosen (config : Configuration) (entries : List (K × Option IdleQueue))
    (best : Option K) (longer : Nat) : Option K → Prop where
  | above {key : K} {q : IdleQueue} (member : (key, some q) ∈ entries) (above : Above config q) :
    Chosen config entries best longer (some key)
  | longest {key : K} {q : IdleQueue} (member : (key, some q) ∈ entries)
    (longest : longer < q.items.length)
    (none_above : ∀ k p, (k, some p) ∈ entries → ¬ Above config p)
    (none_longer : ∀ k p, (k, some p) ∈ entries → p.items.length ≤ q.items.length) :
    Chosen config entries best longer (some key)
  | best (none_above : ∀ k p, (k, some p) ∈ entries → ¬ Above config p)
    (none_longer : ∀ k p, (k, some p) ∈ entries → p.items.length ≤ longer) :
    Chosen config entries best longer best

theorem forall_mem_cons_queue {P : IdleQueue → Prop} {k : K} {q : IdleQueue}
    {rest : List (K × Option IdleQueue)} (here : P q) (later : ∀ j p, (j, some p) ∈ rest → P p) :
    ∀ j p, (j, some p) ∈ (k, some q) :: rest → P p := by
  intro j p member
  obtain same | member := List.mem_cons.mp member
  · cases same
    exact here
  · exact later j p member

namespace Chosen

variable {rest : List (K × Option IdleQueue)} {k : K} {q : IdleQueue} {best found : Option K}
  {longer : Nat}

theorem pass (chosen : Chosen config rest best longer found) (below : ¬ Above config q)
    (shorter : q.items.length ≤ longer) : Chosen config ((k, some q) :: rest) best longer found := by
  cases chosen with
  | above member above => exact .above (List.mem_cons_of_mem _ member) above
  | longest member longest none_above none_longer =>
    exact .longest (List.mem_cons_of_mem _ member) longest
      (forall_mem_cons_queue below none_above)
      (forall_mem_cons_queue (shorter.trans longest.le) none_longer)
  | best none_above none_longer =>
    exact .best (forall_mem_cons_queue below none_above)
      (forall_mem_cons_queue shorter none_longer)

theorem replace (chosen : Chosen config rest (some k) q.items.length found)
    (below : ¬ Above config q) (long : longer < q.items.length) :
    Chosen config ((k, some q) :: rest) best longer found := by
  cases chosen with
  | above member above => exact .above (List.mem_cons_of_mem _ member) above
  | longest member longest none_above none_longer =>
    exact .longest (List.mem_cons_of_mem _ member) (Nat.lt_trans long longest)
      (forall_mem_cons_queue below none_above) (forall_mem_cons_queue longest.le none_longer)
  | best none_above none_longer =>
    exact .longest List.mem_cons_self long (forall_mem_cons_queue below none_above)
      (forall_mem_cons_queue (Nat.le_refl _) none_longer)

end Chosen

theorem keyToRemove_chosen {entries : List (K × Option IdleQueue)} (queued : Queued config entries)
    (best : Option K) (longer : Nat) :
    ∃ found, keyToRemove config best longer entries = .ok found ∧
      Chosen config entries best longer found := by
  induction entries generalizing best longer with
  | nil =>
    refine ⟨best, rfl, .best ?_ ?_⟩
    · intro k p member
      cases member
    · intro k p member
      cases member
  | cons e rest ih =>
    obtain ⟨k, entry⟩ := e
    cases entry with
    | none => exact queued.elim
    | some q =>
      rw [keyToRemove]
      by_cases above : Above config q
      · exact ⟨some k, if_pos above, .above List.mem_cons_self above⟩
      · have later : Queued config rest := queued.resolve_left above
        have passed : ¬ (config.minIdle > 0 ∧ (q.items.length : Int) > config.minIdle) := above
        rw [if_neg passed]
        by_cases long : q.items.length > longer
        · obtain ⟨found, scan, chosen⟩ := ih later (some k) q.items.length
          rw [if_pos long]
          exact ⟨found, scan, chosen.replace above long⟩
        · obtain ⟨found, scan, chosen⟩ := ih later best longer
          rw [if_neg long]
          exact ⟨found, scan, chosen.pass above (Nat.not_lt.mp long)⟩

-- Otherwise the scan goes through a null pointer.
theorem keyToRemove_of_not_queued {entries : List (K × Option IdleQueue)}
    (unqueued : ¬ Queued config entries) (best : Option K) (longer : Nat) :
    keyToRemove config best longer entries = .error .nullDereference := by
  induction entries generalizing best longer with
  | nil => exact absurd trivial unqueued
  | cons e rest ih =>
    obtain ⟨k, entry⟩ := e
    cases entry with
    | none => rfl
    | some q =>
      obtain ⟨passed, later⟩ := not_or.mp unqueued
      have passed : ¬ (config.minIdle > 0 ∧ (q.items.length : Int) > config.minIdle) := passed
      rw [keyToRemove, if_neg passed]
      split
      · exact ih later _ _
      · exact ih later _ _

theorem chosen_of_scan {entries : List (K × Option IdleQueue)} {best found : Option K}
    {longer : Nat} (scan : keyToRemove config best longer entries = .ok found) :
    Chosen config entries best longer found := by
  by_cases queued : Queued config entries
  · obtain ⟨other, returned, chosen⟩ := keyToRemove_chosen queued best longer
    rw [scan] at returned
    cases returned
    exact chosen
  · rw [keyToRemove_of_not_queued queued] at scan
    cases scan

theorem queued_of_nullFree {entries : List (K × Option IdleQueue)}
    (sound : ∀ e ∈ entries, e.2 ≠ none) : Queued config entries := by
  induction entries with
  | nil => trivial
  | cons e rest ih =>
    obtain ⟨k, entry⟩ := e
    cases entry with
    | none => exact sound _ List.mem_cons_self rfl
    | some q => exact .inr (ih fun e member => sound e (List.mem_cons_of_mem _ member))

theorem keyToRemove_of_nullFree (config : Configuration) {entries : List (K × Option IdleQueue)}
    (sound : ∀ e ∈ entries, e.2 ≠ none) (best : Option K) (longer : Nat) :
    ∃ found, keyToRemove config best longer entries = .ok found := by
  obtain ⟨found, scan, -⟩ := keyToRemove_chosen (queued_of_nullFree sound) best longer
  exact ⟨found, scan⟩

theorem keyToRemove_none {entries : List (K × Option IdleQueue)} {best : Option K} {longer : Nat}
    (scan : keyToRemove config best longer entries = .ok none) :
    best = none ∧ ∀ k q, (k, some q) ∈ entries → q.items.length ≤ longer := by
  cases chosen_of_scan scan with
  | best none_above none_longer => exact ⟨rfl, none_longer⟩

theorem keyToRemove_some {entries : List (K × Option IdleQueue)} {best : Option K} {longer : Nat}
    {key : K} (scan : keyToRemove config best longer entries = .ok (some key)) :
    best = some key ∨ ∃ q, (key, some q) ∈ entries ∧ q.items ≠ [] := by
  cases chosen_of_scan scan with
  | above member above =>
    have filled := above
    rw [Above] at filled
    exact .inr ⟨_, member, List.length_pos_iff.mp (by omega)⟩
  | longest member longest => exact .inr ⟨_, member, List.length_pos_iff.mp (by omega)⟩
  | best => exact .inl rfl

end HotRod.Transport
