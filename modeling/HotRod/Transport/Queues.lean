import HotRod.Transport.Capacity

/-! No access through a missing queue.

A section is `Safe` if it dereferences no null pointer and leaves none in the
idle map. Busy queues are created with their key and never taken away, so only
idle entries can be null. -/

set_option autoImplicit false

namespace HotRod.Transport

open Semantics.Execution Semantics.Transition ConnectionPool

variable {K : Type} [LinearOrder K]

def Safe {A : Type} (result : EStateM.Result Fault (ConnectionPool K) A) : Prop :=
  Meets result (fun _ t => NullFree t.idle) (fun e t => NullFree t.idle ∧ e ≠ .nullDereference)

variable {s : ConnectionPool K} {key : K} {obj : Conn} {config : Configuration}

theorem Safe.bind {A B : Type} {x : PoolM K A} {f : A → PoolM K B} (first : Safe (x s))
    (next : ∀ a t, NullFree t.idle → Safe (f a t)) : Safe ((x >>= f) s) :=
  Meets.bind first next

theorem Safe.nullFree {A : Type} {result : EStateM.Result Fault (ConnectionPool K) A}
    (safe : Safe result) : NullFree (final result).idle :=
  Meets.final (Meets.mono safe (fun _ _ => id) fun _ _ failed => failed.1)

theorem Safe.raised_ne {A : Type} {result : EStateM.Result Fault (ConnectionPool K) A}
    (safe : Safe result) : raised result ≠ some .nullDereference := by
  cases result with
  | ok a t =>
    intro fault
    cases fault
  | error e t =>
    intro fault
    cases fault
    exact safe.2 rfl

theorem makeObject_safe (sound : NullFree s.idle) :
    Meets (makeObject s) (fun _ t => t.idle = s.idle)
      (fun e t => NullFree t.idle ∧ e ≠ .nullDereference) := by
  rw [makeObject_eq]
  cases s.makes.head?.join with
  | none => rfl
  | some e => exact ⟨sound, fun same => by cases same⟩

theorem makeIdle_safe (sound : NullFree s.idle) (known : key ∈ s.idle) :
    Meets (makeIdle key s) (fun _ t => NullFree t.idle ∧ ∀ k, k ∈ s.idle → k ∈ t.idle)
      (fun e t => NullFree t.idle ∧ e ≠ .nullDereference) := by
  refine (makeObject_safe sound).bind ?_
  intro obj t same
  obtain ⟨q, found⟩ := sound.found known
  rw [← same] at found sound ⊢
  rw [bind_of_ok (pushIdle_eq found obj)]
  exact ⟨sound.insert key _, fun k member => (SortedMap.mem_insert _).mpr (.inr member)⟩

theorem growIdle_safe (sound : NullFree s.idle) (known : key ∈ s.idle) (grown : Nat) :
    Safe (growIdle key grown s) := by
  induction grown generalizing s with
  | zero => exact sound
  | succ grown ih =>
    refine (makeIdle_safe sound known).bind ?_
    rintro - t ⟨sound, keys⟩
    exact ih sound (keys key known)

theorem addObject_safe (config : Configuration) (sound : NullFree s.idle) (key : K) :
    Safe (addObject config key s) := by
  by_cases known : key ∈ s.idle
  · simpa [addObject, bind_apply, known, Safe] using sound
  · have opened : key ∈ (openQueues key s).idle := (SortedMap.mem_insert _).mpr (.inl rfl)
    have grown := growIdle_safe (s := openQueues key s) (sound.insert key _) opened
      (calculateMinIdleGrow config (openQueues key s) key).toNat
    simpa [addObject, ensureMinIdle, bind_apply, known] using grown

theorem pollIdle_safe (sound : NullFree s.idle) (key : K) : Safe (pollIdle key s) := by
  obtain ⟨generation, obj, rest, entry, polled⟩ | polled := pollIdle_cases sound key
  · rw [polled]
    exact sound.insert key _
  · rw [polled]
    exact sound

theorem tryRemoveIdle_safe (sound : NullFree s.idle) : Safe (tryRemoveIdle config s) := by
  obtain ⟨chosen, scan⟩ := keyToRemove_of_nullFree config sound.entries none 0
  rw [tryRemoveIdle, bind_apply]
  simp only [get_apply, scan]
  cases chosen with
  | none => exact sound
  | some key =>
    refine (pollIdle_safe sound key).bind ?_
    intro polled t sound
    cases polled <;> exact sound

theorem createObject_safe (sound : NullFree s.idle) (key : K) (generation : Nat) :
    Safe (createObject config key generation s) := by
  have tested : Safe (canCreate config key generation s) := by
    simp only [canCreate, bind_apply, get_apply]
    split
    · split
      · exact sound
      · refine (tryRemoveIdle_safe sound).bind ?_
        intro removed t sound
        cases removed <;> exact sound
    · exact sound
  refine tested.bind ?_
  intro create t sound
  cases create with
  | false => exact sound
  | true =>
    refine (makeObject_safe sound).bind ?_
    intro obj u same
    rw [← same] at sound
    exact sound

theorem testLoop_safe (config : Configuration) (obj : Conn) (sound : NullFree s.idle) (key : K)
    (generation : Nat) (validates : List (Except Exn Bool)) :
    Safe (testLoop config key generation validates obj s) := by
  induction validates generalizing obj s with
  | nil => exact sound
  | cons verdict rest ih =>
    simp only [testLoop]
    split
    · cases verdict with
      | error e => exact ⟨sound, fun same => by cases same⟩
      | ok valid =>
        cases valid with
        | true => exact sound
        | false =>
          have destroyed : NullFree ({ s with destroyed := s.destroyed ++ [obj] } :
              ConnectionPool K).idle := sound
          refine (createObject_safe destroyed key generation).bind ?_
          intro found t sound
          cases found with
          | none => exact sound
          | some obj => exact ih obj sound
    · exact sound

theorem borrowObject_safe (config : Configuration) (sound : NullFree s.idle) (key : K)
    (validates : List (Except Exn Bool)) :
    Safe (borrowObject config key validates s) := by
  have raise : ∀ e : Exn,
      Safe (.error (.raised e) s : EStateM.Result Fault (ConnectionPool K) Borrowed) :=
    fun e => ⟨sound, fun same => by cases same⟩
  simp only [borrowObject, bind_apply, get_apply]
  by_cases closed : s.closed = true
  · rw [if_pos closed]
    exact raise _
  rw [if_neg closed]
  by_cases unknown : key ∉ s.idle ∨ key ∉ s.busy
  · rw [if_pos unknown]
    exact raise _
  rw [if_neg unknown]
  obtain ⟨q, found⟩ := sound.found (not_not.mp (not_or.mp unknown).1)
  simp only [found]
  refine (pollIdle_safe sound key).bind ?_
  intro polled t sound
  cases polled with
  | some obj =>
    exact testLoop_safe (s := { t with totalIdle := t.totalIdle - 1 }) config _ sound key _ validates
  | none =>
    refine (createObject_safe sound key _).bind ?_
    intro found u sound
    cases found with
    | none => exact sound
    | some obj => exact testLoop_safe config obj sound key _ validates

theorem allocatePending_safe (sound : NullFree s.idle) (reached : Bool)
    (known : reached = true → ∀ k ∈ s.allocationQueue.head?, k ∈ s.idle) :
    Meets (allocatePending reached s)
      (fun served t => NullFree t.idle ∧ (∀ k, k ∈ s.idle → k ∈ t.idle) ∧
        (served = true → reached = true ∧ s.allocationQueue ≠ []))
      (fun e t => NullFree t.idle ∧ e ≠ .nullDereference) := by
  cases reached with
  | false => exact ⟨sound, fun _ => id, fun no => by cases no⟩
  | true =>
    cases queue : s.allocationQueue with
    | nil => simpa [allocatePending, bind_apply, queue] using sound
    | cons first rest =>
      rw [allocatePending_eq queue]
      have present : first ∈ s.idle := known rfl first (by simp [queue])
      refine (makeIdle_safe (s := { s with allocationQueue := rest }) sound present).bind ?_
      rintro - t ⟨sound, keys⟩
      exact ⟨sound, keys, fun _ => ⟨rfl, List.cons_ne_nil _ _⟩⟩

theorem checkDrained_safe (sound : NullFree s.idle) (key : K) :
    Meets (checkDrained key s) (fun _ t => t = s)
      (fun e t => NullFree t.idle ∧ e ≠ .nullDereference) := by
  simp only [checkDrained, bind_apply, get_apply]
  split
  · cases found : s.idle.get? key with
    | none => exact ⟨sound, fun same => by cases same⟩
    | some entry =>
      cases entry with
      | none => exact absurd found (sound key)
      | some q => rfl
  · rfl

theorem invalidateObject_safe (sound : NullFree s.idle) (busy : obj ∈ s.busyItems key)
    (deliverable : Deliverable config s) : Safe (invalidateObject config key (some obj) s) := by
  rw [invalidateObject_eq (mem_busy_of_item busy)]
  refine (checkDrained_safe (s := unregistered key obj s) sound key).bind ?_
  rintro - t rfl
  refine (allocatePending_safe (s := unregistered key obj s) sound _ deliverable.known).bind ?_
  rintro - u ⟨sound, -⟩
  exact sound

theorem validateReturned_safe (sound : NullFree s.idle) (verdict : Except Exn Bool) :
    Meets (validateReturned config verdict s) (fun _ t => t = s)
      (fun e t => NullFree t.idle ∧ e ≠ .nullDereference) := by
  simp only [validateReturned, bind_apply, get_apply]
  split
  · rfl
  · split
    · cases verdict with
      | ok valid => rfl
      | error e => exact ⟨sound, fun same => by cases same⟩
    · rfl

theorem returnObject_safe (sound : NullFree s.idle) (busy : obj ∈ s.busyItems key)
    (deliverable : Deliverable config s) (served : Serves config s → key ∈ s.idle)
    (verdict : Except Exn Bool) : Safe (returnObject config key obj verdict s) := by
  rw [returnObject_eq (mem_busy_of_item busy)]
  refine (validateReturned_safe (s := unregistered key obj s) sound verdict).bind ?_
  rintro valid t rfl
  refine (allocatePending_safe (s := unregistered key obj s) sound _ deliverable.known).bind ?_
  rintro done t ⟨sound, keys, serving⟩
  refine ((probeIdle_spec sound fun yes => keys key (served (serving yes))).mono (fun _ _ => id)
    (fun _ _ => False.elim)).bind ?_
  rintro - u rfl
  simp only [offerOrDestroy, bind_apply, get_apply]
  split
  · rename_i offered
    obtain ⟨q, found⟩ := sound.found offered.2
    rw [bind_of_ok (pushIdle_eq found obj)]
    exact sound.insert key _
  · exact sound

theorem clear_safe (sound : NullFree s.idle) (known : key ∈ s.idle) : Safe (clear key s) := by
  obtain ⟨q, found⟩ := sound.found known
  simp only [clear, bind_apply, get_apply, found]
  exact sound.erase key

/-! ### Runs -/

def fault (config : Configuration) (s : System K) : Action K → Option Fault
  | .add key makes => raised (addObject config key { s.pool with makes })
  | .borrow _ key makes validates =>
    raised (borrowObject config key validates { s.pool with makes })
  | .pop _ | .load _ | .store _ _ => none
  | .resume thread makes validates =>
    match s.borrowers.get? thread with
    | some (.counted key generation obj) =>
      raised (testLoop config key generation validates obj { s.pool with makes })
    | _ => none
  | .giveBack key obj makes verdict =>
    raised (returnObject config key obj verdict { s.pool with makes })
  | .invalidate key obj makes =>
    raised (invalidateObject config key (some obj) { s.pool with makes })
  | .clear key => raised (Transport.clear key s.pool)

theorem settle_pool (borrowers : SortedMap Thread (Borrower K)) (thread : Thread) (key : K)
    (result : EStateM.Result Fault (ConnectionPool K) Borrowed) :
    (settle borrowers thread key result).pool = final result := by
  match result with
  | .ok (.object obj) pool => rfl
  | .ok (.wait generation) pool => rfl
  | .error e pool => rfl

theorem step_safe {s t : System K} {action : Action K} (sound : NullFree s.pool.idle)
    (defined : Defined config s action) (taken : step config s action = some t) :
    fault config s action ≠ some .nullDereference ∧ NullFree t.pool.idle := by
  cases action with
  | add key makes =>
    cases taken
    have safe := addObject_safe (s := { s.pool with makes }) config sound key
    exact ⟨safe.raised_ne, safe.nullFree⟩
  | borrow thread key makes validates =>
    obtain ⟨-, rfl⟩ := step_borrow taken
    have safe := borrowObject_safe (s := { s.pool with makes }) config sound key
      validates
    refine ⟨safe.raised_ne, ?_⟩
    rw [settle_pool]
    exact safe.nullFree
  | pop thread =>
    obtain ⟨key, generation, -, popped⟩ := step_pop taken
    refine ⟨by simp [fault], ?_⟩
    obtain ⟨obj, rest, -, rfl⟩ | rfl := popIdle_cases popped
    · exact sound.insert key _
    · exact sound
  | load thread =>
    obtain ⟨key, generation, obj, -, rfl⟩ := step_load taken
    exact ⟨by simp [fault], sound⟩
  | store thread lost =>
    obtain ⟨key, generation, obj, read, -, rfl⟩ := step_store taken
    exact ⟨by simp [fault], sound⟩
  | resume thread makes validates =>
    obtain ⟨key, generation, obj, found, rfl⟩ := step_resume taken
    have safe := testLoop_safe (s := { s.pool with makes }) config obj sound
      key generation validates
    simp only [fault, found]
    refine ⟨safe.raised_ne, ?_⟩
    rw [settle_pool]
    exact safe.nullFree
  | giveBack key obj makes verdict =>
    obtain ⟨busy, rfl⟩ := step_giveBack taken
    have safe := returnObject_safe (s := { s.pool with makes }) sound busy defined.1 defined.2
      verdict
    exact ⟨safe.raised_ne, safe.nullFree⟩
  | invalidate key obj makes =>
    obtain ⟨busy, rfl⟩ := step_invalidate taken
    have safe := invalidateObject_safe (s := { s.pool with makes }) sound busy defined
    exact ⟨safe.raised_ne, safe.nullFree⟩
  | clear key =>
    cases taken
    have safe := clear_safe sound defined
    exact ⟨safe.raised_ne, safe.nullFree⟩

/-- A step that goes through a null pointer. -/
def Dereferences (config : Configuration) (s : System K) (action : Action K) : Prop :=
  (step config s action).isSome ∧ fault config s action = some .nullDereference

/-- In every run that clears known keys only and whose hand-backs find the queues
of the allocations they serve, no step dereferences a null pointer and every key
of the idle map has a queue. -/
theorem queues_present (config : Configuration) (actions : List (Action K))
    (guarded : Guarded (step config) (Defined config) {} actions) :
    Guarded (step config) (fun s action => ¬ Dereferences config s action) {} actions ∧
      ∀ s, run (step config) {} actions = some s → NullFree s.pool.idle := by
  have start : NullFree ({} : System K).pool.idle := fun key found => by cases found
  have preserved : ∀ (s : System K) action t, NullFree s.pool.idle → Defined config s action →
      step config s action = some t → NullFree t.pool.idle :=
    fun s action t sound defined taken => (step_safe sound defined taken).2
  refine ⟨guarded.imp_of_invariant (fun s => NullFree s.pool.idle) start preserved ?_,
    fun s reached => run_invariant (fun s => NullFree s.pool.idle) start preserved guarded reached⟩
  rintro s action sound defined ⟨enabled, faulty⟩
  obtain ⟨t, taken⟩ := Option.isSome_iff_exists.mp enabled
  exact (step_safe sound defined taken).1 faulty

/-- A server is cleared twice and added again. -/
def clearedTwice : List (Action Nat) := [.add 0 [], .clear 0, .clear 0, .add 0 []]

/-- The second clear leaves a null entry that `addObject` takes for a queue; the
next borrow goes through it. -/
theorem null_queue_dereferenced :
    ∃ s, run (step {}) ({} : System Nat) clearedTwice = some s ∧ ¬ NullFree s.pool.idle ∧
      Dereferences {} s (.borrow 0 0 [] []) := by
  refine ⟨_, rfl, fun sound => sound 0 (by decide), ?_⟩
  exact ⟨by decide, by decide⟩

theorem queues_present_cleared :
    ∃ s, run (step {}) ({} : System Nat) [.add 0 [], .borrow 0 0 [] [], .clear 0,
        .giveBack 0 0 [] (.ok true), .add 0 []] = some s ∧ NullFree s.pool.idle := by
  refine ⟨_, rfl, (queues_present {} [.add 0 [], .borrow 0 0 [] [], .clear 0,
    .giveBack 0 0 [] (.ok true), .add 0 []] ?_).2 _ rfl⟩
  apply Guarded.cons rfl trivial
  apply Guarded.cons rfl trivial
  refine Guarded.cons rfl (by decide : (0 : Nat) ∈ _) ?_
  refine Guarded.cons rfl ⟨?_, ?_⟩ (Guarded.cons rfl trivial trivial)
  · rintro ⟨reached, -⟩
    cases reached
  · rintro ⟨reached, -⟩
    cases reached

end HotRod.Transport
