import HotRod.Transport.Capacity

/-! The two totals of the pool against the sizes of its queues.

`Tallied` holds in every state of every run, with or without null pointers and
whatever the factory raises. Only `makeObject` and `validateObject` can raise:
`destroyObject` shuts a socket down and the other two calls are empty. -/

set_option autoImplicit false

namespace HotRod.Transport

open Semantics.Execution Semantics.Transition ConnectionPool

variable {K : Type} [LinearOrder K]

/-- The totals in the middle of a section that has `hand` off the queues.
`totalIdle` is `ahead` of the queues by what was popped and not yet subtracted. -/
structure Tallied (ahead : Int) (hand : List Conn) (s : ConnectionPool K) : Prop where
  active : s.totalActive = busyWeight (perKey one) s.busy
  idle : s.totalIdle = idleWeight (perKey one) s.idle + ahead
  once : ∀ c, places c s + hand.count c ≤ if c < s.made then 1 else 0

variable {s : ConnectionPool K} {ahead : Int} {hand : List Conn} {key : K} {obj : Conn}
  {config : Configuration}

theorem Tallied.drop (tallied : Tallied ahead (obj :: hand) s) : Tallied ahead hand s where
  active := tallied.active
  idle := tallied.idle
  once c := by
    have once := tallied.once c
    rw [List.count_cons] at once
    omega

theorem Tallied.congr {hand' : List Conn} (tallied : Tallied ahead hand s)
    (same : ∀ c, hand.count c = hand'.count c) : Tallied ahead hand' s :=
  { tallied with once := fun c => same c ▸ tallied.once c }

theorem Tallied.makes (tallied : Tallied ahead hand s) (makes : List (Option Exn)) :
    Tallied ahead hand { s with makes } :=
  ⟨tallied.active, tallied.idle, tallied.once⟩

theorem Tallied.destroy (tallied : Tallied ahead (obj :: hand) s) :
    Tallied ahead hand { s with destroyed := s.destroyed ++ [obj] } where
  active := tallied.active
  idle := tallied.idle
  once c := by
    have once := tallied.once c
    simp only [places, List.count_cons, List.count_append, List.count_nil] at once ⊢
    omega

theorem makeObject_tallied (tallied : Tallied ahead hand s) :
    Meets (makeObject s) (fun obj t => Tallied ahead (obj :: hand) t)
      (fun _ t => Tallied ahead hand t) := by
  rw [makeObject_eq]
  cases s.makes.head?.join with
  | some e => exact tallied.makes _
  | none =>
    refine ⟨tallied.active, tallied.idle, fun c => ?_⟩
    have once := tallied.once c
    change places c s + (s.made :: hand).count c ≤ if c < s.made + 1 then 1 else 0
    rw [List.count_cons]
    by_cases here : s.made = c
    · subst here
      simp only [lt_irrefl, if_false, Nat.lt_succ_self, if_true, beq_self_eq_true] at once ⊢
      omega
    · have same : c < s.made + 1 ↔ c < s.made :=
        Nat.lt_succ_iff.trans ⟨fun le => lt_of_le_of_ne le (Ne.symm here), le_of_lt⟩
      simpa only [beq_iff_eq, here, if_false, same, Nat.add_zero] using once

theorem idleWeight_null (w : Weight K) {idle : SortedMap K (Option IdleQueue)}
    (absent : ∀ q, idle.get? key ≠ some (some q)) :
    idleWeight w (idle.insert key none) = idleWeight w idle := by
  have exchanged := SortedMap.weight_insert (fun key (q : Option IdleQueue) =>
    q.elim 0 fun q => (q.items.map (w key)).sum) idle key none
  rcases found : idle.get? key with _ | _ | q
  · simpa [idleWeight, found] using exchanged
  · simpa [idleWeight, found] using exchanged
  · exact absurd found (absent q)

theorem Tallied.null (tallied : Tallied ahead hand s)
    (absent : ∀ q, s.idle.get? key ≠ some (some q)) :
    Tallied ahead hand { s with idle := s.idle.insert key none } where
  active := tallied.active
  idle := by
    simp only [idleWeight_null _ absent]
    exact tallied.idle
  once c := by
    simp only [places, idleWeight_null _ absent]
    exact tallied.once c

theorem pushIdle_tallied (tallied : Tallied ahead (obj :: hand) s) (key : K) :
    Meets (pushIdle key obj s) (fun _ t => Tallied (ahead - 1) hand t)
      (fun _ t => Tallied ahead (obj :: hand) t) := by
  rcases found : s.idle.get? key with _ | _ | q
  · simpa [pushIdle, bind_apply, found] using tallied.null (by simp [found])
  · simpa [pushIdle, bind_apply, found] using tallied.null (by simp [found])
  · rw [pushIdle_eq found]
    refine ⟨tallied.active, ?_, fun c => ?_⟩
    · have before := tallied.idle
      simp only [idleWeight_push found, perKey_apply, one_apply]
      omega
    · have once := tallied.once c
      simp only [places, List.count_cons, beq_iff_eq] at once ⊢
      rw [idleWeight_push found, tag]
      omega

theorem makeIdle_tallied (tallied : Tallied ahead hand s) (key : K) :
    Meets (makeIdle key s) (fun _ t => Tallied ahead hand t) (fun _ t => Tallied ahead hand t) := by
  refine (makeObject_tallied tallied).bind ?_
  intro obj t made
  refine ((pushIdle_tallied made key).mono (fun _ _ => id) fun _ _ failed => failed.drop).bind ?_
  rintro - u pushed
  refine ⟨pushed.active, ?_, pushed.once⟩
  have counted := pushed.idle
  simp only
  omega

theorem growIdle_tallied (tallied : Tallied ahead hand s) (key : K) (grown : Nat) :
    Meets (growIdle key grown s) (fun _ t => Tallied ahead hand t)
      (fun _ t => Tallied ahead hand t) := by
  induction grown generalizing s with
  | zero => exact tallied
  | succ grown ih => exact (makeIdle_tallied tallied key).bind fun _ _ => ih

theorem openQueues_tallied (tallied : Tallied ahead hand s) (unknown : key ∉ s.idle) :
    Tallied ahead hand (openQueues key s) := by
  -- the new queues are empty, and an old busy queue stays
  have busy : ∀ w : Weight K, busyWeight w (openQueues key s).busy = busyWeight w s.busy := by
    intro w
    simp only [openQueues]
    split
    · rfl
    · rename_i absent
      have exchanged := busyWeight_insert (w := w) s.busy key []
      simpa [s.busy.get?_eq_none.mpr absent] using exchanged
  have idle : ∀ w : Weight K, idleWeight w (openQueues key s).idle = idleWeight w s.idle :=
    fun w => idleWeight_add unknown _
  refine ⟨?_, ?_, fun c => ?_⟩
  · rw [busy]
    exact tallied.active
  · rw [idle]
    exact tallied.idle
  · rw [places, busy, idle]
    exact tallied.once c

theorem addObject_tallied (tallied : Tallied ahead hand s) (key : K) :
    Meets (addObject config key s) (fun _ t => Tallied ahead hand t)
      (fun _ t => Tallied ahead hand t) := by
  by_cases known : key ∈ s.idle
  · simpa [addObject, bind_apply, known] using tallied
  · simpa [addObject, ensureMinIdle, bind_apply, known] using growIdle_tallied
      (openQueues_tallied tallied known) key _

/-! ### Sections of `borrowObject` -/

theorem Tallied.poll (tallied : Tallied ahead hand s) {generation : Nat} {rest : List Conn}
    (found : s.idle.get? key = some (some ⟨generation, obj :: rest⟩)) :
    Tallied (ahead + 1) (obj :: hand)
      { s with idle := s.idle.insert key (some ⟨generation, rest⟩) } where
  active := tallied.active
  idle := by
    have before := tallied.idle
    have taken := idleWeight_poll (w := perKey one) found generation
    simp only [perKey_apply, one_apply] at taken ⊢
    omega
  once c := by
    have once := tallied.once c
    have taken := idleWeight_poll (w := tag c) found generation
    simp only [tag] at taken
    simp only [places, List.count_cons, beq_iff_eq] at once ⊢
    omega

theorem pollIdle_tallied (tallied : Tallied ahead hand s) (key : K) :
    Meets (pollIdle key s)
      (fun found t => Tallied (ahead + found.toList.length) (found.toList ++ hand) t)
      (fun _ _ => False) := by
  have unchanged : Tallied (ahead + (none : Option Conn).toList.length)
      ((none : Option Conn).toList ++ hand) s := by
    simpa using tallied
  rcases found : s.idle.get? key with _ | _ | ⟨generation, _ | ⟨obj, rest⟩⟩
  · simpa [pollIdle, bind_apply, found] using unchanged
  · simpa [pollIdle, bind_apply, found] using unchanged
  · rw [pollIdle_of_nil found]
    exact unchanged
  · rw [pollIdle_of_cons found]
    exact tallied.poll found

theorem Tallied.uncount (tallied : Tallied (ahead + 1) hand s) :
    Tallied ahead hand { s with totalIdle := s.totalIdle - 1 } := by
  refine ⟨tallied.active, ?_, tallied.once⟩
  have before := tallied.idle
  simp only
  omega

theorem tryRemoveIdle_tallied (tallied : Tallied ahead hand s) :
    Meets (tryRemoveIdle config s) (fun _ t => Tallied ahead hand t)
      (fun _ t => Tallied ahead hand t) := by
  rw [tryRemoveIdle, bind_apply]
  simp only [get_apply]
  cases keyToRemove config none 0 s.idle.entries with
  | error fault => exact tallied
  | ok best =>
    cases best with
    | none => exact tallied
    | some chosen =>
      refine ((pollIdle_tallied tallied chosen).mono (fun _ _ => id) fun _ _ =>
        False.elim).bind ?_
      intro polled t taken
      cases polled with
      | none => simpa using taken
      | some obj => exact (Tallied.destroy taken).uncount

theorem canCreate_tallied (tallied : Tallied ahead hand s) (key : K) (generation : Nat) :
    Meets (canCreate config key generation s) (fun _ t => Tallied ahead hand t)
      (fun _ t => Tallied ahead hand t) := by
  simp only [canCreate, bind_apply, get_apply]
  split
  · split
    · exact tallied
    · refine (tryRemoveIdle_tallied tallied).bind ?_
      intro removed t kept
      cases removed with
      | true => exact kept
      | false => exact ⟨kept.active, kept.idle, kept.once⟩
  · exact tallied

theorem createObject_tallied (tallied : Tallied ahead hand s) (key : K) (generation : Nat) :
    Meets (createObject config key generation s)
      (fun found t => Tallied ahead (found.toList ++ hand) t)
      (fun _ t => Tallied ahead hand t) := by
  refine (canCreate_tallied tallied key generation).bind ?_
  intro create t kept
  cases create with
  | false => exact kept
  | true =>
    apply (makeObject_tallied kept).bind
    intro obj u made
    exact made

theorem Tallied.register (tallied : Tallied ahead (obj :: hand) s) (key : K) :
    Tallied ahead hand (registered key obj s) where
  active := by
    have before := tallied.active
    simp only [registered, busyItems, busyWeight_push, perKey_apply, one_apply]
    omega
  idle := tallied.idle
  once c := by
    have moved : places c (registered key obj s) + hand.count c =
        places c s + (obj :: hand).count c := by
      simp only [places, registered, busyItems, busyWeight_push, tag, List.count_cons, beq_iff_eq]
      omega
    exact moved.trans_le (tallied.once c)

theorem testLoop_tallied (tallied : Tallied ahead (obj :: hand) s) (key : K) (generation : Nat)
    (validates : List (Except Exn Bool)) :
    Meets (testLoop config key generation validates obj s) (fun _ t => Tallied ahead hand t)
      (fun _ t => Tallied ahead hand t) := by
  induction validates generalizing obj s with
  | nil => exact tallied.register key
  | cons verdict rest ih =>
    simp only [testLoop]
    split
    · cases verdict with
      | error e => exact tallied.drop
      | ok valid =>
        cases valid with
        | true => exact tallied.register key
        | false =>
          refine (createObject_tallied tallied.destroy key generation).bind ?_
          intro found t kept
          cases found with
          | none => exact kept
          | some obj => exact ih kept
    · exact tallied.register key

theorem borrowFrom_tallied (tallied : Tallied ahead hand s) (key : K) (generation : Nat)
    (validates : List (Except Exn Bool)) :
    Meets (borrowFrom config key generation validates s) (fun _ t => Tallied ahead hand t)
      (fun _ t => Tallied ahead hand t) := by
  refine ((pollIdle_tallied tallied key).mono (fun _ _ => id) fun _ _ => False.elim).bind ?_
  intro polled t taken
  cases polled with
  | some obj => exact testLoop_tallied (Tallied.uncount taken) key generation validates
  | none =>
    have same : Tallied ahead hand t := by simpa using taken
    refine (createObject_tallied same key generation).bind ?_
    intro found u kept
    cases found with
    | none => exact kept
    | some obj => exact testLoop_tallied kept key generation validates

theorem borrowObject_tallied (tallied : Tallied ahead hand s) (key : K)
    (validates : List (Except Exn Bool)) :
    Meets (borrowObject config key validates s) (fun _ t => Tallied ahead hand t)
      (fun _ t => Tallied ahead hand t) := by
  simp only [borrowObject, bind_apply, get_apply]
  split
  · exact tallied
  · split
    · exact tallied
    · cases s.idle.get? key with
      | none => exact tallied
      | some entry =>
        cases entry with
        | none => exact tallied
        | some q => exact borrowFrom_tallied tallied key q.generation validates

/-! ### Hand-backs and `clear` -/

theorem allocatePending_tallied (tallied : Tallied ahead hand s) (reached : Bool) :
    Meets (allocatePending reached s) (fun _ t => Tallied ahead hand t)
      (fun _ t => Tallied ahead hand t) := by
  cases reached with
  | false => exact tallied
  | true =>
    cases queue : s.allocationQueue with
    | nil => simpa [allocatePending, bind_apply, queue] using tallied
    | cons first rest =>
      rw [allocatePending_eq queue]
      have shorter : Tallied ahead hand { s with allocationQueue := rest } :=
        ⟨tallied.active, tallied.idle, tallied.once⟩
      exact (makeIdle_tallied shorter first).bind fun _ _ => id

-- A connection is listed once, so its removal takes one from the busy queues.
theorem Tallied.unregister (tallied : Tallied ahead hand s) (busy : obj ∈ s.busyItems key) :
    Tallied ahead (obj :: hand) (unregistered key obj s) := by
  have one_listed : (s.busyItems key).count obj = 1 := by
    have once := tallied.once obj
    have bound := sum_busy_le (tag obj) s.busy key
    have listed : 0 < (s.busyItems key).count obj := List.count_pos_iff.mpr busy
    simp only [sum_tag, places, busyItems] at once bound listed ⊢
    split at once <;> omega
  simp only [busyItems] at one_listed
  refine ⟨?_, tallied.idle, fun c => ?_⟩
  · have before := tallied.active
    have removed := busyWeight_remove (perKey one) s.busy key obj
    simp only [one_listed, perKey_apply, one_apply] at removed
    simp only [unregistered, busyItems]
    omega
  · have removed := busyWeight_remove (tag c) s.busy key obj
    simp only [one_listed, tag, Nat.one_mul] at removed
    have moved : places c (unregistered key obj s) + (obj :: hand).count c =
        places c s + hand.count c := by
      simp only [places, unregistered, busyItems, List.count_cons, beq_iff_eq]
      omega
    exact moved.trans_le (tallied.once c)

theorem checkDrained_tallied (tallied : Tallied ahead hand s) (key : K) :
    Meets (checkDrained key s) (fun _ t => Tallied ahead hand t)
      (fun _ t => Tallied ahead hand t) := by
  simp only [checkDrained, bind_apply, get_apply]
  split
  · cases s.idle.get? key with
    | none => exact tallied
    | some entry => cases entry <;> exact tallied
  · exact tallied

theorem invalidateObject_tallied (tallied : Tallied ahead hand s) (busy : obj ∈ s.busyItems key) :
    Meets (invalidateObject config key (some obj) s) (fun _ t => Tallied ahead hand t)
      (fun _ t => Tallied ahead hand t) := by
  rw [invalidateObject_eq (mem_busy_of_item busy)]
  refine ((checkDrained_tallied (tallied.unregister busy) key).mono (fun _ _ => id)
    fun _ _ failed => failed.drop).bind ?_
  rintro - t inHand
  refine ((allocatePending_tallied inHand _).mono (fun _ _ => id)
    fun _ _ failed => failed.drop).bind ?_
  rintro - u inHand
  exact inHand.destroy

theorem probeIdle_tallied (tallied : Tallied ahead hand s) (key : K) (served : Bool) :
    Meets (probeIdle key served s) (fun _ t => Tallied ahead hand t)
      (fun _ t => Tallied ahead hand t) := by
  cases served with
  | false => exact tallied
  | true =>
    rcases found : s.idle.get? key with _ | _ | q
    · simpa [probeIdle, bind_apply, found] using tallied.null (by simp [found])
    · simpa [probeIdle, bind_apply, found] using tallied.null (by simp [found])
    · simpa [probeIdle, bind_apply, found] using tallied

theorem offerOrDestroy_tallied (tallied : Tallied ahead (obj :: hand) s) (key : K) (ok : Bool) :
    Meets (offerOrDestroy key obj ok s) (fun _ t => Tallied ahead hand t)
      (fun _ t => Tallied ahead hand t) := by
  simp only [offerOrDestroy, bind_apply, get_apply]
  split
  · refine ((pushIdle_tallied tallied key).mono (fun _ _ => id) fun _ _ failed => failed.drop).bind
      ?_
    rintro - t pushed
    refine ⟨pushed.active, ?_, pushed.once⟩
    have counted := pushed.idle
    simp only
    omega
  · exact tallied.destroy

theorem returnObject_tallied (tallied : Tallied ahead hand s) (busy : obj ∈ s.busyItems key)
    (verdict : Except Exn Bool) :
    Meets (returnObject config key obj verdict s) (fun _ t => Tallied ahead hand t)
      (fun _ t => Tallied ahead hand t) := by
  rw [returnObject_eq (mem_busy_of_item busy)]
  have inHand := tallied.unregister busy
  refine ((validateReturned_spec verdict).mono (fun _ _ => id) fun _ _ failed =>
    failed.1 ▸ inHand.drop).bind ?_
  rintro valid t rfl
  refine ((allocatePending_tallied inHand _).mono (fun _ _ => id)
    fun _ _ failed => failed.drop).bind ?_
  intro served t inHand
  refine ((probeIdle_tallied inHand key served).mono (fun _ _ => id)
    fun _ _ failed => failed.drop).bind ?_
  rintro - u inHand
  exact offerOrDestroy_tallied inHand key _

theorem clear_tallied (tallied : Tallied ahead hand s) (key : K) :
    Meets (clear key s) (fun _ t => Tallied ahead hand t) (fun _ _ => False) := by
  rcases found : s.idle.get? key with _ | _ | q
  · simpa [clear, bind_apply, found] using tallied.null (by simp [found])
  · simpa [clear, bind_apply, found] using tallied.null (by simp [found])
  · simp only [clear, bind_apply, get_apply, found]
    refine ⟨tallied.active, ?_, fun c => ?_⟩
    · have before := tallied.idle
      have removed := idleWeight_erase (w := perKey one) found
      simp only [sum_perKey, one_apply, Nat.mul_one] at removed
      simp only
      omega
    · have once := tallied.once c
      have removed := idleWeight_erase (w := tag c) found
      simp only [sum_tag, places, List.count_append] at once removed ⊢
      omega

/-! ### Runs -/

-- `totalIdle` still counts what borrowers have popped and not yet subtracted.
def SystemTallied (s : System K) : Prop :=
  Tallied (poppedWeight s.borrowers) (carried s.borrowers) s.pool

omit [LinearOrder K] in
theorem poppedWeight_erase {borrowers : SortedMap Thread (Borrower K)} {thread : Thread}
    {b : Borrower K} (found : borrowers.get? thread = some b) :
    poppedWeight (borrowers.erase thread) + b.uncounted = poppedWeight borrowers := by
  simpa [found, poppedWeight] using SortedMap.weight_erase
    (fun _ (b : Borrower K) => b.uncounted) borrowers thread

omit [LinearOrder K] in
theorem poppedWeight_insert {borrowers : SortedMap Thread (Borrower K)} {thread : Thread}
    {b : Borrower K} (found : borrowers.get? thread = some b) (b' : Borrower K) :
    poppedWeight (borrowers.insert thread b') + b.uncounted =
      poppedWeight borrowers + b'.uncounted :=
  SortedMap.weight_replace (fun _ (b : Borrower K) => b.uncounted) borrowers found b'

theorem settle_tallied {borrowers : SortedMap Thread (Borrower K)} {thread : Thread}
    {result : EStateM.Result Fault (ConnectionPool K) Borrowed}
    (meets : Meets result
      (fun _ t => Tallied (poppedWeight (borrowers.erase thread))
        (carried (borrowers.erase thread)) t)
      (fun _ t => Tallied (poppedWeight (borrowers.erase thread))
        (carried (borrowers.erase thread)) t)) :
    SystemTallied (settle borrowers thread key result) := by
  match result with
  | .ok (.object obj) pool => exact meets
  | .error e pool => exact meets
  | .ok (.wait generation) pool =>
    have same := poppedWeight_waiting borrowers thread key generation
    have tallied : Tallied (poppedWeight (borrowers.erase thread))
        (carried (borrowers.erase thread)) pool := meets
    rw [← same] at tallied
    refine tallied.congr fun c => ?_
    have left := count_carried_erase c borrowers thread
    have waits := count_carried_insert c borrowers thread (.waiting key generation)
    simp only [Borrower.load] at waits
    simp only [settle]
    omega

def Settled (s : System K) : Action K → Prop
  | .store thread lost => Fresh s thread lost
  | _ => True

theorem step_tallied {s t : System K} {action : Action K} (tallied : SystemTallied s)
    (taken : step config s action = some t) (settled : Settled s action) : SystemTallied t := by
  cases action with
  | add key makes =>
    cases taken
    exact Meets.final (addObject_tallied (tallied.makes makes) key)
  | borrow thread key makes validates =>
    obtain ⟨absent, rfl⟩ := step_borrow taken
    refine settle_tallied (borrowObject_tallied ?_ key validates)
    rw [SortedMap.erase_of_not_mem absent]
    exact tallied.makes makes
  | pop thread =>
    obtain ⟨key, generation, found, popped⟩ := step_pop taken
    obtain ⟨obj, rest, queue, rfl⟩ | rfl := popIdle_cases popped
    · have ahead := poppedWeight_insert found (.popped key generation obj)
      simp only [Borrower.uncounted, Nat.add_zero] at ahead
      rw [SystemTallied, ahead]
      refine (Tallied.poll tallied queue).congr fun c => ?_
      have carries := count_carried_insert c s.borrowers thread (.popped key generation obj)
      simp only [found, Option.map_some, Option.getD_some, Borrower.load, tag] at carries
      simp only [List.count_cons, beq_iff_eq]
      omega
    · have ahead := poppedWeight_erase found
      simp only [Borrower.uncounted, Nat.add_zero] at ahead
      rw [SystemTallied, ahead]
      refine Tallied.congr tallied fun c => ?_
      have left := count_carried_erase c s.borrowers thread
      simp only [found, Option.map_some, Option.getD_some, Borrower.load] at left ⊢
      omega
  | load thread =>
    obtain ⟨key, generation, obj, found, rfl⟩ := step_load taken
    have ahead := poppedWeight_insert found (.loaded key generation obj s.pool.totalIdle)
    simp only [Borrower.uncounted, Nat.add_right_cancel_iff] at ahead
    rw [SystemTallied, ahead]
    refine Tallied.congr tallied fun c => ?_
    have carries := count_carried_insert c s.borrowers thread
      (.loaded key generation obj s.pool.totalIdle)
    simp only [found, Option.map_some, Option.getD_some, Borrower.load] at carries ⊢
    omega
  | store thread lost =>
    obtain ⟨key, generation, obj, read, found, rfl⟩ := step_store_of_fresh settled taken
    have ahead := poppedWeight_insert found (.counted key generation obj)
    simp only [Borrower.uncounted, Nat.add_zero] at ahead
    rw [SystemTallied, ← ahead] at tallied
    refine (Tallied.uncount tallied).congr fun c => ?_
    have carries := count_carried_insert c s.borrowers thread (.counted key generation obj)
    simp only [found, Option.map_some, Option.getD_some, Borrower.load] at carries ⊢
    omega
  | resume thread makes validates =>
    obtain ⟨key, generation, obj, found, rfl⟩ := step_resume taken
    have ahead := poppedWeight_erase found
    simp only [Borrower.uncounted, Nat.add_zero] at ahead
    refine settle_tallied (testLoop_tallied ?_ key generation validates)
    rw [ahead]
    refine (tallied.makes makes).congr fun c => ?_
    have left := count_carried_erase c s.borrowers thread
    simp only [found, Option.map_some, Option.getD_some, Borrower.load, tag] at left
    simp only [List.count_cons, beq_iff_eq]
    omega
  | giveBack key obj makes verdict =>
    obtain ⟨busy, rfl⟩ := step_giveBack taken
    exact Meets.final (returnObject_tallied (tallied.makes makes) busy verdict)
  | invalidate key obj makes =>
    obtain ⟨busy, rfl⟩ := step_invalidate taken
    exact Meets.final (invalidateObject_tallied (tallied.makes makes) busy)
  | clear key =>
    cases taken
    exact Meets.final ((clear_tallied tallied key).mono (fun _ _ => id) fun _ _ => False.elim)

/-! ### Whole calls -/

abbrev Turn := List (Option Exn) × List (Except Exn Bool)

/-- A call of the pool. A borrow goes on as long as its pop finds a connection;
`complete` is a blocked borrow whose queue has got one. -/
inductive Call (K : Type) where
  | add (key : K) (makes : List (Option Exn))
  | borrow (thread : Thread) (key : K) (first : Turn) (turns : List Turn)
  | complete (thread : Thread) (turns : List Turn)
  | giveBack (key : K) (obj : Conn) (makes : List (Option Exn)) (verdict : Except Exn Bool)
  | invalidate (key : K) (obj : Conn) (makes : List (Option Exn))
  | clear (key : K)

/-- A step of a call, or none if the call has ended or is blocked. -/
def advance (config : Configuration) (s : System K) (action : Action K) : System K :=
  (step config s action).getD s

-- `pop` or `popOrThrow`, the decrement and the next test of the loop.
def takeTurn (config : Configuration) (thread : Thread) (s : System K) (turn : Turn) : System K :=
  [Action.pop thread, .load thread, .store thread false, .resume thread turn.1 turn.2].foldl
    (advance config) s

def takeTurns (config : Configuration) (thread : Thread) (turns : List Turn) (s : System K) :
    System K :=
  (turns ++ [([], [])]).foldl (takeTurn config thread) s

def perform (config : Configuration) (s : System K) : Call K → Option (System K)
  | .add key makes => step config s (.add key makes)
  | .borrow thread key first turns =>
    (step config s (.borrow thread key first.1 first.2)).map (takeTurns config thread turns)
  | .complete thread turns =>
    if thread ∈ s.borrowers then some (takeTurns config thread turns s) else none
  | .giveBack key obj makes verdict => step config s (.giveBack key obj makes verdict)
  | .invalidate key obj makes => step config s (.invalidate key obj makes)
  | .clear key => step config s (.clear key)

/-- Between calls a borrower waits, or it is not there. -/
def Parked (borrowers : SortedMap Thread (Borrower K)) : Prop :=
  ∀ thread b, borrowers.get? thread = some b → ∃ key generation, b = .waiting key generation

section Calls

variable {s t : System K} {borrowers : SortedMap Thread (Borrower K)} {thread : Thread}

omit [LinearOrder K] in
theorem Parked.erase (parked : Parked borrowers) (thread : Thread) :
    Parked (borrowers.erase thread) := by
  intro u b found
  rw [SortedMap.get?_erase] at found
  split at found
  · cases found
  · exact parked u b found

theorem settle_parked (others : Parked (borrowers.erase thread))
    (result : EStateM.Result Fault (ConnectionPool K) Borrowed) :
    Parked (settle borrowers thread key result).borrowers := by
  match result with
  | .ok (.object obj) pool => exact others
  | .error e pool => exact others
  | .ok (.wait generation) pool =>
    intro u b found
    simp only [settle, SortedMap.get?_insert] at found
    split at found
    · cases found
      exact ⟨key, generation, rfl⟩
    · rename_i other
      exact others u b (by rwa [SortedMap.get?_erase_of_ne _ other])

omit [LinearOrder K] in
theorem Parked.erase_insert (parked : Parked borrowers) (thread : Thread) (b : Borrower K) :
    Parked ((borrowers.insert thread b).erase thread) := by
  intro u d found
  rw [SortedMap.get?_erase] at found
  split at found
  · cases found
  · rename_i other
    rw [SortedMap.get?_insert_of_ne _ _ other] at found
    exact parked u d found

theorem takeTurn_parked (parked : Parked s.borrowers) (thread : Thread) (turn : Turn) :
    Parked (takeTurn config thread s turn).borrowers := by
  cases found : s.borrowers.get? thread with
  | none => simpa [takeTurn, advance, step, found] using parked
  | some b =>
    obtain ⟨key, generation, rfl⟩ := parked thread b found
    cases queue : s.pool.queueItems key generation with
    | nil =>
      by_cases raises : config.exhaustedAction = .EXCEPTION
      · simpa [takeTurn, advance, step, found, popIdle, queue, raises, SortedMap.get?_erase] using
          parked.erase thread
      · simpa [takeTurn, advance, step, found, popIdle, queue, raises] using parked
    | cons obj rest =>
      simp only [takeTurn, advance, step, List.foldl_cons, List.foldl_nil, found, popIdle, queue,
        Option.getD_some, SortedMap.get?_insert_self, SortedMap.insert_insert]
      exact settle_parked (parked.erase_insert thread _) _

theorem advance_tallied (tallied : SystemTallied s) {action : Action K}
    (settled : Settled s action) : SystemTallied (advance config s action) := by
  unfold advance
  cases taken : step config s action with
  | none => exact tallied
  | some t => exact step_tallied tallied taken settled

theorem Parked.not_loaded (parked : Parked s.borrowers) (config : Configuration)
    (thread : Thread) (key : K) (generation : Nat) (obj : Conn) (read : Int) :
    (advance config s (.pop thread)).borrowers.get? thread ≠
      some (.loaded key generation obj read) := by
  have before : s.borrowers.get? thread ≠ some (.loaded key generation obj read) := by
    intro found
    obtain ⟨k, g, waits⟩ := parked thread _ found
    cases waits
  unfold advance
  cases taken : step config s (.pop thread) with
  | none => exact before
  | some t =>
    obtain ⟨k, g, found, popped⟩ := step_pop taken
    obtain ⟨o, rest, -, rfl⟩ | rfl := popIdle_cases popped
    · simp
    · simp

theorem fresh_load (unread : ∀ key generation obj read,
    s.borrowers.get? thread ≠ some (.loaded key generation obj read)) :
    Fresh (advance config s (.load thread)) thread false := by
  refine ⟨rfl, ?_⟩
  intro key generation obj read found
  unfold advance at found ⊢
  cases taken : step config s (.load thread) with
  | none =>
    rw [taken] at found
    exact absurd found (unread key generation obj read)
  | some t =>
    obtain ⟨k, g, o, -, rfl⟩ := step_load taken
    rw [taken, Option.getD_some, SortedMap.get?_insert_self] at found
    cases found
    rfl

theorem takeTurn_tallied (tallied : SystemTallied s) (parked : Parked s.borrowers)
    (thread : Thread) (turn : Turn) : SystemTallied (takeTurn config thread s turn) := by
  have popped : SystemTallied (advance config s (.pop thread)) :=
    advance_tallied tallied trivial
  have loaded : SystemTallied (advance config (advance config s (.pop thread)) (.load thread)) :=
    advance_tallied popped trivial
  have unread := parked.not_loaded config thread
  have settled : Settled (advance config (advance config s (.pop thread)) (.load thread))
      (.store thread false) := fresh_load unread
  exact advance_tallied (advance_tallied loaded settled) trivial

/-- The totals are right and no call is between two of its sections. -/
def Quiet (s : System K) : Prop := SystemTallied s ∧ Parked s.borrowers

theorem takeTurns_quiet (quiet : Quiet s) (thread : Thread) (turns : List Turn) :
    Quiet (takeTurns config thread turns s) := by
  unfold takeTurns
  induction turns ++ [([], [])] generalizing s with
  | nil => exact quiet
  | cons turn rest ih =>
    refine ih ⟨?_, takeTurn_parked quiet.2 thread turn⟩
    exact takeTurn_tallied quiet.1 quiet.2 thread turn

theorem perform_quiet {call : Call K} (quiet : Quiet s)
    (performed : perform config s call = some t) : Quiet t := by
  cases call with
  | add key makes =>
    rw [perform] at performed
    refine ⟨step_tallied quiet.1 performed trivial, ?_⟩
    cases performed
    exact quiet.2
  | borrow thread key first turns =>
    simp only [perform, Option.map_eq_some_iff] at performed
    obtain ⟨u, taken, rfl⟩ := performed
    refine takeTurns_quiet ⟨step_tallied quiet.1 taken trivial, ?_⟩ thread turns
    obtain ⟨-, rfl⟩ := step_borrow taken
    exact settle_parked (quiet.2.erase thread) _
  | complete thread turns =>
    simp only [perform, Option.ite_none_right_eq_some, Option.some.injEq] at performed
    obtain ⟨-, rfl⟩ := performed
    exact takeTurns_quiet quiet thread turns
  | giveBack key obj makes verdict =>
    rw [perform] at performed
    refine ⟨step_tallied quiet.1 performed trivial, ?_⟩
    obtain ⟨-, rfl⟩ := step_giveBack performed
    exact quiet.2
  | invalidate key obj makes =>
    rw [perform] at performed
    refine ⟨step_tallied quiet.1 performed trivial, ?_⟩
    obtain ⟨-, rfl⟩ := step_invalidate performed
    exact quiet.2
  | clear key =>
    rw [perform] at performed
    refine ⟨step_tallied quiet.1 performed trivial, ?_⟩
    cases performed
    exact quiet.2

end Calls

def idleSizes (s : ConnectionPool K) : Nat :=
  (s.idle.entries.map fun e => e.2.elim 0 fun q => q.items.length).sum

def busySizes (s : ConnectionPool K) : Nat := (s.busy.entries.map fun e => e.2.length).sum

theorem idleSizes_eq (s : ConnectionPool K) : idleSizes s = idleWeight (perKey one) s.idle := by
  simp [idleSizes, idleWeight, SortedMap.weight]

theorem busySizes_eq (s : ConnectionPool K) : busySizes s = busyWeight (perKey one) s.busy := by
  simp [busySizes, busyWeight, SortedMap.weight]

omit [LinearOrder K] in
theorem poppedWeight_eq_zero {borrowers : SortedMap Thread (Borrower K)}
    (parked : Parked borrowers) : poppedWeight borrowers = 0 := by
  refine List.sum_eq_zero fun n member => ?_
  obtain ⟨⟨thread, b⟩, listed, rfl⟩ := List.mem_map.mp member
  obtain ⟨key, generation, rfl⟩ := parked thread b (borrowers.get?_eq_some.mpr listed)
  rfl

/-- After every call of every run, by return or by exception, each total is the
sum of the sizes of its queues. -/
theorem totals_match_queues (config : Configuration) (calls : List (Call K)) {s : System K}
    (reached : run (perform config) {} calls = some s) :
    s.pool.totalIdle = idleSizes s.pool ∧ s.pool.totalActive = busySizes s.pool ∧
      0 ≤ s.pool.totalIdle ∧ 0 ≤ s.pool.totalActive := by
  have quiet : Quiet s := by
    refine run_invariant_of_step Quiet ⟨⟨rfl, rfl, fun c => ?_⟩, ?_⟩
      (fun _ _ _ quiet performed => perform_quiet quiet performed) reached
    · exact Nat.zero_le _
    · intro thread b found
      cases found
  have idle := quiet.1.idle
  have active := quiet.1.active
  rw [poppedWeight_eq_zero quiet.2, ← idleSizes_eq] at idle
  rw [← busySizes_eq] at active
  omega

theorem totals_match_queues_cleared :
    ∃ s, run (perform { maxActive := 1 }) ({} : System Nat)
      [.add 0 [], .borrow 0 0 ([], []) [], .borrow 1 0 ([], []) [],
        .giveBack 0 0 [] (.ok true), .complete 1 [], .clear 0, .invalidate 0 0 []] = some s ∧
      s.pool.totalIdle = idleSizes s.pool ∧ s.pool.totalActive = busySizes s.pool := by
  refine ⟨_, rfl, ?_⟩
  have totals := totals_match_queues { maxActive := 1 } ([.add 0 [], .borrow 0 0 ([], []) [],
    .borrow 1 0 ([], []) [], .giveBack 0 0 [] (.ok true), .complete 1 [], .clear 0,
    .invalidate 0 0 []] : List (Call Nat)) rfl
  exact ⟨totals.1, totals.2.1⟩

end HotRod.Transport
