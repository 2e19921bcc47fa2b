import HotRod.Transport.Queues
import HotRod.Transport.Sections

/-! The pool in the hands of one thread, as `start` and a cluster switch have it.

Between two calls nothing is borrowed, so a total that is reached is reached by
idle connections and one of them makes room: nobody asks for an allocation. -/

set_option autoImplicit false

namespace HotRod.Transport

open Semantics.Execution ConnectionPool

variable {K : Type} [LinearOrder K]

/-- The rest of `borrowObject` after a section of it. Nobody else fills a queue, so
an empty one blocks for ever (`none`) or raises. -/
def continueAlone (config : Configuration) (key : K) :
    List Turn → Borrowed → PoolM K (Option Conn)
  | _, .object obj => pure (some obj)
  | turns, .wait generation => do
    match (← get).queueItems key generation with
    | [] =>
      if config.exhaustedAction = .EXCEPTION then
        throw (.raised (.noSuchElement "Reached maximum number of connections"))
      else pure none
    | obj :: rest => do
      modify fun s => polled key generation rest s
      match turns with
      | [] => do
        let _ ← register key obj
        pure (some obj)
      | (makes, validates) :: turns => do
        modify fun s => { s with makes }
        let outcome ← testLoop config key generation validates obj
        continueAlone config key turns outcome

def borrowAlone (config : Configuration) (key : K) (first : Turn) (turns : List Turn) :
    PoolM K (Option Conn) := do
  modify fun s => { s with makes := first.1 }
  let outcome ← borrowObject config key first.2
  continueAlone config key turns outcome

/-- The pool of a thread that has `active` connections out and `hand` in its hands,
with an idle queue for each of `keys`. -/
structure Resting (keys : K → Prop) (active : Int) (hand : List Conn) (s : ConnectionPool K) :
    Prop where
  tallied : Tallied 0 hand s
  sound : NullFree s.idle
  unasked : s.allocationQueue = []
  active : s.totalActive = active
  keys : ∀ k, k ∈ s.idle ↔ keys k

variable {s : ConnectionPool K} {keys : K → Prop} {active : Int}
  {hand : List Conn} {key : K} {obj : Conn} {config : Configuration}

theorem Resting.makes (resting : Resting keys active hand s) (makes : List (Option Exn)) :
    Resting keys active hand { s with makes } :=
  ⟨resting.tallied.makes makes, resting.sound, resting.unasked, resting.active, resting.keys⟩

theorem Resting.drop (resting : Resting keys active (obj :: hand) s) :
    Resting keys active hand s :=
  { resting with tallied := resting.tallied.drop }

theorem Resting.discard (resting : Resting keys active (obj :: hand) s) :
    Resting keys active hand (discarded obj s) :=
  ⟨resting.tallied.destroy, resting.sound, resting.unasked, resting.active, resting.keys⟩

theorem mem_insert_of_found {idle : SortedMap K (Option IdleQueue)} {q : Option IdleQueue}
    (found : idle.get? key = some q) (p : Option IdleQueue) (k : K) :
    k ∈ idle.insert key p ↔ k ∈ idle := by
  rw [SortedMap.mem_insert]
  refine ⟨?_, .inr⟩
  rintro (rfl | member)
  · exact idle.mem_iff.mpr ⟨q, found⟩
  · exact member

theorem Resting.poll (resting : Resting keys active hand s) {generation : Nat} {rest : List Conn}
    (found : s.idle.get? key = some (some ⟨generation, obj :: rest⟩)) :
    Resting keys active (obj :: hand) (polled key generation rest s) where
  tallied := (resting.tallied.poll found).uncount
  sound := resting.sound.insert key _
  unasked := resting.unasked
  active := resting.active
  keys k := (mem_insert_of_found found _ k).trans (resting.keys k)

theorem Resting.push (resting : Resting keys active (obj :: hand) s) {q : IdleQueue}
    (found : s.idle.get? key = some (some q)) :
    Resting keys active hand (pushed key obj q s) where
  tallied := by
    have pushes := pushIdle_tallied resting.tallied key
    rw [pushIdle_eq found] at pushes
    refine ⟨pushes.active, ?_, pushes.once⟩
    have counted := pushes.idle
    simp only [pushed] at counted ⊢
    omega
  sound := resting.sound.insert key _
  unasked := resting.unasked
  active := resting.active
  keys k := (mem_insert_of_found found _ k).trans (resting.keys k)

theorem Resting.register (resting : Resting keys active (obj :: hand) s) (key : K) :
    Resting keys (active + 1) hand (registered key obj s) where
  tallied := resting.tallied.register key
  sound := resting.sound
  unasked := resting.unasked
  active := congrArg (· + 1) resting.active
  keys := resting.keys

theorem idleWeight_eq_zero (w : Weight K) {idle : SortedMap K (Option IdleQueue)}
    (empty : ∀ k q, idle.get? k = some (some q) → q.items = []) : idleWeight w idle = 0 := by
  refine List.sum_eq_zero fun n member => ?_
  obtain ⟨⟨k, entry⟩, listed, rfl⟩ := List.mem_map.mp member
  cases entry with
  | none => rfl
  | some q => simp [empty k q (idle.get?_eq_some.mpr listed)]

theorem Resting.exists_idle (resting : Resting keys 0 hand s)
    (reached : s.hasReachedMaxTotal config = true)
    (empty : ∀ k q, s.idle.get? k = some (some q) → q.items = []) : False := by
  have idle := resting.tallied.idle
  have active := resting.active
  rw [idleWeight_eq_zero _ empty] at idle
  simp only [hasReachedMaxTotal, Bool.and_eq_true, decide_eq_true_eq] at reached
  omega

theorem Slot.resting {t : ConnectionPool K} (slot : Slot config s t)
    (resting : Resting keys active hand s) : Resting keys active hand t := by
  cases slot with
  | room free => exact resting
  | evict reached scan found => exact (resting.poll found).discard

theorem Slot.get? {t : ConnectionPool K} (slot : Slot config s t) {generation : Nat}
    (found : s.idle.get? key = some (some ⟨generation, []⟩)) :
    t.idle.get? key = some (some ⟨generation, []⟩) := by
  cases slot with
  | room free => exact found
  | @evict victim _ _ _ reached scan held =>
    have other : key ≠ victim := by
      rintro rfl
      rw [found] at held
      cases held
    exact (SortedMap.get?_insert_of_ne _ _ other).trans found

-- The borrow loop of the only thread.
theorem borrowRule_resting (config : Configuration) (keys : K → Prop) (key : K)
    (generation : Nat) (validates : List (Except Exn Bool)) :
    BorrowRule config key generation validates
      (fun obj s => Resting keys 0 [obj] s ∧
        ∃ items, s.idle.get? key = some (some ⟨generation, items⟩))
      (fun obj s => Resting keys 1 [] s ∧ obj ∈ s.busyItems key)
      (fun s => Resting keys 0 [] s ∧ ∃ items, s.idle.get? key = some (some ⟨generation, items⟩))
      (fun s => Resting keys 0 [] s ∧ ∃ items, s.idle.get? key = some (some ⟨generation, items⟩))
      (fun s => Resting keys 0 [] s) where
  sound _ start := start.1.sound
  found _ start := start.2
  make s t start found below slot planned := by
    have roomy := slot.resting start.1
    have meets := makeObject_tallied roomy.tallied
    rw [makeObject_eq, planned] at meets
    exact ⟨⟨meets, roomy.sound, roomy.unasked, roomy.active, roomy.keys⟩, [], slot.get? found⟩
  fail s t e start found below slot planned := (slot.resting start.1).makes _
  ask s start reached empty := (start.1.exists_idle reached empty).elim
  wait s items start found taken := start
  refuse obj s held tests refused := ⟨held.1.discard, held.2⟩
  raise obj s e held tests raised := held.1.drop
  lend obj s held := by
    refine ⟨held.1.register key, ?_⟩
    simp [registered, busyItems]

def Lends (keys : K → Prop) (key : K) (found : Option Conn) (s : ConnectionPool K) : Prop :=
  match found with
  | some obj => Resting keys 1 [] s ∧ obj ∈ s.busyItems key
  | none => Resting keys 0 [] s

theorem continueAlone_resting {generation : Nat} {outcome : Borrowed}
    (ended : Ends generation (fun obj s => Resting keys 1 [] s ∧ obj ∈ s.busyItems key)
      (fun s => Resting keys 0 [] s ∧ ∃ items, s.idle.get? key = some (some ⟨generation, items⟩))
      outcome s) (turns : List Turn) :
    Meets (continueAlone config key turns outcome s) (Lends keys key)
      (fun _ t => Resting keys 0 [] t) := by
  induction turns generalizing s outcome with
  | nil =>
    cases outcome with
    | object obj => exact ended
    | wait g =>
      obtain ⟨rfl, resting, items, found⟩ := ended
      simp only [continueAlone, bind_apply, get_apply, queueItems, found, if_true]
      cases items with
      | nil => split <;> exact resting
      | cons obj rest =>
        refine ⟨(resting.poll found).register key, ?_⟩
        simp [busyItems, polled]
  | cons turn turns ih =>
    cases outcome with
    | object obj => exact ended
    | wait g =>
      obtain ⟨rfl, resting, items, found⟩ := ended
      simp only [continueAlone, bind_apply, get_apply, queueItems, found, if_true]
      cases items with
      | nil => split <;> exact resting
      | cons obj rest =>
        have rule := borrowRule_resting config keys key g turn.2
        have polled_found : (polled key g rest s).idle.get? key = some (some ⟨g, rest⟩) :=
          SortedMap.get?_insert_self _ _ _
        have held := ((resting.poll found).makes turn.1)
        exact (rule.testLoop (List.Subset.refl _) ⟨held, rest, polled_found⟩).bind
          fun _ _ next => ih next

theorem borrowAlone_resting (resting : Resting keys 0 [] s) (key : K) (first : Turn)
    (turns : List Turn) :
    Meets (borrowAlone config key first turns s) (Lends keys key)
      (fun _ t => Resting keys 0 [] t) := by
  have begun := resting.makes first.1
  rcases borrowObject_cases config begun.sound key first.2 with ⟨e, calls⟩ | ⟨⟨g, items⟩, found, calls⟩
  · simp only [borrowAlone, bind_apply, modify_apply, calls]
    exact begun
  · have ends := (borrowRule_resting config keys key g first.2).borrowFrom found
      (fun obj rest same => ⟨(begun.poll (same ▸ found)), rest, SortedMap.get?_insert_self _ _ _⟩)
      fun _ => ⟨begun, items, found⟩
    rw [← calls] at ends
    have whole : Meets ((borrowObject config key first.2 >>= fun outcome =>
        continueAlone config key turns outcome) { s with makes := first.1 }) (Lends keys key)
          (fun _ t => Resting keys 0 [] t) :=
      ends.bind fun _ _ ended => continueAlone_resting ended turns
    exact whole

theorem Resting.unregister (resting : Resting keys 1 [] s) (busy : obj ∈ s.busyItems key) :
    Resting keys 0 [obj] (unregistered key obj s) where
  tallied := resting.tallied.unregister busy
  sound := resting.sound
  unasked := resting.unasked
  active := by
    have active := resting.active
    simp only [unregistered]
    omega
  keys := resting.keys

theorem returnObject_resting (resting : Resting keys 1 [] s) (busy : obj ∈ s.busyItems key)
    (verdict : Except Exn Bool) :
    Meets (returnObject config key obj verdict s) (fun _ t => Resting keys 0 [] t)
      (fun _ t => Resting keys 0 [] t) := by
  have inHand := resting.unregister busy
  rw [returnObject_eq (mem_busy_of_item busy)]
  refine ((validateReturned_spec verdict).mono (fun _ _ => id) fun _ _ failed =>
    failed.1 ▸ inHand.drop).bind ?_
  rintro valid t rfl
  have idle : allocatePending (s.hasReachedMaxTotal config) (unregistered key obj s) =
      .ok false (unregistered key obj s) :=
    allocatePending_of_not_serves fun serves => serves.2 inHand.unasked
  have probed : probeIdle key false (unregistered key obj s) = .ok () (unregistered key obj s) :=
    rfl
  rw [bind_of_ok idle, bind_of_ok probed]
  simp only [offerOrDestroy, bind_apply, get_apply]
  split
  · rename_i offered
    obtain ⟨q, found⟩ := inHand.sound.found offered.2
    rw [bind_of_ok (pushIdle_eq found obj)]
    exact inHand.push found
  · exact inHand.discard

/-! ### `addObject` and `clear` -/

theorem growIdle_resting (resting : Resting keys active hand s) (known : key ∈ s.idle)
    (grown : Nat) :
    Meets (growIdle key grown s) (fun _ t => Resting keys active hand t)
      (fun _ t => Resting keys active hand t) := by
  induction grown generalizing s with
  | zero => exact resting
  | succ grown ih =>
    obtain ⟨q, found⟩ := resting.sound.found known
    have making := makeObject_tallied resting.tallied
    rw [makeObject_eq] at making
    simp only [growIdle]
    rw [bind_apply, makeIdle, bind_apply, makeObject_eq]
    cases planned : s.makes.head?.join with
    | some e => exact resting.makes _
    | none =>
      rw [planned] at making
      have new : Resting keys active (s.made :: hand)
          { s with makes := s.makes.tail, made := s.made + 1 } :=
        ⟨making, resting.sound, resting.unasked, resting.active, resting.keys⟩
      have pushes : Resting keys active hand (pushed key s.made q
          { s with makes := s.makes.tail, made := s.made + 1 }) := new.push found
      simp only
      rw [bind_of_ok (pushIdle_eq (s := { s with makes := s.makes.tail, made := s.made + 1 })
        found s.made)]
      exact ih pushes ((mem_insert_of_found found _ key).mpr known)

theorem addObject_resting (config : Configuration) (resting : Resting keys active hand s)
    (key : K) :
    Meets (addObject config key s) (fun _ t => Resting (fun k => k = key ∨ keys k) active hand t)
      (fun _ t => Resting (fun k => k = key ∨ keys k) active hand t) := by
  by_cases known : key ∈ s.idle
  · have same : Resting (fun k => k = key ∨ keys k) active hand s := by
      refine { resting with keys := fun k => ?_ }
      rw [resting.keys]
      refine ⟨.inr, ?_⟩
      rintro (rfl | member)
      · exact (resting.keys k).mp known
      · exact member
    simpa [addObject, bind_apply, known] using same
  · have opened : Resting (fun k => k = key ∨ keys k) active hand (openQueues key s) := by
      refine ⟨openQueues_tallied resting.tallied known, resting.sound.insert key _,
        resting.unasked, resting.active, fun k => ?_⟩
      rw [← resting.keys k]
      exact SortedMap.mem_insert _
    have present : key ∈ (openQueues key s).idle := (SortedMap.mem_insert _).mpr (.inl rfl)
    simpa [addObject, ensureMinIdle, bind_apply, known] using growIdle_resting opened present
      (calculateMinIdleGrow config (openQueues key s) key).toNat

structure Opens (key : K) (s t : ConnectionPool K) : Prop where
  -- Adding a server leaves what is borrowed alone.
  busy : t.busy = s.busy ∨ t.busy = (openQueues key s).busy
  closed : t.closed = s.closed

theorem Opens.busyItems {t : ConnectionPool K} (opens : Opens key s t) (k : K) :
    t.busyItems k = s.busyItems k := by
  rcases opens.busy with same | opened
  · rw [ConnectionPool.busyItems, same, ConnectionPool.busyItems]
  rw [ConnectionPool.busyItems, opened, ConnectionPool.busyItems]
  simp only [openQueues]
  split
  · rfl
  · rename_i absent
    rw [SortedMap.get?_insert]
    split
    · rename_i here
      rw [here, s.busy.get?_eq_none.mpr absent]
      rfl
    · rfl

theorem Opens.mem_busy {t : ConnectionPool K} (opens : Opens key s t) {k : K}
    (listed : k ∈ s.busy) : k ∈ t.busy := by
  rcases opens.busy with same | opened
  · rwa [same]
  · rw [opened]
    simp only [openQueues]
    split
    · exact listed
    · exact (SortedMap.mem_insert _).mpr (.inr listed)

theorem growIdle_opens (key : K) (grown : Nat) (s : ConnectionPool K) :
    Meets (growIdle key grown s) (fun _ t => t.busy = s.busy ∧ t.closed = s.closed)
      (fun _ t => t.busy = s.busy ∧ t.closed = s.closed) := by
  induction grown generalizing s with
  | zero => exact ⟨rfl, rfl⟩
  | succ grown ih =>
    have one_more : Meets (makeIdle key s) (fun _ t => t.busy = s.busy ∧ t.closed = s.closed)
        (fun _ t => t.busy = s.busy ∧ t.closed = s.closed) := by
      rw [makeIdle, bind_apply, makeObject_eq]
      cases s.makes.head?.join with
      | some e => exact ⟨rfl, rfl⟩
      | none =>
        simp only [bind_apply, pushIdle, get_apply]
        cases s.idle.get? key with
        | none => exact ⟨rfl, rfl⟩
        | some entry => cases entry <;> exact ⟨rfl, rfl⟩
    refine one_more.bind ?_
    rintro - t ⟨busy, closed⟩
    rw [← busy, ← closed]
    exact ih t

theorem addObject_opens (config : Configuration) (key : K) (s : ConnectionPool K) :
    Meets (addObject config key s) (fun _ t => Opens key s t) (fun _ t => Opens key s t) := by
  by_cases known : key ∈ s.idle
  · simpa [addObject, bind_apply, known] using ⟨.inl rfl, rfl⟩
  · simp only [addObject, ensureMinIdle, bind_apply, get_apply, known, if_false, modify_apply]
    exact (growIdle_opens key _ (openQueues key s)).mono
      (fun _ _ same => ⟨.inr same.1, same.2⟩) fun _ _ same => ⟨.inr same.1, same.2⟩

theorem clear_busyItems (key : K) (s : ConnectionPool K) :
    Meets (clear key s) (fun _ t => ∀ k, t.busyItems k = s.busyItems k) (fun _ _ => False) := by
  simp only [clear, bind_apply, get_apply]
  cases s.idle.get? key with
  | none => exact fun _ => rfl
  | some entry => cases entry <;> exact fun _ => rfl

theorem clear_resting (resting : Resting keys active hand s) (known : keys key) :
    Meets (clear key s) (fun _ t => Resting (fun k => k ≠ key ∧ keys k) active hand t)
      (fun _ _ => False) := by
  obtain ⟨q, found⟩ := resting.sound.found ((resting.keys key).mpr known)
  have tallies := clear_tallied resting.tallied key
  simp only [clear, bind_apply, get_apply, found] at tallies ⊢
  refine ⟨tallies, resting.sound.erase key, resting.unasked, resting.active, fun k => ?_⟩
  rw [← resting.keys k]
  exact SortedMap.mem_erase _

end HotRod.Transport
