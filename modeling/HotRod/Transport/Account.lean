import HotRod.Transport.Inventory
import HotRod.Transport.Scan

/-! The account of connections inside one section of the pool.

`Balanced s hand` says where every connection is in the middle of a section,
with those its local variables refer to in `hand`. A section that raises may
leave such a connection behind; `Accounts` says under which condition it does
not. -/

set_option autoImplicit false

namespace HotRod.Transport

open Semantics.Execution ConnectionPool

variable {K : Type} [LinearOrder K]

def tag (c : Conn) : Weight K := fun _ d => if d = c then 1 else 0

/-- How often a connection is in the pool's queues or has been destroyed. -/
def places (c : Conn) (s : ConnectionPool K) : Nat :=
  idleWeight (tag c) s.idle + busyWeight (tag c) s.busy + s.destroyed.count c

/-- Each connection made so far is held once, counting those in hand. -/
def Balanced (s : ConnectionPool K) (hand : List Conn) : Prop :=
  ∀ c, places c s + hand.count c = if c < s.made then 1 else 0

/-- No idle entry is a null pointer. -/
def NullFree (idle : SortedMap K (Option IdleQueue)) : Prop := ∀ key, idle.get? key ≠ some none

variable {s : ConnectionPool K} {hand : List Conn} {key : K} {obj : Conn} {config : Configuration}

omit [LinearOrder K] in
@[simp] theorem sum_tag (c : Conn) (key : K) (items : List Conn) :
    (items.map (tag c key)).sum = items.count c := by
  induction items with
  | nil => rfl
  | cons d rest ih => simp [tag, List.count_cons, Nat.add_comm, ← ih]

theorem NullFree.found {idle : SortedMap K (Option IdleQueue)} (sound : NullFree idle)
    (member : key ∈ idle) :
    ∃ q, idle.get? key = some (some q) := by
  obtain ⟨entry, found⟩ := idle.mem_iff.mp member
  cases entry with
  | none => exact absurd found (sound key)
  | some q => exact ⟨q, found⟩

theorem NullFree.insert {idle : SortedMap K (Option IdleQueue)} (sound : NullFree idle) (key : K)
    (q : IdleQueue) :
    NullFree (idle.insert key (some q)) := by
  intro k found
  rw [SortedMap.get?_insert] at found
  split at found
  · cases found
  · exact sound k found

theorem NullFree.erase {idle : SortedMap K (Option IdleQueue)} (sound : NullFree idle) (key : K) :
    NullFree (idle.erase key) := by
  intro k found
  rw [SortedMap.get?_erase] at found
  split at found
  · cases found
  · exact sound k found

/-! ### The account under each primitive -/

theorem Balanced.make (balanced : Balanced s hand) (makes : List (Option Exn)) :
    Balanced { s with makes, made := s.made + 1 } (s.made :: hand) := by
  intro c
  have before : places c s + hand.count c = _ := balanced c
  change places c s + (s.made :: hand).count c = if c < s.made + 1 then 1 else 0
  rw [List.count_cons]
  by_cases here : s.made = c
  · subst here
    simp at before ⊢
    omega
  · have same : c < s.made + 1 ↔ c < s.made :=
      Nat.lt_succ_iff.trans ⟨fun le => lt_of_le_of_ne le (Ne.symm here), le_of_lt⟩
    simp only [same, beq_iff_eq, here, if_false]
    omega

theorem Balanced.destroy (balanced : Balanced s (obj :: hand)) :
    Balanced { s with destroyed := s.destroyed ++ [obj] } hand := by
  intro c
  have before := balanced c
  simp only [places, List.count_cons, List.count_append, List.count_nil] at before ⊢
  omega

theorem Balanced.push (balanced : Balanced s (obj :: hand)) {q : IdleQueue}
    (found : s.idle.get? key = some (some q)) :
    Balanced { s with idle := s.idle.insert key (some { q with items := q.items ++ [obj] }) }
      hand := by
  intro c
  have before := balanced c
  simp only [places, List.count_cons, beq_iff_eq] at before ⊢
  rw [idleWeight_push found, tag]
  omega

theorem Balanced.poll (balanced : Balanced s hand) {generation : Nat} {rest : List Conn}
    (found : s.idle.get? key = some (some ⟨generation, obj :: rest⟩)) (generation' : Nat) :
    Balanced { s with idle := s.idle.insert key (some ⟨generation', rest⟩) } (obj :: hand) := by
  intro c
  have before := balanced c
  have taken := idleWeight_poll (w := tag c) found generation'
  simp only [tag] at taken
  simp only [places, List.count_cons, beq_iff_eq] at before ⊢
  omega

theorem Balanced.register (balanced : Balanced s (obj :: hand)) (totalActive : Int) :
    Balanced { s with busy := s.busy.insert key (s.busyItems key ++ [obj]), totalActive } hand := by
  intro c
  have before := balanced c
  simp only [places, busyItems, List.count_cons, beq_iff_eq] at before ⊢
  rw [busyWeight_push, tag]
  omega

theorem Balanced.le_one (balanced : Balanced s hand) (c : Conn) :
    places c s + hand.count c ≤ 1 := by
  rw [balanced c]
  split <;> omega

theorem Balanced.count_busyItems (balanced : Balanced s hand) (busy : obj ∈ s.busyItems key) :
    (s.busyItems key).count obj = 1 := by
  have once := balanced obj
  have bound := sum_busy_le (tag obj) s.busy key
  have listed : 0 < (s.busyItems key).count obj := List.count_pos_iff.mpr busy
  simp only [sum_tag, places, busyItems] at once bound listed ⊢
  split at once <;> omega

theorem Balanced.unregister (balanced : Balanced s hand) (busy : obj ∈ s.busyItems key)
    (totalActive : Int) :
    Balanced { s with busy := s.busy.insert key ((s.busyItems key).filter (· ≠ obj)), totalActive }
      (obj :: hand) := by
  intro c
  have before := balanced c
  have removed := busyWeight_remove (tag c) s.busy key obj
  have once := balanced.count_busyItems busy
  simp only [busyItems] at once
  simp only [once, tag, Nat.one_mul] at removed
  simp only [places, busyItems, List.count_cons, beq_iff_eq] at before ⊢
  omega

/-! ### The account of each section -/

/-- The state after a section that keeps the account and loses nothing. -/
def Kept (hand : List Conn) (s : ConnectionPool K) : Prop := NullFree s.idle ∧ Balanced s hand

theorem makeObject_kept (kept : Kept hand s) :
    Meets (makeObject s)
      (fun obj t => Kept (obj :: hand) t ∧ t.idle = s.idle)
      (fun _ t => Kept hand t ∧ ∃ e, s.makes.head? = some (some e)) := by
  rw [makeObject_eq]
  cases planned : s.makes.head?.join with
  | none => exact ⟨⟨kept.1, kept.2.make _⟩, rfl⟩
  | some e => exact ⟨kept, e, Option.join_eq_some_iff.mp planned⟩

theorem pushIdle_kept (kept : Kept (obj :: hand) s) (known : key ∈ s.idle) :
    Meets (pushIdle key obj s) (fun _ t => Kept hand t ∧ ∀ k, k ∈ s.idle → k ∈ t.idle)
      (fun _ _ => False) := by
  obtain ⟨q, found⟩ := kept.1.found known
  rw [pushIdle_eq found]
  exact ⟨⟨kept.1.insert key _, kept.2.push found⟩, fun k member =>
    (SortedMap.mem_insert _).mpr (.inr member)⟩

theorem makeIdle_kept (kept : Kept hand s) (known : key ∈ s.idle) :
    Meets (makeIdle key s) (fun _ t => Kept hand t ∧ ∀ k, k ∈ s.idle → k ∈ t.idle)
      (fun _ t => Kept hand t ∧ ∃ e, s.makes.head? = some (some e)) := by
  refine (makeObject_kept kept).bind ?_
  rintro obj t ⟨made, same⟩
  rw [← same] at known ⊢
  refine ((pushIdle_kept made known).mono (fun _ _ => id) (fun _ _ => False.elim)).bind ?_
  rintro - u ⟨pushed, keys⟩
  exact ⟨pushed, keys⟩

theorem growIdle_kept (kept : Kept hand s) (known : key ∈ s.idle) (grown : Nat) :
    Meets (growIdle key grown s) (fun _ t => Kept hand t) (fun _ t => Kept hand t) := by
  induction grown generalizing s with
  | zero => exact kept
  | succ grown ih =>
    refine ((makeIdle_kept kept known).mono (fun _ _ => id) (fun _ _ failed => failed.1)).bind ?_
    rintro - t ⟨kept, keys⟩
    exact ih kept (keys key known)

theorem openQueues_kept (kept : Kept hand s) (unknown : key ∉ s.idle) :
    Kept hand (openQueues key s) := by
  refine ⟨kept.1.insert key _, fun c => ?_⟩
  have before := kept.2 c
  simp only [places, openQueues] at before ⊢
  rw [idleWeight_add unknown]
  split
  · exact before
  · rename_i absent
    have exchanged := busyWeight_insert (w := tag c) s.busy key []
    simp only [s.busy.get?_eq_none.mpr absent, Option.getD_none, sum_tag, List.count_nil,
      Nat.add_zero] at exchanged
    rw [exchanged]
    exact before

theorem addObject_kept (kept : Kept hand s) :
    Meets (addObject config key s) (fun _ t => Kept hand t) (fun _ t => Kept hand t) := by
  by_cases known : key ∈ s.idle
  · simpa [addObject, bind_apply, known] using kept
  · have opened : key ∈ (openQueues key s).idle := (SortedMap.mem_insert _).mpr (.inl rfl)
    simpa [addObject, ensureMinIdle, bind_apply, known] using growIdle_kept
      (openQueues_kept kept known) opened _

theorem NullFree.entries {idle : SortedMap K (Option IdleQueue)} (sound : NullFree idle) :
    ∀ e ∈ idle.entries, e.2 ≠ none := by
  rintro ⟨k, entry⟩ member rfl
  exact sound k (idle.get?_eq_some.mpr member)

theorem pollIdle_cases (sound : NullFree s.idle) (key : K) :
    (∃ generation obj rest, s.idle.get? key = some (some ⟨generation, obj :: rest⟩) ∧
      pollIdle key s = .ok (some obj)
        { s with idle := s.idle.insert key (some ⟨generation, rest⟩) }) ∨
    pollIdle key s = .ok none s := by
  rcases entry : s.idle.get? key with _ | _ | ⟨generation, _ | ⟨obj, rest⟩⟩
  · exact .inr (by simp [pollIdle, bind_apply, entry])
  · exact absurd entry (sound key)
  · exact .inr (pollIdle_of_nil entry)
  · exact .inl ⟨generation, obj, rest, rfl, pollIdle_of_cons entry⟩

theorem pollIdle_kept (kept : Kept hand s) (key : K) :
    Meets (pollIdle key s) (fun found t => Kept (found.toList ++ hand) t) (fun _ _ => False) := by
  obtain ⟨generation, obj, rest, entry, polled⟩ | polled := pollIdle_cases kept.1 key
  · rw [polled]
    exact ⟨kept.1.insert key _, kept.2.poll entry generation⟩
  · rw [polled]
    exact kept

theorem tryRemoveIdle_kept (kept : Kept hand s) :
    Meets (tryRemoveIdle config s) (fun _ t => Kept hand t) (fun _ _ => False) := by
  obtain ⟨found, scan⟩ := keyToRemove_of_nullFree config kept.1.entries none 0
  rw [tryRemoveIdle, bind_apply]
  simp only [get_apply, scan]
  cases found with
  | none => exact kept
  | some key =>
    refine (pollIdle_kept kept key).bind ?_
    intro polled t taken
    cases polled with
    | none => exact taken
    | some obj => exact ⟨taken.1, Balanced.destroy taken.2⟩

theorem canCreate_kept (kept : Kept hand s) (generation : Nat) :
    Meets (canCreate config key generation s) (fun _ t => Kept hand t) (fun _ _ => False) := by
  simp only [canCreate, bind_apply, get_apply]
  split
  · split
    · exact kept
    · refine (tryRemoveIdle_kept kept).bind ?_
      intro removed t kept
      cases removed <;> exact kept
  · exact kept

theorem createObject_kept (kept : Kept hand s) (generation : Nat) :
    Meets (createObject config key generation s) (fun found t => Kept (found.toList ++ hand) t)
      (fun _ t => Kept hand t) := by
  refine ((canCreate_kept kept generation).mono (fun _ _ => id) (fun _ _ => False.elim)).bind ?_
  intro create t kept
  cases create with
  | false => exact kept
  | true =>
    refine ((makeObject_kept kept).mono (fun _ _ => id) fun _ _ failed => failed.1).bind ?_
    rintro obj u ⟨made, -⟩
    exact made

-- The verdicts a section may ask for, and that none of them is an exception.
def Answered (asks : Bool) (validates : List (Except Exn Bool)) : Prop :=
  asks = true → ∀ verdict ∈ validates, ∃ valid, verdict = .ok valid

/-- The outcome of a section: nothing is lost when `clean` holds, and in any case
what is lost was in hand. -/
def Accounts (clean : Prop) (hand : List Conn) (s : ConnectionPool K) : Prop :=
  NullFree s.idle ∧ ∃ lost, Balanced s (lost ++ hand) ∧ (clean → lost = [])

theorem Kept.accounts (kept : Kept hand s) (clean : Prop) : Accounts clean hand s :=
  ⟨kept.1, [], kept.2, fun _ => rfl⟩

theorem Kept.accounts_lost (lost : List Conn) (kept : Kept (lost ++ hand) s) {clean : Prop}
    (unclean : ¬ clean) :
    Accounts clean hand s := ⟨kept.1, lost, kept.2, fun holds => absurd holds unclean⟩

-- The borrow loop registers, destroys or waits; only an exception of `validateObject` leaves the
-- connection in hand behind.
theorem testLoop_accounts (kept : Kept (obj :: hand) s) (generation : Nat)
    (validates : List (Except Exn Bool)) :
    Meets (testLoop config key generation validates obj s) (fun _ t => Kept hand t)
      (fun _ t => Accounts (Answered config.testOnBorrow validates) hand t) := by
  induction validates generalizing obj s with
  | nil => exact ⟨kept.1, kept.2.register _⟩
  | cons verdict rest ih =>
    simp only [testLoop]
    split
    · rename_i tests
      cases verdict with
      | error e =>
        refine Kept.accounts_lost [obj] kept fun answered => ?_
        obtain ⟨valid, same⟩ := answered tests _ List.mem_cons_self
        cases same
      | ok valid =>
        cases valid with
        | true => exact ⟨kept.1, kept.2.register _⟩
        | false =>
          have destroyed : Kept hand { s with destroyed := s.destroyed ++ [obj] } :=
            ⟨kept.1, kept.2.destroy⟩
          have weaken : ∀ t : ConnectionPool K, Accounts (Answered config.testOnBorrow rest)
            hand t →
              Accounts (Answered config.testOnBorrow (.ok false :: rest)) hand t := by
            rintro t ⟨sound, lost, balanced, clean⟩
            exact ⟨sound, lost, balanced, fun answered =>
              clean fun tests verdict member => answered tests verdict
                (List.mem_cons_of_mem _ member)⟩
          refine ((createObject_kept destroyed generation).mono (fun _ _ => id) fun _ _ failed =>
            failed.accounts _).bind ?_
          intro found t kept
          cases found with
          | none => exact kept
          | some obj => exact (ih kept).mono (fun _ _ => id) fun _ t => weaken t
    · exact ⟨kept.1, kept.2.register _⟩

theorem borrowFrom_accounts (kept : Kept hand s) (generation : Nat)
    (validates : List (Except Exn Bool)) :
    Meets (borrowFrom config key generation validates s) (fun _ t => Kept hand t)
      (fun _ t => Accounts (Answered config.testOnBorrow validates) hand t) := by
  refine ((pollIdle_kept kept key).mono (fun _ _ => id) (fun _ _ => False.elim)).bind ?_
  intro polled t taken
  cases polled with
  | some obj =>
    exact testLoop_accounts (s := { t with totalIdle := t.totalIdle - 1 }) taken generation
      validates
  | none =>
    refine ((createObject_kept taken generation).mono (fun _ _ => id) fun _ _ failed =>
      failed.accounts _).bind ?_
    intro found u kept
    cases found with
    | none => exact kept
    | some obj => exact testLoop_accounts kept generation validates

theorem borrowObject_accounts (kept : Kept hand s) (validates : List (Except Exn Bool)) :
    Meets (borrowObject config key validates s) (fun _ t => Kept hand t)
      (fun _ t => Accounts (Answered config.testOnBorrow validates) hand t) := by
  simp only [borrowObject, bind_apply, get_apply]
  by_cases closed : s.closed = true
  · rw [if_pos closed]
    exact kept.accounts _
  rw [if_neg closed]
  by_cases unknown : key ∉ s.idle ∨ key ∉ s.busy
  · rw [if_pos unknown]
    exact kept.accounts _
  rw [if_neg unknown]
  obtain ⟨q, found⟩ := kept.1.found (not_not.mp (not_or.mp unknown).1)
  simp only [found]
  exact borrowFrom_accounts kept q.generation validates

def Serves (config : Configuration) (s : ConnectionPool K) : Prop :=
  s.hasReachedMaxTotal config = true ∧ s.allocationQueue ≠ []

theorem allocatePending_eq {first : K} {rest : List K} (queue : s.allocationQueue = first :: rest) :
    allocatePending true s = (makeIdle first >>= fun _ => pure true)
      { s with allocationQueue := rest } := by
  simp [allocatePending, bind_apply, map_apply, queue]

theorem allocatePending_kept (kept : Kept hand s) (reached : Bool)
    (known : reached = true → ∀ k ∈ s.allocationQueue.head?, k ∈ s.idle) :
    Meets (allocatePending reached s)
      (fun served t => Kept hand t ∧ (∀ k, k ∈ s.idle → k ∈ t.idle) ∧
        (served = true → reached = true ∧ s.allocationQueue ≠ []))
      (fun _ t => Kept hand t ∧ reached = true ∧ s.allocationQueue ≠ [] ∧ ∃ e,
        s.makes.head? = some (some e)) := by
  cases reached with
  | false => exact ⟨kept, fun _ => id, fun served => by cases served⟩
  | true =>
    cases queue : s.allocationQueue with
    | nil => simpa [allocatePending, bind_apply, queue] using kept
    | cons first rest =>
      have present : first ∈ s.idle := known rfl first (by simp [queue])
      rw [allocatePending_eq queue]
      refine ((makeIdle_kept (s := { s with allocationQueue := rest }) kept present).mono
        (fun _ _ => id)
        fun _ _ failed => ⟨failed.1, rfl, List.cons_ne_nil _ _, failed.2⟩).bind ?_
      rintro - t ⟨kept, keys⟩
      exact ⟨kept, keys, fun _ => ⟨rfl, List.cons_ne_nil _ _⟩⟩

/-- What a hand-back must meet to run without a null pointer. -/
def Deliverable (config : Configuration) (s : ConnectionPool K) : Prop :=
  Serves config s → ∀ k ∈ s.allocationQueue.head?, k ∈ s.idle

theorem Deliverable.known (deliverable : Deliverable config s) :
    s.hasReachedMaxTotal config = true → ∀ k ∈ s.allocationQueue.head?, k ∈ s.idle := by
  intro reached k first
  refine deliverable ⟨reached, ?_⟩ k first
  intro empty
  rw [empty] at first
  cases first

/-- `makeObject` fails for the allocation a hand-back serves. -/
def FailsToServe (config : Configuration) (s : ConnectionPool K) (makes : List (Option Exn)) :
    Prop :=
  Serves config s ∧ ∃ e, makes.head? = some (some e)

theorem mem_busy_of_item (busy : obj ∈ s.busyItems key) : key ∈ s.busy := by
  refine s.busy.mem_iff.mpr ?_
  cases found : s.busy.get? key with
  | none => simp [busyItems, found] at busy
  | some items => exact ⟨items, rfl⟩

def unregistered (key : K) (obj : Conn) (s : ConnectionPool K) : ConnectionPool K :=
  { s with
    busy := s.busy.insert key ((s.busyItems key).filter (· ≠ obj))
    totalActive := s.totalActive - 1 }

theorem unregistered_kept (kept : Kept hand s) (busy : obj ∈ s.busyItems key) :
    Kept (obj :: hand) (unregistered key obj s) := ⟨kept.1, kept.2.unregister busy _⟩

theorem unregistered_kept_of_absent (kept : Kept hand s) (absent : obj ∉ s.busyItems key) :
    Kept hand (unregistered key obj s) := by
  refine ⟨kept.1, fun c => ?_⟩
  have removed := busyWeight_remove (tag c) s.busy key obj
  have unlisted : ((s.busy.get? key).getD []).count obj = 0 := List.count_eq_zero.mpr absent
  rw [unlisted, Nat.zero_mul, Nat.add_zero] at removed
  have same : places c (unregistered key obj s) = places c s := by
    simp only [places, unregistered, busyItems, removed]
  exact same.symm ▸ kept.2 c

theorem checkDrained_spec (key : K) (sound : NullFree s.idle) :
    Meets (checkDrained key s) (fun _ t => t = s)
      (fun _ t => t = s ∧ ¬ (key ∈ s.idle ∨ s.busyItems key ≠ [])) := by
  simp only [checkDrained, bind_apply, get_apply]
  split
  · rename_i drained
    match found : s.idle.get? key with
    | none =>
      refine ⟨rfl, ?_⟩
      rintro (known | left)
      · exact s.idle.get?_eq_none.mp found known
      · exact left drained
    | some none => exact absurd found (sound key)
    | some (some q) => rfl
  · rfl

theorem invalidateObject_eq (listed : key ∈ s.busy) :
    invalidateObject config key (some obj) s =
      (checkDrained key >>= fun _ => allocatePending (s.hasReachedMaxTotal config) >>= fun _ =>
        destroyObject obj)
        (unregistered key obj s) := by
  simp [invalidateObject, unregister, unregistered, bind_apply, listed]

theorem invalidateObject_kept (config : Configuration)
    (inHand : Kept (obj :: hand) (unregistered key obj s))
    (listed : key ∈ s.busy) (deliverable : Deliverable config s) :
    Meets (invalidateObject config key (some obj) s) (fun _ t => Kept hand t)
      (fun _ t => Kept (obj :: hand) t ∧ ¬ (¬ FailsToServe config s s.makes ∧
        (key ∈ s.idle ∨ ∃ c ∈ s.busyItems key, c ≠ obj))) := by
  rw [invalidateObject_eq listed]
  refine ((checkDrained_spec key inHand.1).mono (fun _ _ => id) ?_).bind ?_
  · rintro - t ⟨rfl, drained⟩
    refine ⟨inHand, fun clean => drained ?_⟩
    refine clean.2.imp id ?_
    rintro ⟨c, member, distinct⟩ empty
    have kept : c ∈ (unregistered key obj s).busyItems key := by
      simpa [busyItems, unregistered, distinct] using member
    rw [empty] at kept
    cases kept
  · rintro - t rfl
    refine ((allocatePending_kept inHand _ deliverable.known).mono (fun _ _ => id) ?_).bind ?_
    · rintro - t ⟨kept, reached, pending, failing⟩
      exact ⟨kept, fun clean => clean.1 ⟨⟨reached, pending⟩, failing⟩⟩
    · rintro - t ⟨kept, -⟩
      exact ⟨kept.1, kept.2.destroy⟩

theorem invalidateObject_accounts (kept : Kept hand s) (busy : obj ∈ s.busyItems key)
    (deliverable : Deliverable config s) :
    Meets (invalidateObject config key (some obj) s) (fun _ t => Kept hand t)
      (fun _ t => Accounts (¬ FailsToServe config s s.makes ∧
        (key ∈ s.idle ∨ ∃ c ∈ s.busyItems key, c ≠ obj))
        hand t) :=
  (invalidateObject_kept config (unregistered_kept kept busy) (mem_busy_of_item busy)
    deliverable).mono (fun _ _ => id) fun _ _ failed => Kept.accounts_lost [obj] failed.1 failed.2

theorem validateReturned_spec (verdict : Except Exn Bool) :
    Meets (validateReturned config verdict s) (fun _ t => t = s)
      (fun _ t => t = s ∧ ¬ Answered config.testOnReturn [verdict]) := by
  simp only [validateReturned, bind_apply, get_apply]
  split
  · rfl
  · split
    · rename_i tests
      match verdict with
      | .ok valid => rfl
      | .error e =>
        refine ⟨rfl, fun answered => ?_⟩
        obtain ⟨valid, same⟩ := answered tests _ List.mem_cons_self
        cases same
    · rfl

theorem probeIdle_spec (sound : NullFree s.idle) {served : Bool}
    (known : served = true → key ∈ s.idle) :
    Meets (probeIdle key served s) (fun _ t => t = s) (fun _ _ => False) := by
  cases served with
  | false => rfl
  | true =>
    obtain ⟨q, found⟩ := sound.found (known rfl)
    simp [probeIdle, bind_apply, found]

theorem offerOrDestroy_kept (kept : Kept (obj :: hand) s) (ok : Bool) :
    Meets (offerOrDestroy key obj ok s) (fun _ t => Kept hand t) (fun _ _ => False) := by
  simp only [offerOrDestroy, bind_apply, get_apply]
  split
  · rename_i offered
    refine (pushIdle_kept kept offered.2).bind ?_
    rintro - t ⟨pushed, -⟩
    exact pushed
  · exact ⟨kept.1, kept.2.destroy⟩

theorem returnObject_eq (listed : key ∈ s.busy) (verdict : Except Exn Bool) :
    returnObject config key obj verdict s =
      (validateReturned config verdict >>= fun valid =>
        allocatePending (s.hasReachedMaxTotal config) >>= fun served =>
        probeIdle key served >>= fun _ => offerOrDestroy key obj (valid && !served))
          (unregistered key obj s) := by
  simp [returnObject, unregister, unregistered, bind_apply, listed]

theorem returnObject_kept (config : Configuration)
    (inHand : Kept (obj :: hand) (unregistered key obj s))
    (listed : key ∈ s.busy) (deliverable : Deliverable config s)
    (served : Serves config s → key ∈ s.idle) (verdict : Except Exn Bool) :
    Meets (returnObject config key obj verdict s) (fun _ t => Kept hand t)
      (fun _ t => Kept (obj :: hand) t ∧ ¬ (¬ FailsToServe config s s.makes ∧
        Answered config.testOnReturn [verdict])) := by
  rw [returnObject_eq listed]
  refine ((validateReturned_spec verdict).mono (fun _ _ => id) ?_).bind ?_
  · rintro - t ⟨rfl, unanswered⟩
    exact ⟨inHand, fun clean => unanswered clean.2⟩
  rintro valid t rfl
  refine ((allocatePending_kept inHand _ deliverable.known).mono (fun _ _ => id) ?_).bind ?_
  · rintro - t ⟨kept, reached, pending, failing⟩
    exact ⟨kept, fun clean => clean.1 ⟨⟨reached, pending⟩, failing⟩⟩
  rintro done t ⟨kept, keys, serving⟩
  refine ((probeIdle_spec kept.1 fun yes => keys key (served (serving yes))).mono (fun _ _ => id)
    (fun _ _ => False.elim)).bind ?_
  rintro - u rfl
  exact (offerOrDestroy_kept kept _).mono (fun _ _ => id) (fun _ _ => False.elim)

theorem returnObject_accounts (kept : Kept hand s) (busy : obj ∈ s.busyItems key)
    (deliverable : Deliverable config s) (served : Serves config s → key ∈ s.idle)
    (verdict : Except Exn Bool) :
    Meets (returnObject config key obj verdict s) (fun _ t => Kept hand t)
      (fun _ t => Accounts (¬ FailsToServe config s s.makes ∧
        Answered config.testOnReturn [verdict]) hand t) :=
  (returnObject_kept config (unregistered_kept kept busy) (mem_busy_of_item busy) deliverable served
    verdict).mono (fun _ _ => id) fun _ _ failed => Kept.accounts_lost [obj] failed.1 failed.2

theorem clear_kept (kept : Kept hand s) (known : key ∈ s.idle) :
    Meets (clear key s) (fun _ t => Kept hand t) (fun _ _ => False) := by
  obtain ⟨q, found⟩ := kept.1.found known
  simp only [clear, bind_apply, get_apply, found]
  refine ⟨kept.1.erase key, fun c => ?_⟩
  have before := kept.2 c
  have removed := idleWeight_erase (w := tag c) found
  simp only [sum_tag, places, List.count_append] at before removed ⊢
  omega

theorem places_clearAll (c : Conn) (s : ConnectionPool K) :
    places c s.clearAll = places c s := by
  have idle : (s.idle.entries.flatMap fun e => e.2.elim [] IdleQueue.items).count c =
      idleWeight (tag c) s.idle := by
    rw [List.count_flatMap, idleWeight, SortedMap.weight]
    refine congrArg List.sum (List.map_congr_left ?_)
    rintro ⟨k, q⟩ -
    cases q with
    | none => rfl
    | some q => exact (sum_tag c k q.items).symm
  have busy : (s.busy.entries.flatMap Prod.snd).count c = busyWeight (tag c) s.busy := by
    rw [List.count_flatMap, busyWeight, SortedMap.weight]
    exact congrArg List.sum (List.map_congr_left fun e _ => (sum_tag c e.1 e.2).symm)
  have empty : idleWeight (tag c) (SortedMap.empty : SortedMap K (Option IdleQueue)) = 0 ∧
      busyWeight (tag c) (SortedMap.empty : SortedMap K (List Conn)) = 0 := ⟨rfl, rfl⟩
  simp only [places, ConnectionPool.clearAll, List.count_append]
  omega

theorem Balanced.clearAll (balanced : Balanced s hand) : Balanced s.clearAll hand :=
  fun c => (places_clearAll c s).symm ▸ balanced c

end HotRod.Transport
