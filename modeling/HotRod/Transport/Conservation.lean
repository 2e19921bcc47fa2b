import HotRod.Semantics.Transition
import HotRod.Transport.Account

/-! Conservation of connections: what the factory has made is idle, busy,
destroyed, or in the hands of a borrower on its way from one to the other. -/

set_option autoImplicit false

namespace HotRod.Transport

open Semantics.Execution Semantics.Transition ConnectionPool

variable {K : Type} [LinearOrder K]

variable {s : ConnectionPool K} {hand : List Conn} {key : K} {obj : Conn} {config : Configuration}

def carried (borrowers : SortedMap Thread (Borrower K)) : List Conn :=
  borrowers.entries.filterMap fun e => e.2.obj

/-- Every connection ever made is in one queue, carried by one borrower, or
destroyed, and in one of these once. -/
def Conserved (s : System K) : Prop :=
  ∀ c, places c s.pool + (carried s.borrowers).count c = if c < s.pool.made then 1 else 0

omit [LinearOrder K] in
theorem count_carried (c : Conn) (borrowers : SortedMap Thread (Borrower K)) :
    (carried borrowers).count c = heldWeight (tag c) borrowers := by
  rw [carried, heldWeight, SortedMap.weight]
  induction borrowers.entries with
  | nil => rfl
  | cons e rest ih =>
    obtain ⟨thread, b⟩ := e
    have carrying : ∀ obj : Conn, (obj :: rest.filterMap fun e => e.2.obj).count c =
        (if obj = c then 1 else 0) + (rest.map fun e => e.2.load (tag c)).sum := fun obj => by
      rw [List.count_cons, ih, Nat.add_comm]
      simp
    cases b with
    | waiting key generation => exact ih.trans (Nat.zero_add _).symm
    | popped key generation obj => exact carrying obj
    | loaded key generation obj read => exact carrying obj
    | counted key generation obj => exact carrying obj

theorem Balanced.congr {hand' : List Conn} (balanced : Balanced s hand)
    (same : ∀ c, hand.count c = hand'.count c) :
    Balanced s hand' := fun c => same c ▸ balanced c

/-- The steps that dereference no null pointer: `clear` is called for known keys
only, and a hand-back that serves an allocation finds the queues it looks at. -/
def Defined (config : Configuration) (s : System K) : Action K → Prop
  | .giveBack key _ _ _ => Deliverable config s.pool ∧ (Serves config s.pool → key ∈ s.pool.idle)
  | .invalidate _ _ _ => Deliverable config s.pool
  | .clear key => key ∈ s.pool.idle
  | _ => True

/-- The steps that leave no connection behind: no `validateObject` raises, no
`makeObject` raises while a hand-back serves an allocation, and no last busy
connection of a cleared key is invalidated. -/
def Lossless (config : Configuration) (s : System K) : Action K → Prop
  | .borrow _ _ _ validates | .resume _ _ validates => Answered config.testOnBorrow validates
  | .giveBack _ _ makes verdict =>
    ¬ FailsToServe config s.pool makes ∧ Answered config.testOnReturn [verdict]
  | .invalidate key obj makes =>
    ¬ FailsToServe config s.pool makes ∧ (key ∈ s.pool.idle ∨ ∃ c ∈ s.pool.busyItems key, c ≠ obj)
  | _ => True

omit [LinearOrder K] in
theorem count_carried_erase (c : Conn) (borrowers : SortedMap Thread (Borrower K))
    (thread : Thread) :
    (carried (borrowers.erase thread)).count c + ((borrowers.get? thread).map
      (Borrower.load (tag c))).getD 0 =
      (carried borrowers).count c := by
  rw [count_carried, count_carried]
  exact heldWeight_erase

omit [LinearOrder K] in
theorem count_carried_insert (c : Conn) (borrowers : SortedMap Thread (Borrower K))
    (thread : Thread) (b : Borrower K) :
    (carried (borrowers.insert thread b)).count c +
      ((borrowers.get? thread).map (Borrower.load (tag c))).getD 0 =
      (carried borrowers).count c + b.load (tag c) := by
  rw [count_carried, count_carried]
  exact heldWeight_insert b

def SystemAccounts (clean : Prop) (lost : List Conn) (s : System K) : Prop :=
  Accounts clean (lost ++ carried s.borrowers) s.pool

theorem Kept.congr {hand' : List Conn} (kept : Kept hand s)
    (same : ∀ c, hand.count c = hand'.count c) : Kept hand' s :=
  ⟨kept.1, kept.2.congr same⟩

theorem Accounts.congr {hand' : List Conn} {clean : Prop} (accounts : Accounts clean hand s)
    (same : ∀ c, hand.count c = hand'.count c) : Accounts clean hand' s := by
  obtain ⟨sound, lost, balanced, none_lost⟩ := accounts
  exact ⟨sound, lost, balanced.congr fun c => by simp only [List.count_append, same c], none_lost⟩

theorem settle_accounts {borrowers : SortedMap Thread (Borrower K)} {thread : Thread}
    {lost : List Conn} {clean : Prop} {result : EStateM.Result Fault (ConnectionPool K) Borrowed}
    (meets : Meets result (fun _ t => Kept (lost ++ carried (borrowers.erase thread)) t)
      (fun _ t => Accounts clean (lost ++ carried (borrowers.erase thread)) t)) :
    SystemAccounts clean lost (settle borrowers thread key result) := by
  match result with
  | .ok (.object obj) pool => exact Kept.accounts meets clean
  | .error e pool => exact meets
  | .ok (.wait generation) pool =>
    refine (Kept.accounts meets clean).congr fun c => ?_
    have left := count_carried_erase c borrowers thread
    have waits := count_carried_insert c borrowers thread (.waiting key generation)
    simp only [Borrower.load] at waits
    simp only [settle, List.count_append]
    omega

theorem queueItems_eq_cons {generation : Nat} {rest : List Conn}
    (items : s.queueItems key generation = obj :: rest) :
    s.idle.get? key = some (some ⟨generation, obj :: rest⟩) := by
  unfold queueItems at items
  match found : s.idle.get? key with
  | some (some ⟨gen, held⟩) =>
    simp only [found] at items
    split at items
    · rename_i same
      subst same
      rw [items]
    · cases items
  | some none => simp [found] at items
  | none => simp [found] at items

/-! ### What a step does -/

section Steps

variable {s t : System K} {thread : Thread} {makes : List (Option Exn)}
  {validates : List (Except Exn Bool)} {verdict : Except Exn Bool}

theorem step_borrow (taken : step config s (.borrow thread key makes validates) = some t) :
    thread ∉ s.borrowers ∧
      t = settle s.borrowers thread key
        (borrowObject config key validates { s.pool with makes }) := by
  simp only [step, Option.ite_none_left_eq_some, Option.some.injEq] at taken
  exact ⟨taken.1, taken.2.symm⟩

theorem step_pop (taken : step config s (.pop thread) = some t) :
    ∃ key generation, s.borrowers.get? thread = some (.waiting key generation) ∧
      popIdle config s thread key generation = some t := by
  simp only [step] at taken
  split at taken
  · exact ⟨_, _, ‹_›, taken⟩
  · cases taken

theorem popIdle_cases {generation : Nat}
    (popped : popIdle config s thread key generation = some t) :
    (∃ obj rest, s.pool.idle.get? key = some (some ⟨generation, obj :: rest⟩) ∧
      t = {
        pool := { s.pool with idle := s.pool.idle.insert key (some ⟨generation, rest⟩) }
        borrowers := s.borrowers.insert thread (.popped key generation obj) }) ∨
    t = { s with borrowers := s.borrowers.erase thread } := by
  unfold popIdle at popped
  split at popped
  · cases popped
    exact .inl ⟨_, _, queueItems_eq_cons ‹_›, rfl⟩
  · split at popped
    · cases popped
      exact .inr rfl
    · cases popped

theorem step_load (taken : step config s (.load thread) = some t) :
    ∃ key generation obj, s.borrowers.get? thread = some (.popped key generation obj) ∧
      t = { s with
        borrowers := s.borrowers.insert thread
          (.loaded key generation obj s.pool.totalIdle) } := by
  simp only [step] at taken
  split at taken
  · cases taken
    exact ⟨_, _, _, ‹_›, rfl⟩
  · cases taken

theorem step_store {lost : Bool} (taken : step config s (.store thread lost) = some t) :
    ∃ key generation obj read, s.borrowers.get? thread = some (.loaded key generation obj read) ∧
      t = {
        pool := { s.pool with totalIdle := if lost then s.pool.totalIdle else read - 1 }
        borrowers := s.borrowers.insert thread (.counted key generation obj) } := by
  simp only [step] at taken
  split at taken
  · cases taken
    exact ⟨_, _, _, _, ‹_›, rfl⟩
  · cases taken

/-- The decrement is not overwritten, and overwrites nothing: `totalIdle` is as it was
when it was read. -/
def Fresh (s : System K) (thread : Thread) (lost : Bool) : Prop :=
  lost = false ∧ ∀ key generation obj read,
    s.borrowers.get? thread = some (.loaded key generation obj read) → read = s.pool.totalIdle

theorem step_store_of_fresh {lost : Bool} (fresh : Fresh s thread lost)
    (taken : step config s (.store thread lost) = some t) :
    ∃ key generation obj read, s.borrowers.get? thread = some (.loaded key generation obj read) ∧
      t = {
        pool := { s.pool with totalIdle := s.pool.totalIdle - 1 }
        borrowers := s.borrowers.insert thread (.counted key generation obj) } := by
  obtain ⟨key, generation, obj, read, found, rfl⟩ := step_store taken
  obtain ⟨rfl, same⟩ := fresh
  rw [← same key generation obj read found]
  exact ⟨key, generation, obj, read, found, rfl⟩

theorem step_resume (taken : step config s (.resume thread makes validates) = some t) :
    ∃ key generation obj, s.borrowers.get? thread = some (.counted key generation obj) ∧
      t = settle s.borrowers thread key
        (testLoop config key generation validates obj { s.pool with makes }) := by
  simp only [step] at taken
  split at taken
  · cases taken
    exact ⟨_, _, _, ‹_›, rfl⟩
  · cases taken

theorem step_giveBack (taken : step config s (.giveBack key obj makes verdict) = some t) :
    obj ∈ s.pool.busyItems key ∧
      t = { s with pool := final (returnObject config key obj verdict { s.pool with makes }) } := by
  simp only [step, Option.ite_none_right_eq_some, Option.some.injEq] at taken
  exact ⟨taken.1, taken.2.symm⟩

theorem step_invalidate (taken : step config s (.invalidate key obj makes) = some t) :
    obj ∈ s.pool.busyItems key ∧
      t = { s with
        pool := final (invalidateObject config key (some obj) { s.pool with makes }) } := by
  simp only [step, Option.ite_none_right_eq_some, Option.some.injEq] at taken
  exact ⟨taken.1, taken.2.symm⟩

theorem settle_others {borrowers : SortedMap Thread (Borrower K)} {other : Thread}
    (apart : other ≠ thread) (key : K)
    (result : EStateM.Result Fault (ConnectionPool K) Borrowed) :
    (settle borrowers thread key result).borrowers.get? other = borrowers.get? other := by
  have gone : (borrowers.erase thread).get? other = borrowers.get? other := by
    rw [SortedMap.get?_erase_of_ne _ apart]
  cases result with
  | ok outcome pool =>
    cases outcome with
    | object obj => exact gone
    | wait generation => exact SortedMap.get?_insert_of_ne _ _ apart
  | error e pool => exact gone

theorem step_waiting {action : Action K} {generation : Nat}
    (taken : step config s action = some t) (stays : action ≠ .pop thread)
    (found : s.borrowers.get? thread = some (.waiting key generation)) :
    t.borrowers.get? thread = some (.waiting key generation) := by
  cases action with
  | add key makes =>
    cases taken
    exact found
  | borrow other k makes validates =>
    obtain ⟨absent, rfl⟩ := step_borrow taken
    have apart : thread ≠ other := by
      rintro rfl
      exact absent (s.borrowers.mem_iff.mpr ⟨_, found⟩)
    exact (settle_others apart _ _).trans found
  | pop other =>
    obtain ⟨k, g, waiting, popped⟩ := step_pop taken
    have apart : thread ≠ other := by
      rintro rfl
      exact stays rfl
    obtain ⟨obj, rest, -, rfl⟩ | rfl := popIdle_cases popped
    · exact (SortedMap.get?_insert_of_ne _ _ apart).trans found
    · simp only [SortedMap.get?_erase, apart, if_false, found]
  | load other =>
    obtain ⟨k, g, obj, popped, rfl⟩ := step_load taken
    have apart : thread ≠ other := by
      rintro rfl
      rw [found] at popped
      cases popped
    exact (SortedMap.get?_insert_of_ne _ _ apart).trans found
  | store other lost =>
    obtain ⟨k, g, obj, read, loaded, rfl⟩ := step_store taken
    have apart : thread ≠ other := by
      rintro rfl
      rw [found] at loaded
      cases loaded
    exact (SortedMap.get?_insert_of_ne _ _ apart).trans found
  | resume other makes validates =>
    obtain ⟨k, g, obj, counted, rfl⟩ := step_resume taken
    have apart : thread ≠ other := by
      rintro rfl
      rw [found] at counted
      cases counted
    exact (settle_others apart _ _).trans found
  | giveBack k obj makes verdict =>
    obtain ⟨busy, rfl⟩ := step_giveBack taken
    exact found
  | invalidate k obj makes =>
    obtain ⟨busy, rfl⟩ := step_invalidate taken
    exact found
  | clear k =>
    cases taken
    exact found

end Steps

-- Only a counter changes, and the account reads none.
theorem Kept.carryOn {borrowers : SortedMap Thread (Borrower K)} {thread : Thread}
    {pool : ConnectionPool K} {lost : List Conn} (kept : Kept (lost ++ carried borrowers) pool)
    {b d : Borrower K} (found : borrowers.get? thread = some b)
    (same : ∀ w, d.load w = b.load w) (totalIdle : Int) :
    Kept (lost ++ carried (borrowers.insert thread d)) { pool with totalIdle } := by
  refine ⟨kept.1, fun c => ?_⟩
  have before := kept.2 c
  have carries := count_carried_insert c borrowers thread d
  simp only [found, Option.map_some, Option.getD_some, same] at carries
  simp only [places, List.count_append] at before ⊢
  omega

-- Each step that dereferences no null pointer keeps the account, and loses nothing if it is
-- lossless.
theorem step_accounts {s t : System K} (lost : List Conn) {action : Action K}
    (sound : NullFree s.pool.idle) (balanced : Balanced s.pool (lost ++ carried s.borrowers))
    (defined : Defined config s action) (taken : step config s action = some t) :
    SystemAccounts (Lossless config s action) lost t := by
  have kept : ∀ makes, Kept (lost ++ carried s.borrowers) { s.pool with makes } := fun _ =>
    ⟨sound, balanced⟩
  cases action with
  | add key makes =>
    cases taken
    exact (Meets.final (addObject_kept (kept makes))).accounts _
  | borrow thread key makes validates =>
    obtain ⟨absent, rfl⟩ := step_borrow taken
    -- the thread comes with empty hands
    have same : ∀ c, (carried (s.borrowers.erase thread)).count c =
        (carried s.borrowers).count c := fun c => by
      simpa [s.borrowers.get?_eq_none.mpr absent] using count_carried_erase c s.borrowers thread
    refine settle_accounts (borrowObject_accounts ((kept makes).congr fun c => ?_) validates)
    simp only [List.count_append, same c]
  | pop thread =>
    obtain ⟨key, generation, found, popped⟩ := step_pop taken
    obtain ⟨obj, rest, queue, rfl⟩ | rfl := popIdle_cases popped
    · -- the connection goes from the queue into the thread's hands
      refine Kept.accounts
        ⟨sound.insert key _, (balanced.poll queue generation).congr fun c => ?_⟩ _
      have carries := count_carried_insert c s.borrowers thread (.popped key generation obj)
      simp only [found, Option.map_some, Option.getD_some, Borrower.load, tag] at carries
      simp only [List.count_append, List.count_cons, beq_iff_eq]
      omega
    · refine Kept.accounts ⟨sound, balanced.congr fun c => ?_⟩ _
      have left := count_carried_erase c s.borrowers thread
      simp only [found, Option.map_some, Option.getD_some, Borrower.load] at left
      simp only [List.count_append]
      omega
  | load thread =>
    obtain ⟨key, generation, obj, found, rfl⟩ := step_load taken
    have carries := Kept.carryOn ⟨sound, balanced⟩ found
      (d := .loaded key generation obj s.pool.totalIdle) (fun _ => rfl) s.pool.totalIdle
    exact carries.accounts _
  | store thread missed =>
    obtain ⟨key, generation, obj, read, found, rfl⟩ := step_store taken
    have carries := Kept.carryOn ⟨sound, balanced⟩ found (d := .counted key generation obj)
      (fun _ => rfl) (if missed then s.pool.totalIdle else read - 1)
    exact carries.accounts _
  | resume thread makes validates =>
    obtain ⟨key, generation, obj, found, rfl⟩ := step_resume taken
    -- the section starts with the connection the thread was holding
    refine settle_accounts (testLoop_accounts ((kept makes).congr fun c => ?_) generation validates)
    have left := count_carried_erase c s.borrowers thread
    simp only [found, Option.map_some, Option.getD_some, Borrower.load, tag] at left
    simp only [List.count_append, List.count_cons, beq_iff_eq]
    omega
  | giveBack key obj makes verdict =>
    obtain ⟨busy, rfl⟩ := step_giveBack taken
    exact Meets.final ((returnObject_accounts (kept makes) busy defined.1 defined.2 verdict).mono
      (fun _ _ kept => kept.accounts _) fun _ _ => id)
  | invalidate key obj makes =>
    obtain ⟨busy, rfl⟩ := step_invalidate taken
    exact Meets.final ((invalidateObject_accounts (kept makes) busy defined).mono
      (fun _ _ kept => kept.accounts _) fun _ _ => id)
  | clear key =>
    cases taken
    have cleared : Kept (lost ++ carried s.borrowers) (final (clear key s.pool)) :=
      Meets.final ((clear_kept ⟨sound, balanced⟩ defined).mono (fun _ _ => id)
        (fun _ _ => False.elim))
    exact cleared.accounts _

/-- In every run of the pool whose steps dereference no null pointer and leave no
connection behind, connections are conserved in every state. -/
theorem connections_conserved (config : Configuration) (actions : List (Action K)) {s : System K}
    (guarded : Guarded (step config)
      (fun s action => Defined config s action ∧ Lossless config s action) {} actions)
    (reached : run (step config) {} actions = some s) : Conserved s := by
  -- the sections dereference queues, so the invariant also says that no entry is null
  have account : NullFree s.pool.idle ∧ Balanced s.pool (carried s.borrowers) := by
    refine run_invariant
      (fun s : System K => NullFree s.pool.idle ∧ Balanced s.pool (carried s.borrowers))
      ?_ ?_ guarded reached
    · refine ⟨fun key found => ?_, fun c => ?_⟩
      · cases found
      · rfl
    · rintro s action t ⟨sound, balanced⟩ ⟨defined, lossless⟩ taken
      obtain ⟨sound', lost, balanced', none_lost⟩ := step_accounts [] sound balanced defined taken
      rw [none_lost lossless] at balanced'
      exact ⟨sound', balanced'⟩
  exact account.2

-- A connection is returned to a pool that validates it, and the ping raises.
def lossyReturn : List (Action Nat) :=
  [.add 0 [], .borrow 0 0 [] [],
    .giveBack 0 0 [] (.error (.transport "127.0.0.1" 11222 "connection reset"))]

/-- The connection is in no queue and is not destroyed. -/
theorem connection_lost :
    ∃ s, run (step { testOnReturn := true }) ({} : System Nat) lossyReturn = some s ∧
      ¬ Conserved s := by
  refine ⟨_, rfl, fun conserved => ?_⟩
  have once := conserved 0
  revert once
  decide

theorem connections_conserved_return :
    ∃ s, run (step { testOnReturn := true }) ({} : System Nat)
      [.add 0 [], .borrow 0 0 [] [], .giveBack 0 0 [] (.ok true)] = some s ∧ Conserved s := by
  refine ⟨_, rfl, connections_conserved { testOnReturn := true }
    [.add 0 [], .borrow 0 0 [] [], .giveBack 0 0 [] (.ok true)] ?_ rfl⟩
  apply Guarded.cons rfl ⟨trivial, trivial⟩
  refine Guarded.cons rfl ⟨trivial, ?_⟩ ?_
  · intro _ verdict member
    cases member
  refine Guarded.cons rfl ⟨⟨?_, ?_⟩, ?_, ?_⟩ trivial
  · rintro ⟨reached, -⟩
    cases reached
  · rintro ⟨reached, -⟩
    cases reached
  · rintro ⟨⟨reached, -⟩, -⟩
    cases reached
  · intro _ verdict member
    exact ⟨true, List.mem_singleton.mp member⟩

end HotRod.Transport
