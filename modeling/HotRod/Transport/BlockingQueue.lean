import HotRod.Exceptions
import HotRod.Semantics.Monitors

/-! `BlockingQueue`, with its mutex and its condition variable.

The model of the pool takes every call of a queue to happen at once. That is what the calls
look like, though each uses the list more than once: what it does to the list under the lock
is what it does to it alone, elements come out in the order in which they have gone in, and
none is in the queue while a thread sleeps in `pop` that nothing is going to wake. -/

set_option autoImplicit false

namespace HotRod.Transport.BlockingQueue

open Semantics.Monitors Semantics.Transition

variable {T : Type} [DecidableEq T]

inductive Op (T : Type) where
  | push (value : T)
  | offer (value : T)
  | pop
  | popOrThrow
  | poll
  | remove (value : T)
  | size
  deriving DecidableEq, Repr

inductive Result (T : Type) where
  | done
  | threw (e : Exn)
  | flag (b : Bool)
  | element (value : T)
  | polled (value : Option T)
  | number (n : Nat)
  -- `front()` or `pop_front()` of an empty list
  | undefined
  deriving DecidableEq, Repr

/-- What a call has read so far. -/
inductive Local (T : Type) where
  | start
  | tested
  | got (element : T)
  | sized (old : Nat) (removed : Bool)

def isFull (capacity : Nat) (queue : List T) : Bool := 0 < capacity ∧ queue.length = capacity

/-! ### Bodies, one use of the list at a time -/

def front (queue : List T) : Outcome (Local T) (Result T) × List T :=
  match queue with
  | [] => (.ends .undefined, [])
  | element :: rest => (.next (.got element), element :: rest)

def popFront (r : Result T) (queue : List T) : Outcome (Local T) (Result T) × List T :=
  match queue with
  | [] => (.ends .undefined, [])
  | _ :: rest => (.ends r, rest)

def access (capacity : Nat) :
    Op T → Local T → List T → Outcome (Local T) (Result T) × List T
  | .push _, .start, queue =>
    if isFull capacity queue then (.ends (.threw (.exception "Queue is full")), queue)
    else (.next .tested, queue)
  | .push value, _, queue => (.ends .done, queue ++ [value])
  | .offer _, .start, queue =>
    if isFull capacity queue then (.ends (.flag false), queue) else (.next .tested, queue)
  | .offer value, _, queue => (.ends (.flag true), queue ++ [value])
  | .pop, .got element, queue => popFront (.element element) queue
  | .pop, _, queue => front queue
  | .popOrThrow, .start, queue =>
    if queue.isEmpty then
      (.ends (.threw (.noSuchElement "Reached maximum number of connections")), queue)
    else (.next .tested, queue)
  | .popOrThrow, .got element, queue => popFront (.element element) queue
  | .popOrThrow, _, queue => front queue
  | .poll, .start, queue =>
    if queue.isEmpty then (.ends (.polled none), queue) else (.next .tested, queue)
  | .poll, .got value, queue => popFront (.polled (some value)) queue
  | .poll, _, queue => front queue
  | .remove value, .sized old false, queue =>
    (.next (.sized old true), queue.filter (· ≠ value))
  | .remove _, .sized old true, queue => (.ends (.flag (old != queue.length)), queue)
  | .remove _, _, queue => (.next (.sized queue.length false), queue)
  | .size, _, queue => (.ends (.number queue.length), queue)

-- The loop of `pop` waits on an empty queue.
def ready : Op T → List T → Bool
  | .pop, queue => !queue.isEmpty
  | _, _ => true

-- `condition.notify()` comes after `push_back`.
def notifies : Op T → Result T → Bool
  | .push _, .done => true
  | .offer _, .flag added => added
  | _, _ => false

def blockingQueue (T : Type) [DecidableEq T] (capacity : Nat) :
    Object (List T) (Op T) (Local T) (Result T) where
  ready
  begins _ := .start
  access := access capacity
  notifies

/-! ### Calls at once -/

section Calls

variable (capacity : Nat) (queue : List T)

def push (value : T) : Result T × List T :=
  if isFull capacity queue then (.threw (.exception "Queue is full"), queue)
  else (.done, queue ++ [value])

def offer (value : T) : Result T × List T :=
  if isFull capacity queue then (.flag false, queue) else (.flag true, queue ++ [value])

-- `none` where the loop waits.
def pop : List T → Option (Result T × List T)
  | [] => none
  | element :: rest => some (.element element, rest)

def popOrThrow : List T → Result T × List T
  | [] => (.threw (.noSuchElement "Reached maximum number of connections"), [])
  | element :: rest => (.element element, rest)

def poll : List T → Result T × List T
  | [] => (.polled none, [])
  | value :: rest => (.polled (some value), rest)

-- All that are equal to the value.
def remove (value : T) : Result T × List T :=
  let others := queue.filter (· ≠ value)
  (.flag (queue.length != others.length), others)

def perform : Op T → Option (Result T × List T)
  | .push value => some (push capacity queue value)
  | .offer value => some (offer capacity queue value)
  | .pop => pop queue
  | .popOrThrow => some (popOrThrow queue)
  | .poll => some (poll queue)
  | .remove value => some (remove queue value)
  | .size => some (.number queue.length, queue)

end Calls

-- A body that nobody interrupts does the call at once.
theorem finish_eq_perform {capacity : Nat} {queue : List T} {op : Op T}
    (ready : ready op queue = true) :
    (blockingQueue T capacity).finish op 3 .start queue = perform capacity queue op := by
  cases op with
  | push value =>
    simp only [Object.finish, blockingQueue, access, perform, push]
    by_cases full : isFull capacity queue = true
    · simp [full]
    · simp [full]
  | offer value =>
    simp only [Object.finish, blockingQueue, access, perform, offer]
    by_cases full : isFull capacity queue = true
    · simp [full]
    · simp [full]
  | pop =>
    cases queue with
    | nil => cases ready
    | cons element rest => rfl
  | popOrThrow => cases queue <;> rfl
  | poll => cases queue <;> rfl
  | remove value => rfl
  | size => rfl

theorem perform_of_performs {capacity : Nat} {queue queue' : List T} {op : Op T} {r : Result T}
    (performed : Performs (blockingQueue T capacity) op queue r queue') :
    perform capacity queue op = some (r, queue') := by
  have ready : ready op queue = true := by
    obtain ⟨l, before, alone, -⟩ := performed
    exact alone.ready
  have finished : (blockingQueue T capacity).finish op 3 .start queue =
      perform capacity queue op := finish_eq_perform ready
  cases result : perform capacity queue op with
  | none =>
    cases op with
    | pop =>
      cases queue with
      | nil => cases ready
      | cons element rest => cases result
    | _ => cases result
  | some ended =>
    rw [result] at finished
    rw [performed.eq_of_finish finished]

/-! ### What goes in and what comes out -/

def added : Op T → Result T → List T
  | .push value, .done => [value]
  | .offer value, .flag true => [value]
  | _, _ => []

def given : Result T → List T
  | .element value | .polled (some value) => [value]
  | _ => []

def Op.removes : Op T → Bool
  | .remove _ => true
  | _ => false

theorem perform_effect {capacity : Nat} {queue queue' : List T} {op : Op T} {r : Result T}
    (performed : perform capacity queue op = some (r, queue')) :
    (op.removes = false ∧ queue ++ added op r = given r ++ queue') ∨
      (op.removes = true ∧ added op r = [] ∧ given r = [] ∧ queue'.Sublist queue) := by
  cases op with
  | push value =>
    refine .inl ⟨rfl, ?_⟩
    rw [perform, push] at performed
    split at performed <;> cases performed
    · simp [added, given]
    · rfl
  | offer value =>
    refine .inl ⟨rfl, ?_⟩
    rw [perform, offer] at performed
    split at performed <;> cases performed
    · simp [added, given]
    · rfl
  | pop =>
    refine .inl ⟨rfl, ?_⟩
    cases queue with
    | nil => cases performed
    | cons element rest =>
      cases performed
      simp [added, given]
  | popOrThrow =>
    refine .inl ⟨rfl, ?_⟩
    cases queue with
    | nil =>
      cases performed
      rfl
    | cons element rest =>
      cases performed
      simp [added, given]
  | poll =>
    refine .inl ⟨rfl, ?_⟩
    cases queue with
    | nil =>
      cases performed
      rfl
    | cons value rest =>
      cases performed
      simp [added, given]
  | remove value =>
    cases performed
    exact .inr ⟨rfl, rfl, rfl, List.filter_sublist⟩
  | size =>
    refine .inl ⟨rfl, ?_⟩
    cases performed
    simp [added, given]

theorem length_perform_le {capacity : Nat} (bounded : 0 < capacity) {queue queue' : List T}
    {op : Op T} {r : Result T} (performed : perform capacity queue op = some (r, queue'))
    (within : queue.length ≤ capacity) : queue'.length ≤ capacity := by
  have room : isFull capacity queue = false → queue.length + 1 ≤ capacity := by
    intro free
    have apart : queue.length ≠ capacity := fun same => by simp [isFull, bounded, same] at free
    omega
  have shorter : ∀ element : T, queue = element :: queue' → queue'.length ≤ capacity := by
    rintro element rfl
    exact Nat.le_of_succ_le within
  cases op with
  | push value =>
    rw [perform, push] at performed
    split at performed
    · cases performed
      exact within
    · next free =>
      cases performed
      simpa using room (Bool.eq_false_iff.mpr free)
  | offer value =>
    rw [perform, offer] at performed
    split at performed
    · cases performed
      exact within
    · next free =>
      cases performed
      simpa using room (Bool.eq_false_iff.mpr free)
  | pop =>
    cases queue with
    | nil => cases performed
    | cons element rest =>
      cases performed
      exact shorter element rfl
  | popOrThrow =>
    cases queue with
    | nil =>
      cases performed
      exact within
    | cons element rest =>
      cases performed
      exact shorter element rfl
  | poll =>
    cases queue with
    | nil =>
      cases performed
      exact within
    | cons value rest =>
      cases performed
      exact shorter value rfl
  | remove value =>
    cases performed
    exact Nat.le_trans (List.length_filter_le _ _) within
  | size =>
    cases performed
    exact within

variable {I : Type}

def pushed : List (Mark (Op T) (Result T) I) → List T
  | [] => []
  | .took _ op r :: earlier => pushed earlier ++ added op r
  | .called _ _ :: earlier | .returned _ _ _ :: earlier => pushed earlier

def popped : List (Mark (Op T) (Result T) I) → List T
  | [] => []
  | .took _ _ r :: earlier => popped earlier ++ given r
  | .called _ _ :: earlier | .returned _ _ _ :: earlier => popped earlier

def Removed : List (Mark (Op T) (Result T) I) → Prop
  | [] => False
  | .took _ op _ :: earlier => op.removes = true ∨ Removed earlier
  | .called _ _ :: earlier | .returned _ _ _ :: earlier => Removed earlier

/-- First in, first out. -/
structure InOrder (capacity : Nat) (trace : List (Mark (Op T) (Result T) I)) (queue : List T) :
    Prop where
  order : (popped trace ++ queue).Sublist (pushed trace)
  complete : ¬ Removed trace → popped trace ++ queue = pushed trace
  bounded : 0 < capacity → queue.length ≤ capacity

theorem InOrder.of_legal {capacity : Nat} {trace : List (Mark (Op T) (Result T) I)}
    {queue : List T} (legal : Legal (blockingQueue T capacity) [] trace queue) :
    InOrder capacity trace queue := by
  induction legal with
  | start => exact ⟨List.Sublist.refl [], fun _ => rfl, fun _ => Nat.zero_le _⟩
  | called _ ih => exact ⟨ih.order, ih.complete, ih.bounded⟩
  | returned _ ih => exact ⟨ih.order, ih.complete, ih.bounded⟩
  | @took i op r earlier q q' _ done ih =>
    have performed := perform_of_performs done
    have bounded : 0 < capacity → q'.length ≤ capacity := fun positive =>
      length_perform_le positive performed (ih.bounded positive)
    obtain ⟨others, moved⟩ | ⟨removes, nothing, nobody, fewer⟩ := perform_effect performed
    · -- what goes in at the end comes out at the front
      have same : popped earlier ++ given r ++ q' = popped earlier ++ q ++ added op r := by
        rw [List.append_assoc, ← moved, List.append_assoc]
      refine ⟨?_, ?_, bounded⟩
      · change (popped earlier ++ given r ++ q').Sublist (pushed earlier ++ added op r)
        rw [same]
        exact ih.order.append (List.Sublist.refl _)
      · intro none_
        change popped earlier ++ given r ++ q' = pushed earlier ++ added op r
        rw [same, ih.complete fun removed => none_ (.inr removed)]
    · refine ⟨?_, fun none_ => absurd (.inl removes) none_, bounded⟩
      change (popped earlier ++ given r ++ q').Sublist (pushed earlier ++ added op r)
      rw [nothing, nobody, List.append_nil, List.append_nil]
      exact ((List.Sublist.refl _).append fewer).trans ih.order

/-! ### Runs -/

section Runs

variable [DecidableEq I] [Fintype I] {t : Monitor (List T) (Op T) (Local T) (Result T) I}

/-- However the threads take turns, the calls of a queue have been made one at a time, each at a
moment between its call and its return; and what has been popped, with what is in the queue, is
what has been pushed, in that order, except for what was removed. The queue is what the last
call has left, whenever the lock is free. -/
theorem linearizable_inOrder (capacity : Nat) (actions : List (Action (Op T) I))
    (reached : run (step (blockingQueue T capacity)) { object := [] } actions = some t) :
    Linearizable (blockingQueue T capacity) [] t.trace t.left ∧
      InOrder capacity t.trace t.left ∧ (t.holder = none → t.object = t.left) := by
  obtain ⟨linearizable, free⟩ := linearizable_of_run reached
  exact ⟨linearizable, .of_legal linearizable.legal, free⟩

theorem inOrder_of_pop_push :
    ∃ t, run (step (blockingQueue Nat 1)) { object := [] }
        [.call false .pop, .lock false, .test false, .call true (.push 7), .lock true,
          .test true, .access true, .access true, .notify true (some false), .leave true,
          .lock false, .test false, .access false, .access false, .leave false] = some t ∧
      popped t.trace = [7] ∧ t.object = [] ∧ InOrder 1 t.trace t.left := by
  refine ⟨_, rfl, rfl, rfl, ?_⟩
  exact (linearizable_inOrder 1 [.call false .pop, .lock false, .test false,
    .call true (.push 7), .lock true, .test true, .access true, .access true,
    .notify true (some false), .leave true, .lock false, .test false, .access false,
    .access false, .leave false] rfl).2.1

theorem length_perform {capacity : Nat} {q q' : List T} {op : Op T} {r : Result T}
    (performed : perform capacity q op = some (r, q')) :
    q'.length + (decide (op = .pop)).toNat ≤ q.length + (notifies op r).toNat := by
  cases op with
  | push value =>
    rw [perform, push] at performed
    split at performed <;> cases performed <;> simp [notifies]
  | offer value =>
    rw [perform, offer] at performed
    split at performed <;> cases performed <;> simp [notifies]
  | pop =>
    cases q with
    | nil => cases performed
    | cons element rest =>
      cases performed
      simp [notifies]
  | popOrThrow => cases q <;> cases performed <;> simp [notifies]
  | poll => cases q <;> cases performed <;> simp [notifies]
  | remove value =>
    cases performed
    simpa [notifies] using List.length_filter_le _ _
  | size =>
    cases performed
    simp [notifies]

-- What a waiting thread waits for are the elements.
def elements (capacity : Nat) : Supply (blockingQueue T capacity) where
  supply := List.length
  consumes op := op = .pop
  waits := by
    intro op q unready
    cases op with
    | pop =>
      cases q with
      | nil => exact ⟨by simp, rfl⟩
      | cons element rest => cases unready
    | _ => cases unready
  done := by
    intro op q r q' done
    exact length_perform (perform_of_performs done)

/-- However the threads take turns, there is no element in the queue when a thread sleeps in
`pop` and no other one can go on with its call. -/
theorem empty_of_sleeper (capacity : Nat) (actions : List (Action (Op T) I))
    (reached : run (step (blockingQueue T capacity)) { object := [] } actions = some t)
    (quiet : Quiet (blockingQueue T capacity) t) {i : I} (sleeps : t.phase i = .waiting .pop) :
    t.object = [] :=
  List.length_eq_zero_iff.mp ((elements capacity).nothing_of_quiet reached quiet sleeps)

theorem empty_of_first_sleeper :
    ∃ t : Monitor (List Nat) (Op Nat) (Local Nat) (Result Nat) Bool,
      run (step (blockingQueue Nat 0)) { object := [] }
        [.call false .pop, .lock false, .test false, .call true (.push 7), .lock true,
          .test true, .access true, .access true, .notify true (some false), .leave true,
          .lock false, .test false, .access false, .access false, .leave false,
          .call false .pop, .lock false, .test false] = some t ∧
      pushed t.trace = [7] ∧ t.object = [] := by
  refine ⟨_, rfl, rfl, ?_⟩
  refine empty_of_sleeper (i := false) 0 [.call false .pop, .lock false, .test false,
    .call true (.push 7), .lock true, .test true, .access true, .access true,
    .notify true (some false), .leave true, .lock false, .test false, .access false,
    .access false, .leave false, .call false .pop, .lock false, .test false] rfl ?_ rfl
  intro a internal
  cases a with
  | call i op => cases internal
  | lock i => cases i <;> rfl
  | test i => cases i <;> rfl
  | access i => cases i <;> rfl
  | notify i woken => cases i <;> rfl
  | leave i => cases i <;> rfl
  | wake i => cases internal
  | notifyAll => cases internal

end Runs

end HotRod.Transport.BlockingQueue
