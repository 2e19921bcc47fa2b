import HotRod.Transport.Counters

/-! What a section can do in a pool whose known keys all have a queue.

Each lemma lists the ways a section of the pool may go, with the state it leaves.
The invariants over runs are derived from these lists. -/

set_option autoImplicit false

namespace HotRod.Transport

open Semantics.Execution ConnectionPool

variable {K : Type} [LinearOrder K]

variable {s : ConnectionPool K} {key : K} {obj : Conn} {config : Configuration}

/-! ### Making room -/

def evicted (key : K) (generation : Nat) (obj : Conn) (rest : List Conn) (s : ConnectionPool K) :
    ConnectionPool K :=
  { polled key generation rest s with destroyed := s.destroyed ++ [obj] }

theorem tryRemoveIdle_cases (config : Configuration) (sound : NullFree s.idle) :
    (∃ victim generation obj rest,
      keyToRemove config none 0 s.idle.entries = .ok (some victim) ∧
      s.idle.get? victim = some (some ⟨generation, obj :: rest⟩) ∧
      tryRemoveIdle config s = .ok true (evicted victim generation obj rest s)) ∨
    ((∀ k q, s.idle.get? k = some (some q) → q.items = []) ∧
      tryRemoveIdle config s = .ok false s) := by
  obtain ⟨chosen, scan⟩ := keyToRemove_of_nullFree config sound.entries none 0
  have calls : tryRemoveIdle config s = match chosen with
      | none => .ok false s
      | some victim => removeFrom victim s := by
    rw [tryRemoveIdle, bind_apply]
    simp only [get_apply, scan]
    cases chosen <;> rfl
  cases chosen with
  | none =>
    refine .inr ⟨fun k q found => ?_, calls⟩
    have short := (keyToRemove_none scan).2 k q (s.idle.get?_eq_some.mp found)
    exact List.length_eq_zero_iff.mp (Nat.le_zero.mp short)
  | some victim =>
    rcases keyToRemove_some scan with none_better | ⟨⟨generation, items⟩, member, filled⟩
    · cases none_better
    obtain ⟨obj, rest, rfl⟩ := List.exists_cons_of_ne_nil filled
    have found := s.idle.get?_eq_some.mpr member
    refine .inl ⟨victim, generation, obj, rest, scan, found, ?_⟩
    rw [calls]
    simp only [removeFrom]
    rw [bind_of_ok (pollIdle_of_cons found)]
    rfl

def Below (config : Configuration) (s : ConnectionPool K) (key : K) : Prop :=
  config.maxActive < 0 ∨ (s.busyItems key).length < config.maxActive.toNat

/-- The states in which a connection may be made: as it is while the total allows
one, else with an idle connection less. -/
inductive Slot (config : Configuration) (s : ConnectionPool K) : ConnectionPool K → Prop
  | room (free : s.hasReachedMaxTotal config = false) : Slot config s s
  | evict {victim : K} {generation : Nat} {obj : Conn} {rest : List Conn}
    (reached : s.hasReachedMaxTotal config = true)
    (scan : keyToRemove config none 0 s.idle.entries = .ok (some victim))
    (found : s.idle.get? victim = some (some ⟨generation, obj :: rest⟩)) :
    Slot config s (evicted victim generation obj rest s)

-- The borrow loop makes a connection, asks for one to be allocated, or has to wait for one of its
-- key.
theorem createObject_cases (config : Configuration) (sound : NullFree s.idle) {q : IdleQueue}
    (found : s.idle.get? key = some (some q)) :
    (q.items = [] ∧ Below config s key ∧ ∃ t, Slot config s t ∧
      ((t.makes.head?.join = none ∧ createObject config key q.generation s =
          .ok (some t.made) { t with makes := t.makes.tail, made := t.made + 1 }) ∨
        ∃ e, t.makes.head?.join = some e ∧ createObject config key q.generation s =
          .error (.raised e) { t with makes := t.makes.tail })) ∨
    (q.items = [] ∧ Below config s key ∧ s.hasReachedMaxTotal config = true ∧
      (∀ k p, s.idle.get? k = some (some p) → p.items = []) ∧
      createObject config key q.generation s =
        .ok none { s with allocationQueue := s.allocationQueue ++ [key] }) ∨
    (¬ (q.items = [] ∧ Below config s key) ∧
      createObject config key q.generation s = .ok none s) := by
  have items : s.queueItems key q.generation = q.items := by simp [queueItems, found]
  have making : ∀ t, canCreate config key q.generation s = .ok true t →
      (t.makes.head?.join = none ∧ createObject config key q.generation s =
          .ok (some t.made) { t with makes := t.makes.tail, made := t.made + 1 }) ∨
        ∃ e, t.makes.head?.join = some e ∧ createObject config key q.generation s =
          .error (.raised e) { t with makes := t.makes.tail } := by
    intro t allowed
    have calls : createObject config key q.generation s =
        (makeObject >>= fun obj => pure (some obj)) t := bind_of_ok allowed
    rw [calls, bind_apply, makeObject_eq]
    cases planned : t.makes.head?.join with
    | none => exact .inl ⟨rfl, rfl⟩
    | some e => exact .inr ⟨e, rfl, rfl⟩
  by_cases may : q.items = [] ∧ Below config s key
  · have tested : canCreate config key q.generation s =
        if !s.hasReachedMaxTotal config then .ok true s
        else tryRemoveIdleOrAskAllocate config key s := by
      simp only [canCreate, bind_apply, get_apply, items]
      rw [Below] at may
      rw [if_pos may]
      split <;> rfl
    cases reached : s.hasReachedMaxTotal config with
    | false =>
      rw [reached] at tested
      exact .inl ⟨may.1, may.2, s, .room reached, making s tested⟩
    | true =>
      rw [reached] at tested
      obtain ⟨victim, generation, obj, rest, scan, held, removed⟩ | ⟨empty, removed⟩ :=
        tryRemoveIdle_cases config sound
      · refine .inl ⟨may.1, may.2, _, .evict reached scan held, making _ ?_⟩
        rw [tested, tryRemoveIdleOrAskAllocate]
        exact bind_of_ok removed
      · refine .inr (.inl ⟨may.1, may.2, rfl, empty, ?_⟩)
        have asked : canCreate config key q.generation s =
            .ok false { s with allocationQueue := s.allocationQueue ++ [key] } := by
          rw [tested, tryRemoveIdleOrAskAllocate]
          exact bind_of_ok removed
        exact bind_of_ok asked
  · refine .inr (.inr ⟨may, ?_⟩)
    have refused : canCreate config key q.generation s = .ok false s := by
      simp only [canCreate, bind_apply, get_apply, items]
      rw [Below] at may
      rw [if_neg may]
      rfl
    exact bind_of_ok refused

/-! ### The borrow loop -/

def discarded (obj : Conn) (s : ConnectionPool K) : ConnectionPool K :=
  { s with destroyed := s.destroyed ++ [obj] }

def made (s : ConnectionPool K) : ConnectionPool K :=
  { s with makes := s.makes.tail, made := s.made + 1 }

/-- What has to be shown of a loop that goes through states with a connection in
hand and states without one, and ends with a connection lent, a wait or an
exception. -/
structure BorrowRule (config : Configuration) (key : K) (generation : Nat)
    (validates : List (Except Exn Bool)) (inHand lent : Conn → ConnectionPool K → Prop)
    (without waits fails : ConnectionPool K → Prop) : Prop where
  sound : ∀ s, without s → NullFree s.idle
  found : ∀ s, without s → ∃ items, s.idle.get? key = some (some ⟨generation, items⟩)
  make : ∀ s t, without s → s.idle.get? key = some (some ⟨generation, []⟩) → Below config s key →
    Slot config s t → t.makes.head?.join = none → inHand t.made (made t)
  fail : ∀ s t e, without s → s.idle.get? key = some (some ⟨generation, []⟩) → Below config s key →
    Slot config s t → t.makes.head?.join = some e → fails { t with makes := t.makes.tail }
  ask : ∀ s, without s → s.hasReachedMaxTotal config = true →
    (∀ k q, s.idle.get? k = some (some q) → q.items = []) →
    waits { s with allocationQueue := s.allocationQueue ++ [key] }
  wait : ∀ s items, without s → s.idle.get? key = some (some ⟨generation, items⟩) →
    ¬ (items = [] ∧ Below config s key) → waits s
  refuse : ∀ obj s, inHand obj s → config.testOnBorrow = true → .ok false ∈ validates →
    without (discarded obj s)
  raise : ∀ obj s e, inHand obj s → config.testOnBorrow = true → .error e ∈ validates → fails s
  lend : ∀ obj s, inHand obj s → lent obj (registered key obj s)

def Ends (generation : Nat) (lent : Conn → ConnectionPool K → Prop)
    (waits : ConnectionPool K → Prop) (outcome : Borrowed) (s : ConnectionPool K) : Prop :=
  match outcome with
  | .object obj => lent obj s
  | .wait g => g = generation ∧ waits s

section Loop

variable {generation : Nat} {validates : List (Except Exn Bool)}
  {inHand lent : Conn → ConnectionPool K → Prop} {without waits fails : ConnectionPool K → Prop}

theorem BorrowRule.createObject
    (rule : BorrowRule config key generation validates inHand lent without waits fails)
    (start : without s) :
    Meets (createObject config key generation s)
      (fun found t => match found with
        | some obj => inHand obj t
        | none => waits t)
      (fun _ t => fails t) := by
  obtain ⟨items, found⟩ := rule.found s start
  rcases createObject_cases config (rule.sound s start) found with
    ⟨rfl, below, t, slot, ⟨planned, calls⟩ | ⟨e, planned, calls⟩⟩ |
    ⟨rfl, -, reached, empty, calls⟩ | ⟨taken, calls⟩
  · rw [calls]
    exact rule.make s t start found below slot planned
  · rw [calls]
    exact rule.fail s t e start found below slot planned
  · rw [calls]
    exact rule.ask s start reached empty
  · rw [calls]
    exact rule.wait s items start found taken

theorem BorrowRule.testLoop
    (rule : BorrowRule config key generation validates inHand lent without waits fails)
    {verdicts : List (Except Exn Bool)} (part : verdicts ⊆ validates) (held : inHand obj s) :
    Meets (testLoop config key generation verdicts obj s) (Ends generation lent waits)
      (fun _ t => fails t) := by
  induction verdicts generalizing obj s with
  | nil => exact rule.lend obj s held
  | cons verdict rest ih =>
    obtain ⟨here, later⟩ := List.cons_subset.mp part
    simp only [Transport.testLoop]
    split
    · rename_i tests
      cases verdict with
      | error e => exact rule.raise obj s e held tests here
      | ok valid =>
        cases valid with
        | true => exact rule.lend obj s held
        | false =>
          refine (rule.createObject (rule.refuse obj s held tests here)).bind ?_
          intro found t next
          cases found with
          | none => exact ⟨rfl, next⟩
          | some obj => exact ih later next
    · exact rule.lend obj s held

-- The section starts with the head of the queue, or without a connection.
theorem BorrowRule.borrowFrom
    (rule : BorrowRule config key generation validates inHand lent without waits fails)
    {items : List Conn} (found : s.idle.get? key = some (some ⟨generation, items⟩))
    (first : ∀ obj rest, items = obj :: rest → inHand obj (polled key generation rest s))
    (start : items = [] → without s) :
    Meets (borrowFrom config key generation validates s) (Ends generation lent waits)
      (fun _ t => fails t) := by
  cases items with
  | nil =>
    rw [Transport.borrowFrom, bind_of_ok (pollIdle_of_nil found)]
    refine (rule.createObject (start rfl)).bind ?_
    intro made t next
    cases made with
    | none => exact ⟨rfl, next⟩
    | some obj => exact rule.testLoop (List.Subset.refl _) next
  | cons obj rest =>
    rw [Transport.borrowFrom, bind_of_ok (pollIdle_of_cons found)]
    exact rule.testLoop (List.Subset.refl _) (first obj rest rfl)

end Loop

theorem borrowObject_cases (config : Configuration) (sound : NullFree s.idle) (key : K)
    (validates : List (Except Exn Bool)) :
    (∃ e, borrowObject config key validates s = .error (.raised e) s) ∨
    ∃ q, s.idle.get? key = some (some q) ∧
      borrowObject config key validates s = borrowFrom config key q.generation validates s := by
  simp only [borrowObject, bind_apply, get_apply]
  by_cases closed : s.closed = true
  · exact .inl ⟨_, by rw [if_pos closed]; rfl⟩
  rw [if_neg closed]
  by_cases unknown : key ∉ s.idle ∨ key ∉ s.busy
  · exact .inl ⟨_, by rw [if_pos unknown]; rfl⟩
  rw [if_neg unknown]
  obtain ⟨q, found⟩ := sound.found (not_not.mp (not_or.mp unknown).1)
  refine .inr ⟨q, found, ?_⟩
  simp only [found]

/-! ### Hand-backs -/

def served (first : K) (q : IdleQueue) (rest : List K) (s : ConnectionPool K) : ConnectionPool K :=
  pushed first s.made q
    { s with allocationQueue := rest, makes := s.makes.tail, made := s.made + 1 }

-- The first request is taken off the line, and its connection could not be made.
def unserved (rest : List K) (s : ConnectionPool K) : ConnectionPool K :=
  { s with allocationQueue := rest, makes := s.makes.tail }

theorem allocatePending_of_not_serves {reached : Bool}
    (idle : ¬ (reached = true ∧ s.allocationQueue ≠ [])) :
    allocatePending reached s = .ok false s := by
  cases reached with
  | false => rfl
  | true =>
    have none_asked : s.allocationQueue = [] := by_contra fun some_asked => idle ⟨rfl, some_asked⟩
    simp [allocatePending, bind_apply, none_asked]

theorem allocatePending_of_serves {first : K} {rest : List K} {q : IdleQueue}
    (line : s.allocationQueue = first :: rest) (found : s.idle.get? first = some (some q)) :
    (s.makes.head?.join = none ∧ allocatePending true s = .ok true (served first q rest s)) ∨
    ∃ e, s.makes.head?.join = some e ∧
      allocatePending true s = .error (.raised e) (unserved rest s) := by
  rw [allocatePending_eq line, bind_apply, makeIdle, bind_apply, makeObject_eq]
  cases planned : s.makes.head?.join with
  | some e => exact .inr ⟨e, rfl, rfl⟩
  | none =>
    refine .inl ⟨rfl, ?_⟩
    have found' : ({ s with
        allocationQueue := rest, makes := s.makes.tail, made := s.made + 1 } :
          ConnectionPool K).idle.get? first = some (some q) := found
    simp only
    rw [bind_of_ok (pushIdle_eq found' s.made)]
    rfl

/-- The pool takes a returned connection: it is open and the test accepts, if there is one. -/
def Accepted (config : Configuration) (s : ConnectionPool K) (verdict : Except Exn Bool) : Prop :=
  s.closed = false ∧ (config.testOnReturn = true → verdict = .ok true)

-- The test of a returned connection raises.
def Unanswered (config : Configuration) (s : ConnectionPool K) (verdict : Except Exn Bool) : Prop :=
  s.closed = false ∧ config.testOnReturn = true ∧ ∃ e, verdict = .error e

theorem validateReturned_unanswered {verdict : Except Exn Bool}
    (unanswered : Unanswered config s verdict) :
    ∃ e, validateReturned config verdict s = .error (.raised e) s := by
  obtain ⟨opened, tests, e, rfl⟩ := unanswered
  exact ⟨e, by simp [validateReturned, bind_apply, opened, tests]⟩

theorem validateReturned_answered {verdict : Except Exn Bool}
    (answered : ¬ Unanswered config s verdict) :
    ∃ valid, (valid = true ↔ Accepted config s verdict) ∧
      validateReturned config verdict s = .ok valid s := by
  unfold Unanswered at answered
  unfold Accepted
  simp only [validateReturned, bind_apply, get_apply]
  cases closed : s.closed with
  | true => exact ⟨false, by simp, rfl⟩
  | false =>
    cases tests : config.testOnReturn with
    | false => exact ⟨true, by simp, rfl⟩
    | true =>
      cases verdict with
      | error e => exact absurd ⟨closed, tests, e, rfl⟩ answered
      | ok valid => exact ⟨valid, by simp, rfl⟩

theorem probeIdle_of_found {q : IdleQueue} (found : s.idle.get? key = some (some q)) (taken : Bool) :
    probeIdle key taken s = .ok () s := by
  cases taken with
  | true => simp [probeIdle, bind_apply, found]
  | false => rfl

theorem offerOrDestroy_of_found {q : IdleQueue} (found : s.idle.get? key = some (some q))
    (obj : Conn) : offerOrDestroy key obj true s = .ok () (pushed key obj q s) := by
  have member : key ∈ s.idle := s.idle.mem_iff.mpr ⟨_, found⟩
  simp only [offerOrDestroy, bind_apply, get_apply, member, and_self, if_true]
  rw [pushIdle_eq found]
  rfl

theorem offerOrDestroy_of_refused (key : K) (obj : Conn) (s : ConnectionPool K) :
    offerOrDestroy key obj false s = .ok () (discarded obj s) := by
  simp [offerOrDestroy, bind_apply, destroyObject, discarded]

/-- Every key that is asked for or has a busy queue has an idle queue. Only `clear`
breaks this. -/
structure Standing (s : ConnectionPool K) : Prop where
  sound : NullFree s.idle
  asked : ∀ k ∈ s.allocationQueue, k ∈ s.idle
  listed : ∀ k ∈ s.busy, k ∈ s.idle

theorem Standing.known (standing : Standing s) (listed : key ∈ s.busy) :
    ∃ q, s.idle.get? key = some (some q) :=
  standing.sound.found (standing.listed key listed)

theorem Standing.first (standing : Standing s) {first : K} {rest : List K}
    (line : s.allocationQueue = first :: rest) : ∃ q, s.idle.get? first = some (some q) :=
  standing.sound.found (standing.asked first (line ▸ List.mem_cons_self))

theorem Standing.allocatePending (standing : Standing s) (serves : Serves config s) (key : K)
    (obj : Conn) :
    ∃ first rest q, s.allocationQueue = first :: rest ∧ s.idle.get? first = some (some q) ∧
      ((s.makes.head?.join = none ∧
        allocatePending (s.hasReachedMaxTotal config) (unregistered key obj s) =
          .ok true (served first q rest (unregistered key obj s))) ∨
      ∃ e, s.makes.head?.join = some e ∧
        allocatePending (s.hasReachedMaxTotal config) (unregistered key obj s) =
          .error (.raised e) (unserved rest (unregistered key obj s))) := by
  obtain ⟨first, rest, line⟩ := List.exists_cons_of_ne_nil serves.2
  obtain ⟨q, found⟩ := standing.first line
  refine ⟨first, rest, q, line, found, ?_⟩
  rw [serves.1]
  exact allocatePending_of_serves (s := unregistered key obj s) line found

theorem returnObject_cases (config : Configuration) (standing : Standing s)
    (listed : key ∈ s.busy) (obj : Conn) (verdict : Except Exn Bool) :
    (Unanswered config s verdict ∧ ∃ e, returnObject config key obj verdict s =
      .error (.raised e) (unregistered key obj s)) ∨
    (¬ Unanswered config s verdict ∧ s.hasReachedMaxTotal config = true ∧
      ∃ first rest q, s.allocationQueue = first :: rest ∧ s.idle.get? first = some (some q) ∧
        ((s.makes.head?.join = none ∧ returnObject config key obj verdict s =
          .ok () (discarded obj (served first q rest (unregistered key obj s)))) ∨
        ∃ e, s.makes.head?.join = some e ∧ returnObject config key obj verdict s =
          .error (.raised e) (unserved rest (unregistered key obj s)))) ∨
    (¬ Unanswered config s verdict ∧ ¬ Serves config s ∧ Accepted config s verdict ∧
      ∃ q, s.idle.get? key = some (some q) ∧ returnObject config key obj verdict s =
        .ok () (pushed key obj q (unregistered key obj s))) ∨
    (¬ Unanswered config s verdict ∧ ¬ Serves config s ∧ ¬ Accepted config s verdict ∧
      returnObject config key obj verdict s =
        .ok () (discarded obj (unregistered key obj s))) := by
  rw [returnObject_eq listed]
  obtain ⟨home, known⟩ := standing.known listed
  by_cases unanswered : Unanswered config s verdict
  · obtain ⟨e, raised⟩ :=
      validateReturned_unanswered (s := unregistered key obj s) unanswered
    exact .inl ⟨unanswered, e, bind_of_error raised⟩
  obtain ⟨valid, accepts, returned⟩ :=
    validateReturned_answered (s := unregistered key obj s) unanswered
  rw [bind_of_ok returned]
  by_cases serves : Serves config s
  · refine .inr (.inl ⟨unanswered, serves.1, ?_⟩)
    obtain ⟨first, rest, q, line, found, ⟨planned, done⟩ | ⟨e, planned, failed⟩⟩ :=
      standing.allocatePending serves key obj
    · refine ⟨first, rest, q, line, found, .inl ⟨planned, ?_⟩⟩
      -- the idle queue of the returned connection is looked at and is there
      have present : key ∈ (served first q rest (unregistered key obj s)).idle :=
        (SortedMap.mem_insert _).mpr (.inr (s.idle.mem_iff.mpr ⟨_, known⟩))
      obtain ⟨p, looked⟩ := NullFree.found (standing.sound.insert first _) present
      rw [bind_of_ok done, bind_of_ok (probeIdle_of_found looked true), Bool.not_true,
        Bool.and_false]
      exact offerOrDestroy_of_refused key obj _
    · exact ⟨first, rest, q, line, found, .inr ⟨e, planned, bind_of_error failed⟩⟩
  · refine .inr (.inr ?_)
    have known' : (unregistered key obj s).idle.get? key = some (some home) := known
    have pending : allocatePending (s.hasReachedMaxTotal config) (unregistered key obj s) =
        .ok false (unregistered key obj s) := allocatePending_of_not_serves serves
    rw [bind_of_ok pending, bind_of_ok (probeIdle_of_found known' false), Bool.not_false,
      Bool.and_true]
    by_cases taken : Accepted config s verdict
    · rw [accepts.mpr taken]
      exact .inl ⟨unanswered, serves, taken, home, known, offerOrDestroy_of_found known' obj⟩
    · have invalid : valid = false := Bool.eq_false_iff.mpr fun yes => taken (accepts.mp yes)
      rw [invalid]
      exact .inr ⟨unanswered, serves, taken, offerOrDestroy_of_refused key obj _⟩

theorem invalidateObject_cases (config : Configuration) (standing : Standing s)
    (listed : key ∈ s.busy) (obj : Conn) :
    (s.hasReachedMaxTotal config = true ∧
      ∃ first rest q, s.allocationQueue = first :: rest ∧ s.idle.get? first = some (some q) ∧
        ((s.makes.head?.join = none ∧ invalidateObject config key (some obj) s =
          .ok () (discarded obj (served first q rest (unregistered key obj s)))) ∨
        ∃ e, s.makes.head?.join = some e ∧ invalidateObject config key (some obj) s =
          .error (.raised e) (unserved rest (unregistered key obj s)))) ∨
    (¬ Serves config s ∧ invalidateObject config key (some obj) s =
        .ok () (discarded obj (unregistered key obj s))) := by
  rw [invalidateObject_eq listed]
  obtain ⟨home, known⟩ := standing.known listed
  have drained : checkDrained key (unregistered key obj s) = .ok () (unregistered key obj s) := by
    have known' : (unregistered key obj s).idle.get? key = some (some home) := known
    simp only [checkDrained, bind_apply, get_apply, known']
    split <;> rfl
  rw [bind_of_ok drained]
  by_cases serves : Serves config s
  · obtain ⟨first, rest, q, line, found, ⟨planned, done⟩ | ⟨e, planned, failed⟩⟩ :=
      standing.allocatePending serves key obj
    · exact .inl ⟨serves.1, first, rest, q, line, found, .inl ⟨planned, bind_of_ok done⟩⟩
    · exact .inl ⟨serves.1, first, rest, q, line, found, .inr ⟨e, planned, bind_of_error failed⟩⟩
  · have pending : allocatePending (s.hasReachedMaxTotal config) (unregistered key obj s) =
        .ok false (unregistered key obj s) := allocatePending_of_not_serves serves
    exact .inr ⟨serves, bind_of_ok pending⟩

end HotRod.Transport
