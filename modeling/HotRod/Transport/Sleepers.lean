import HotRod.Transport.Allocation
import HotRod.Transport.Alone

/-! Borrowers that sleep in `pop` until their queue has a connection.

`pop` tests its queue again whenever it wakes, so `notifyAll` on a queue that is empty
has no effect: a borrower stays until a connection is put into its queue. -/

set_option autoImplicit false

namespace HotRod.Transport

open Semantics.Execution Semantics.Transition ConnectionPool

variable {K : Type} [LinearOrder K]

structure Sleepers (K : Type) [LinearOrder K] where
  system : System K := {}
  asleep : List Thread := []

-- `woken` are the threads that the notifications of an action wake.
inductive Event (K : Type) where
  | act (action : Action K) (woken : List Thread)
  | sleep (thread : Thread)
  | wake (thread : Thread)

def Borrower.waitsFor (key : K) : Borrower K → Bool
  | .waiting k _ => k = key
  | _ => false

def Sleepers.sleepsAt (s : Sleepers K) (key : K) (thread : Thread) : Bool :=
  decide (thread ∈ s.asleep) && (s.system.borrowers.get? thread).any (Borrower.waitsFor key)

-- `push` and `offer` notify one thread, if there is one.
def Sleepers.notified (s : Sleepers K) (t : System K) (woken : List Thread) : Bool :=
  t.pool.idle.entries.all fun e =>
    decide ((t.pool.idleItems e.1).length ≤ (s.system.pool.idleItems e.1).length) ||
      !s.asleep.any (s.sleepsAt e.1) || woken.any (s.sleepsAt e.1)

-- A thread that sleeps does nothing.
def Sleepers.awake (s : Sleepers K) : Action K → Bool
  | .pop thread => decide (thread ∉ s.asleep)
  | _ => true

-- `popOrThrow` does not sleep.
def happen (config : Configuration) (s : Sleepers K) : Event K → Option (Sleepers K)
  | .act action woken =>
    if s.awake action then
      (step config s.system action).bind fun t =>
        if s.notified t woken then some { system := t, asleep := s.asleep.filter (· ∉ woken) }
        else none
    else none
  | .sleep thread =>
    match s.system.borrowers.get? thread with
    | some (.waiting key generation) =>
      if config.exhaustedAction ≠ .EXCEPTION ∧ s.system.pool.queueItems key generation = [] then
        some { s with asleep := thread :: s.asleep }
      else none
    | _ => none
  -- by `notifyAll`, or without a reason
  | .wake thread =>
    if thread ∈ s.asleep then some { s with asleep := s.asleep.filter (· ≠ thread) } else none

/-- Nothing is in progress but borrowers that sleep. -/
def Quiescent (s : Sleepers K) : Prop :=
  ∀ thread b, s.system.borrowers.get? thread = some b →
    thread ∈ s.asleep ∧ ∃ key generation, b = .waiting key generation

/-- No connection of the key is borrowed, and a thread sleeps although there is one
for it or the limits allow one to be made. -/
def Stuck (config : Configuration) (s : Sleepers K) (key : K) : Prop :=
  Quiescent s ∧ s.system.pool.busyItems key = [] ∧
    (∃ thread generation, s.system.borrowers.get? thread = some (.waiting key generation)) ∧
    (s.system.pool.idleItems key ≠ [] ∨
      (Below config s.system.pool key ∧ s.system.pool.hasReachedMaxTotal config = false))

/-! ### What a waiting thread can count on -/

/-- There is a connection of the key that will come back, or none may be made. `counted`
is how many connections are on their way between the two counters. -/
def Provided (config : Configuration) (carried : K → Prop) (counted : Nat) (s : ConnectionPool K)
    (key : K) : Prop :=
  s.busyItems key ≠ [] ∨ s.idleItems key ≠ [] ∨ carried key ∨ config.maxActive = 0 ∨
    (0 < config.maxTotal ∧ config.maxTotal ≤ s.totalActive + s.totalIdle + counted)

def Secured (config : Configuration) (waited carried : K → Prop) (counted : Nat)
    (s : ConnectionPool K) : Prop :=
  ∀ k, waited k → Provided config carried counted s k

def waitedFor (borrowers : SortedMap Thread (Borrower K)) (key : K) : Prop :=
  ∃ thread generation, borrowers.get? thread = some (.waiting key generation)

def carriedFor (borrowers : SortedMap Thread (Borrower K)) (key : K) : Prop :=
  ∃ thread b obj, borrowers.get? thread = some b ∧ b.obj = some obj ∧ b.key = key

def Borrower.between : Borrower K → Nat
  | .counted _ _ _ => 1
  | _ => 0

def betweenCounters (borrowers : SortedMap Thread (Borrower K)) : Nat :=
  borrowers.weight fun _ b => b.between

def SystemSecured (config : Configuration) (s : System K) : Prop :=
  Secured config (waitedFor s.borrowers) (carriedFor s.borrowers) (betweenCounters s.borrowers)
    s.pool

def Accepting (config : Configuration) (validates : List (Except Exn Bool)) : Prop :=
  config.testOnBorrow = true → ∀ verdict ∈ validates.head?, verdict = .ok true

/-- A connection is destroyed to make room for one of the key. -/
def Evicts (config : Configuration) (s : ConnectionPool K) (key : K) : Prop :=
  s.idleItems key = [] ∧ Below config s key ∧ s.hasReachedMaxTotal config = true ∧
    ∃ k, s.idleItems k ≠ []

/-- A borrow that may take a connection off a queue and not lend one. -/
def Doubtful (config : Configuration) (s : ConnectionPool K) (key : K)
    (makes : List (Option Exn)) (validates : List (Except Exn Bool)) : Prop :=
  (¬ Accepting config validates ∧ (s.idleItems key ≠ [] ∨ Evicts config s key)) ∨
    (Evicts config s key ∧ ∃ e, makes.head? = some (some e))

/-- What others wait for is borrowed, or carried by a thread on its way, or there is one
that lies idle and nothing is going to be destroyed to make room. -/
def Covered (config : Configuration) (waited carried lies : K → Prop) (s : ConnectionPool K) :
    Prop :=
  ∀ k, waited k → s.busyItems k ≠ [] ∨ carried k ∨ config.maxActive = 0 ∨
    (s.hasReachedMaxTotal config = false ∧ lies k)

/-- There is an idle connection besides the one that a borrow takes. -/
def LiesBeside (s : ConnectionPool K) (key k : K) : Prop :=
  (if k = key then 1 else 0) < (s.idleItems k).length

/-- The connection does not go to a queue, and no other one is made for it. -/
def LostOnReturn (config : Configuration) (s : ConnectionPool K) (makes : List (Option Exn))
    (verdict : Except Exn Bool) : Prop :=
  Unanswered config s verdict ∨ FailsToServe config s makes ∨
    (¬ Serves config s ∧ ¬ Accepted config s verdict)

def LostOnInvalidate (config : Configuration) (s : ConnectionPool K)
    (makes : List (Option Exn)) : Prop :=
  ¬ Serves config s ∨ FailsToServe config s makes

/-- Connections are only lost where every key that is waited for is provided without
them, and no update of `totalIdle` is lost where it is looked at. -/
def Provident (config : Configuration) (s : Sleepers K) : Event K → Prop
  | .act (.borrow _ key makes validates) _ =>
    Doubtful config s.system.pool key makes validates →
      Covered config (waitedFor s.system.borrowers) (carriedFor s.system.borrowers)
        (LiesBeside s.system.pool key) s.system.pool
  | .act (.resume thread _ validates) _ =>
    ¬ Accepting config validates → Covered config (waitedFor s.system.borrowers)
      (carriedFor (s.system.borrowers.erase thread)) (fun k => s.system.pool.idleItems k ≠ [])
        s.system.pool
  | .act (.giveBack key obj makes verdict) _ =>
    LostOnReturn config s.system.pool makes verdict →
      SystemSecured config { s.system with pool := unregistered key obj s.system.pool }
  | .act (.invalidate key obj makes) _ =>
    LostOnInvalidate config s.system.pool makes →
      SystemSecured config { s.system with pool := unregistered key obj s.system.pool }
  | .act (.clear _) _ => False
  | .act (.store thread lost) _ => 0 < config.maxTotal → Fresh s.system thread lost
  | .act (.add _ _) _ | .act (.pop _) _ | .act (.load _) _ | .sleep _ | .wake _ => True

variable {s t base : ConnectionPool K} {key : K} {obj : Conn} {config : Configuration}
  {generation : Nat} {waited carried lies : K → Prop} {counted : Nat}
  {validates : List (Except Exn Bool)}

theorem Provided.mono {carried' : K → Prop} {counted' : Nat}
    (provided : Provided config carried counted s key)
    (busy : s.busyItems key ≠ [] → t.busyItems key ≠ [])
    (idle : s.idleItems key ≠ [] → t.idleItems key ≠ []) (carries : carried key → carried' key)
    (total : 0 < config.maxTotal →
      s.totalActive + s.totalIdle + counted ≤ t.totalActive + t.totalIdle + counted') :
    Provided config carried' counted' t key := by
  rcases provided with borrowed | lies | here | none_allowed | ⟨limited, reached⟩
  · exact .inl (busy borrowed)
  · exact .inr (.inl (idle lies))
  · exact .inr (.inr (.inl (carries here)))
  · exact .inr (.inr (.inr (.inl none_allowed)))
  · exact .inr (.inr (.inr (.inr ⟨limited, reached.trans (total limited)⟩)))

/-! ### Sections of `borrowObject` -/

/-- A thread that has looked at the queues waits with a reason. -/
def Reason (config : Configuration) (key : K) (s : ConnectionPool K) : Prop :=
  s.busyItems key ≠ [] ∨ s.idleItems key ≠ [] ∨ config.maxActive = 0 ∨
    (0 < config.maxTotal ∧ config.maxTotal ≤ s.totalActive + s.totalIdle)

theorem reason_of_reached (reached : s.hasReachedMaxTotal config = true) :
    Reason config key s := by
  simp only [hasReachedMaxTotal, Bool.and_eq_true, decide_eq_true_eq] at reached
  exact .inr (.inr (.inr ⟨reached.1, reached.2⟩))

theorem reason_of_taken (taken : ¬ (s.idleItems key = [] ∧ Below config s key)) :
    Reason config key s := by
  by_cases empty : s.idleItems key = []
  · have full : ¬ Below config s key := fun below => taken ⟨empty, below⟩
    simp only [Below, not_or, Int.not_lt, Nat.not_lt] at full
    by_cases none_busy : s.busyItems key = []
    · rw [none_busy, List.length_nil] at full
      exact .inr (.inr (.inl (by omega)))
    · exact .inl none_busy
  · exact .inr (.inl empty)

theorem Reason.provided (reason : Reason config key s) (carried : K → Prop) (counted : Nat) :
    Provided config carried counted s key := by
  rcases reason with busy | idle | none_allowed | ⟨limited, reached⟩
  · exact .inl busy
  · exact .inr (.inl idle)
  · exact .inr (.inr (.inr (.inl none_allowed)))
  · exact .inr (.inr (.inr (.inr ⟨limited, by omega⟩)))

theorem SectionRule.reasoned {inHand lent : Conn → ConnectionPool K → Prop}
    {without waits fails : ConnectionPool K → Prop}
    (rule : SectionRule config base key generation validates inHand lent without waits fails) :
    SectionRule config base key generation validates inHand lent without
      (fun s => waits s ∧ Reason config key s) fails :=
  { rule with
    ask := fun s stands start reached empty =>
      ⟨rule.ask s stands start reached empty, reason_of_reached reached⟩
    wait := fun s stands start taken =>
      ⟨rule.wait s stands start taken, reason_of_taken taken⟩ }

theorem Covered.secured (covered : Covered config waited carried lies s)
    (busy : ∀ k, s.busyItems k ≠ [] → t.busyItems k ≠ [])
    (still : s.hasReachedMaxTotal config = false → ∀ k, lies k → t.idleItems k ≠ [])
    (counted : Nat) : Secured config waited carried counted t := by
  intro k waits
  rcases covered k waits with here | carries | none_allowed | ⟨free, lying⟩
  · exact .inl (busy k here)
  · exact .inr (.inr (.inl carries))
  · exact .inr (.inr (.inr (.inl none_allowed)))
  · exact .inr (.inl (still free k lying))

/-- What a section leaves to the others: the borrowed connections, and while the total is
not reached the idle ones that lie there. -/
structure Leaving (config : Configuration) (lies : K → Prop) (free : Prop)
    (busy : SortedMap K (List Conn)) (s : ConnectionPool K) : Prop where
  busy : s.busy = busy
  unreached : free → s.hasReachedMaxTotal config = false
  lying : free → ∀ k, lies k → s.idleItems k ≠ []

theorem sectionRule_leaving (config : Configuration) (base : ConnectionPool K) (key : K)
    (generation : Nat) (validates : List (Except Exn Bool)) (lies : K → Prop) (free : Prop)
    (busy : SortedMap K (List Conn)) :
    SectionRule config base key generation validates (fun _ => Leaving config lies free busy)
      (fun obj t => t.busy = (registered key obj { t with busy }).busy ∧
        (free → ∀ k, lies k → t.idleItems k ≠ []))
      (Leaving config lies free busy) (Leaving config lies free busy)
      (Leaving config lies free busy) where
  make s t _ leaving _ _ slot _ := by
    cases slot with
    | room below => exact ⟨leaving.busy, leaving.unreached, leaving.lying⟩
    | evict reached scan found =>
      have limited : ¬ free := fun yes => by
        rw [leaving.unreached yes] at reached
        cases reached
      exact ⟨leaving.busy, fun yes => absurd yes limited, fun yes => absurd yes limited⟩
  fail s t e _ leaving _ _ slot _ := by
    cases slot with
    | room below => exact ⟨leaving.busy, leaving.unreached, leaving.lying⟩
    | evict reached scan found =>
      have limited : ¬ free := fun yes => by
        rw [leaving.unreached yes] at reached
        cases reached
      exact ⟨leaving.busy, fun yes => absurd yes limited, fun yes => absurd yes limited⟩
  ask s _ leaving _ _ := ⟨leaving.busy, leaving.unreached, leaving.lying⟩
  wait s _ leaving _ := leaving
  refuse obj s _ leaving _ _ := ⟨leaving.busy, leaving.unreached, leaving.lying⟩
  raise obj s e _ leaving _ _ := leaving
  lend obj s _ leaving := by
    refine ⟨?_, leaving.lying⟩
    simp only [registered, busyItems, leaving.busy]

def InHand (config : Configuration) (waited carried : K → Prop) (counted : Nat) (key : K)
    (s : ConnectionPool K) : Prop :=
  ∀ k, waited k → Provided config (fun j => carried j ∨ j = key) (counted + 1) s k

theorem Secured.frame (secured : Secured config waited carried counted s)
    (idle : t.idle = s.idle) (busy : t.busy = s.busy) (totalIdle : t.totalIdle = s.totalIdle)
    (totalActive : t.totalActive = s.totalActive) : Secured config waited carried counted t := by
  intro k waits
  unfold Provided busyItems idleItems
  rw [idle, busy, totalIdle, totalActive]
  exact secured k waits

theorem Secured.inHand (secured : Secured config waited carried counted s) (key : K) :
    InHand config waited carried counted key s :=
  fun k waits => (secured k waits).mono id id .inl fun _ => by push_cast; omega

theorem InHand.frame (inHand : InHand config waited carried counted key s) (made : Nat)
    (makes : List (Option Exn)) (destroyed : List Conn) :
    InHand config waited carried counted key { s with made, makes, destroyed } := inHand

theorem Secured.poll (secured : Secured config waited carried counted s) (rest : List Conn) :
    InHand config waited carried counted key (polled key generation rest s) := by
  intro k waits
  by_cases own : k = key
  · exact .inr (.inr (.inl (.inr own)))
  have items := idleItems_polled s key generation rest k
  rw [if_neg own] at items
  refine (secured k waits).mono id (fun lies => items ▸ lies) .inl fun _ => ?_
  simp only [polled]
  push_cast
  omega

theorem InHand.register (inHand : InHand config waited carried counted key s) :
    Secured config waited carried counted (registered key obj s) := by
  intro k waits
  have busy := busyItems_registered s key obj k
  by_cases own : k = key
  · rw [if_pos own] at busy
    exact .inl (busy ▸ by simp)
  rw [if_neg own] at busy
  refine (inHand k waits).mono (fun borrowed => busy ▸ borrowed) id
    (fun carries => carries.resolve_right own) fun _ => ?_
  simp only [registered]
  push_cast
  omega

theorem inHand_of_evicted {victim : K} (obj : Conn) {rest : List Conn}
    (reached : s.hasReachedMaxTotal config = true) :
    InHand config waited carried counted key (evicted victim generation obj rest s) := by
  simp only [hasReachedMaxTotal, Bool.and_eq_true, decide_eq_true_eq] at reached
  intro k waits
  refine .inr (.inr (.inr (.inr ⟨reached.1, ?_⟩)))
  simp only [evicted, polled]
  push_cast
  omega

theorem Slot.eq_or_evicts (slot : Slot config s t)
    (found : s.idle.get? key = some (some ⟨generation, []⟩)) (below : Below config s key) :
    t = s ∨ Evicts config s key := by
  cases slot with
  | room free => exact .inl rfl
  | @evict victim _ _ _ reached scan held =>
    refine .inr ⟨idleItems_of_found found, below, reached, victim, ?_⟩
    rw [idleItems_of_found held]
    exact List.cons_ne_nil _ _

theorem sectionRule_accepting (config : Configuration) (s : ConnectionPool K) (key : K)
    (generation : Nat) (waited carried : K → Prop) (counted : Nat)
    (secured : Secured config waited carried counted s)
    (roomy : Evicts config s key → s.makes.head?.join = none) :
    SectionRule config s key generation [] (fun _ t => InHand config waited carried counted key t)
      (fun _ t => Secured config waited carried counted t) (· = s)
      (fun t => Secured config waited carried counted t)
      (fun t => Secured config waited carried counted t) where
  make u t _ same _ _ slot _ := by
    subst same
    cases slot with
    | room free => exact secured.inHand key
    | @evict _ _ obj _ reached scan found => exact inHand_of_evicted obj reached
  fail u t e _ same found below slot planned := by
    subst same
    have makes : t.makes = u.makes := by cases slot <;> rfl
    rcases slot.eq_or_evicts found below with rfl | evicts
    · exact secured.frame rfl rfl rfl rfl
    · rw [makes, roomy evicts] at planned
      cases planned
  ask u _ same _ _ := by
    subst same
    exact secured.frame rfl rfl rfl rfl
  wait u _ same _ := by
    subst same
    exact secured
  refuse _ _ _ _ _ refused := by cases refused
  raise _ _ _ _ _ _ raised := by cases raised
  lend obj t _ inHand := inHand.register

/-- The pool is as at the start of the section, but for what was made and destroyed. -/
structure Unmoved (s t : ConnectionPool K) : Prop where
  idle : t.idle = s.idle
  busy : t.busy = s.busy
  totalIdle : t.totalIdle = s.totalIdle
  totalActive : t.totalActive = s.totalActive

theorem Unmoved.evicts (unmoved : Unmoved s t) (evicts : Evicts config t key) :
    Evicts config s key := by
  unfold Evicts Below idleItems busyItems hasReachedMaxTotal at evicts ⊢
  rwa [unmoved.idle, unmoved.busy, unmoved.totalIdle, unmoved.totalActive] at evicts

theorem Unmoved.secured (unmoved : Unmoved s t)
    (secured : Secured config waited carried counted s) :
    Secured config waited carried counted t :=
  secured.frame unmoved.idle unmoved.busy unmoved.totalIdle unmoved.totalActive

theorem sectionRule_roomy (config : Configuration) (s : ConnectionPool K) (key : K)
    (generation : Nat) (validates : List (Except Exn Bool)) (waited carried : K → Prop)
    (counted : Nat) (secured : Secured config waited carried counted s)
    (roomy : ¬ Evicts config s key) :
    SectionRule config s key generation validates (fun _ t => Unmoved s t)
      (fun _ t => Secured config waited carried counted t) (Unmoved s)
      (fun t => Secured config waited carried counted t)
      (fun t => Secured config waited carried counted t) where
  make u t _ unmoved found below slot _ := by
    rcases slot.eq_or_evicts found below with rfl | evicts
    · exact ⟨unmoved.idle, unmoved.busy, unmoved.totalIdle, unmoved.totalActive⟩
    · exact absurd (unmoved.evicts evicts) roomy
  fail u t e _ unmoved found below slot _ := by
    rcases slot.eq_or_evicts found below with rfl | evicts
    · exact (unmoved.secured secured).frame rfl rfl rfl rfl
    · exact absurd (unmoved.evicts evicts) roomy
  ask u _ unmoved _ _ := (unmoved.secured secured).frame rfl rfl rfl rfl
  wait u _ unmoved _ := unmoved.secured secured
  refuse _ _ _ unmoved _ _ := ⟨unmoved.idle, unmoved.busy, unmoved.totalIdle, unmoved.totalActive⟩
  raise _ _ _ _ unmoved _ _ := unmoved.secured secured
  lend obj t _ unmoved := ((unmoved.secured secured).inHand key).register

theorem testLoop_of_accepting (accepting : Accepting config validates) (obj : Conn) :
    testLoop config key generation validates obj s = testLoop config key generation [] obj s := by
  cases validates with
  | nil => rfl
  | cons verdict rest =>
    simp only [testLoop]
    split
    · rename_i tests
      rw [accepting tests verdict rfl]
    · rfl

theorem borrowObject_of_accepting (accepting : Accepting config validates) :
    borrowObject config key validates s = borrowObject config key [] s := by
  have loops : ∀ g obj t, testLoop config key g validates obj t = testLoop config key g [] obj t :=
    fun g obj t => testLoop_of_accepting accepting obj
  have loops' : ∀ g, testLoop config key g validates = testLoop config key g [] :=
    fun g => funext fun obj => funext fun t => loops g obj t
  unfold borrowObject borrowFrom
  simp only [loops']

theorem Covered.meets (covered : Covered config waited carried lies s) (counted : Nat)
    {result : EStateM.Result Fault (ConnectionPool K) Borrowed}
    (meets : Meets result
      (Leaves s key (fun obj t => t.busy = (registered key obj { t with busy := s.busy }).busy ∧
          (s.hasReachedMaxTotal config = false → ∀ k, lies k → t.idleItems k ≠ []))
        (fun t => Leaving config lies (s.hasReachedMaxTotal config = false) s.busy t ∧
          Reason config key t))
      (fun _ t => (Standing t ∧ Extends s.idle t.idle) ∧
        Leaving config lies (s.hasReachedMaxTotal config = false) s.busy t)) :
    Meets result
      (Leaves s key (fun _ t => Secured config waited carried counted t)
        (fun t => Secured config waited carried counted t ∧ Reason config key t))
      (fun _ t => (Standing t ∧ Extends s.idle t.idle) ∧
        Secured config waited carried counted t) := by
  have still : ∀ t : ConnectionPool K,
      Leaving config lies (s.hasReachedMaxTotal config = false) s.busy t →
        Secured config waited carried counted t := by
    intro t leaving
    refine covered.secured (fun k borrowed => ?_) leaving.lying counted
    unfold busyItems at borrowed ⊢
    rwa [leaving.busy]
  refine meets.mono (fun outcome t leaves => leaves.mono (fun obj lent => ?_) fun remains =>
    ⟨still t remains.1, remains.2⟩) fun _ t failed => ⟨failed.1, still t failed.2⟩
  refine covered.secured (fun k borrowed => ?_) lent.2 counted
  have items := busyItems_registered s key obj k
  have same : t.busyItems k = (registered key obj s).busyItems k := by
    unfold busyItems
    rw [lent.1]
    rfl
  rw [same, items]
  split
  · simp
  · exact borrowed

theorem Leaving.poll (leaving : Leaving config (LiesBeside s key)
      (s.hasReachedMaxTotal config = false) s.busy s) {rest : List Conn}
    (found : s.idle.get? key = some (some ⟨generation, obj :: rest⟩)) :
    Leaving config (LiesBeside s key) (s.hasReachedMaxTotal config = false) s.busy
      (polled key generation rest s) where
  busy := rfl
  unreached free := by
    have fewer : (polled key generation rest s).totalIdle = s.totalIdle - 1 := rfl
    have active : (polled key generation rest s).totalActive = s.totalActive := rfl
    rw [hasReachedMaxTotal, Bool.and_eq_false_iff] at free
    rw [hasReachedMaxTotal, fewer, active, Bool.and_eq_false_iff]
    simp only [decide_eq_false_iff_not] at free ⊢
    omega
  lying free k beside := by
    rw [idleItems_polled]
    split
    · rename_i own
      rw [LiesBeside, if_pos own, own, idleItems_of_found found, List.length_cons] at beside
      exact List.ne_nil_of_length_pos (Nat.lt_of_succ_lt_succ beside)
    · exact leaving.lying free k beside

-- A section of `borrowObject` keeps what the others wait for.
theorem borrowObject_secured (standing : Standing s)
    (secured : Secured config waited carried counted s)
    (covered : Doubtful config s key s.makes validates →
      Covered config waited carried (LiesBeside s key) s) :
    Meets (borrowObject config key validates s)
      (Leaves s key (fun _ t => Secured config waited carried counted t)
        (fun t => Secured config waited carried counted t ∧ Reason config key t))
      (fun _ t => (Standing t ∧ Extends s.idle t.idle) ∧
        Secured config waited carried counted t) := by
  by_cases doubtful : Doubtful config s key s.makes validates
  · have start : Leaving config (LiesBeside s key) (s.hasReachedMaxTotal config = false) s.busy s :=
      ⟨rfl, id, fun _ k beside => List.ne_nil_of_length_pos (Nat.zero_lt_of_lt beside)⟩
    exact (covered doubtful).meets counted (SectionRule.borrowObject standing start
      (fun q _ => (sectionRule_leaving config s key q.generation validates _ _ s.busy).reasoned)
      (fun g obj rest found => start.poll found) fun _ => start)
  by_cases accepting : Accepting config validates
  · rw [borrowObject_of_accepting accepting]
    refine SectionRule.borrowObject standing secured
      (fun q _ => (sectionRule_accepting config s key q.generation waited carried counted secured
        ?_).reasoned)
      (fun g obj rest found => secured.poll rest) fun _ => rfl
    intro evicts
    cases planned : s.makes.head?.join with
    | none => rfl
    | some e => exact absurd (.inr ⟨evicts, e, Option.join_eq_some_iff.mp planned⟩) doubtful
  · have empty : s.idleItems key = [] := by
      by_contra filled
      exact doubtful (.inl ⟨accepting, .inl filled⟩)
    have roomy : ¬ Evicts config s key := fun evicts => doubtful (.inl ⟨accepting, .inr evicts⟩)
    refine SectionRule.borrowObject standing secured
      (fun q _ => (sectionRule_roomy config s key q.generation validates waited carried counted
        secured roomy).reasoned) (fun g obj rest found => ?_) fun _ => ⟨rfl, rfl, rfl, rfl⟩
    rw [idleItems_of_found found] at empty
    cases empty

theorem testLoop_secured (stands : Stands s key generation s)
    (inHand : InHand config waited carried counted key s)
    (covered : ¬ Accepting config validates →
      Covered config waited carried (fun k => s.idleItems k ≠ []) s) :
    Meets (testLoop config key generation validates obj s)
      (Leaves s key (fun _ t => Secured config waited carried counted t)
        (fun t => Secured config waited carried counted t ∧ Reason config key t))
      (fun _ t => (Standing t ∧ Extends s.idle t.idle) ∧
        Secured config waited carried counted t) := by
  by_cases accepting : Accepting config validates
  · rw [testLoop_of_accepting accepting]
    have registers := stands.register obj
    exact ⟨⟨registers.standing, registers.attached⟩, inHand.register⟩
  · exact (covered accepting).meets counted
      ((sectionRule_leaving config s key generation validates _ _ s.busy).reasoned.testLoop stands
        ⟨rfl, id, fun _ _ => id⟩)

/-! ### Hand-backs -/

theorem secured_of_reached (waited carried : K → Prop) (counted : Nat)
    (limited : 0 < config.maxTotal) (reached : config.maxTotal ≤ t.totalActive + t.totalIdle) :
    Secured config waited carried counted t :=
  fun _ _ => .inr (.inr (.inr (.inr ⟨limited, by omega⟩)))

theorem secured_of_served (waited carried : K → Prop) (counted : Nat)
    (reached : s.hasReachedMaxTotal config = true) (key : K) (obj : Conn) (first : K)
    (q : IdleQueue) (rest : List K) :
    Secured config waited carried counted
      (discarded obj (served first q rest (unregistered key obj s))) := by
  simp only [hasReachedMaxTotal, Bool.and_eq_true, decide_eq_true_eq] at reached
  refine secured_of_reached waited carried counted reached.1 ?_
  simp only [discarded, served, pushed, unregistered]
  omega

theorem secured_of_returned (secured : Secured config waited carried counted s) {q : IdleQueue}
    (found : s.idle.get? key = some (some q)) :
    Secured config waited carried counted (pushed key obj q (unregistered key obj s)) := by
  intro k waits
  have found' : (unregistered key obj s).idle.get? key = some (some q) := found
  have items := idleItems_pushed obj q k found'
  have lists := busyItems_unregistered s key obj k
  by_cases own : k = key
  · rw [if_pos own] at items
    exact .inr (.inl (items ▸ by simp))
  rw [if_neg own] at items lists
  refine (secured k waits).mono (fun borrowed => lists ▸ borrowed) (fun lies => items ▸ lies) id
    fun _ => ?_
  simp only [pushed, unregistered]
  omega

theorem returnObject_secured (standing : Standing s) (busy : obj ∈ s.busyItems key)
    (secured : Secured config waited carried counted s) {verdict : Except Exn Bool}
    (kept : LostOnReturn config s s.makes verdict →
      Secured config waited carried counted (unregistered key obj s)) :
    Secured config waited carried counted (final (returnObject config key obj verdict s)) := by
  rcases returnObject_cases config standing (mem_busy_of_item busy) obj verdict with
    ⟨unanswered, e, calls⟩ |
    ⟨answered, reached, first, rest, q, line, found, ⟨-, calls⟩ | ⟨e, planned, calls⟩⟩ |
    ⟨-, idle, accepted, q, found, calls⟩ | ⟨-, idle, refused, calls⟩
  · rw [calls]
    exact kept (.inl unanswered)
  · rw [calls]
    exact secured_of_served waited carried counted reached key obj first q rest
  · rw [calls]
    exact (kept (.inr (.inl ⟨⟨reached, line ▸ List.cons_ne_nil _ _⟩, e,
      Option.join_eq_some_iff.mp planned⟩))).frame rfl rfl rfl rfl
  · rw [calls]
    exact secured_of_returned secured found
  · rw [calls]
    exact (kept (.inr (.inr ⟨idle, refused⟩))).frame rfl rfl rfl rfl

theorem invalidateObject_secured (standing : Standing s) (busy : obj ∈ s.busyItems key)
    (kept : LostOnInvalidate config s s.makes →
      Secured config waited carried counted (unregistered key obj s)) :
    Secured config waited carried counted (final (invalidateObject config key (some obj) s)) := by
  rcases invalidateObject_cases config standing (mem_busy_of_item busy) obj with
    ⟨reached, first, rest, q, line, found, ⟨-, calls⟩ | ⟨e, planned, calls⟩⟩ | ⟨idle, calls⟩
  · rw [calls]
    exact secured_of_served waited carried counted reached key obj first q rest
  · rw [calls]
    exact (kept (.inr ⟨⟨reached, line ▸ List.cons_ne_nil _ _⟩, e,
      Option.join_eq_some_iff.mp planned⟩)).frame rfl rfl rfl rfl
  · rw [calls]
    exact (kept (.inl idle)).frame rfl rfl rfl rfl

/-! ### Steps -/

section Borrowers

variable {borrowers : SortedMap Thread (Borrower K)} {thread : Thread}

omit [LinearOrder K] in
theorem waitedFor_of_erase (waits : waitedFor (borrowers.erase thread) key) :
    waitedFor borrowers key := by
  obtain ⟨other, g, found⟩ := waits
  rw [SortedMap.get?_erase] at found
  split at found
  · cases found
  · exact ⟨other, g, found⟩

omit [LinearOrder K] in
theorem waitedFor_of_insert {b : Borrower K}
    (waits : waitedFor (borrowers.insert thread b) key) :
    (∃ g, b = .waiting key g) ∨ waitedFor (borrowers.erase thread) key := by
  obtain ⟨other, g, found⟩ := waits
  rw [SortedMap.get?_insert] at found
  split at found
  · cases found
    exact .inl ⟨g, rfl⟩
  · rename_i apart
    exact .inr ⟨other, g, by rw [SortedMap.get?_erase_of_ne _ apart, found]⟩

omit [LinearOrder K] in
theorem carriedFor_erase (carries : carriedFor borrowers key) :
    carriedFor (borrowers.erase thread) key ∨
      ∃ b obj, borrowers.get? thread = some b ∧ b.obj = some obj ∧ b.key = key := by
  obtain ⟨other, b, obj, found, holds, of⟩ := carries
  by_cases own : other = thread
  · exact .inr ⟨b, obj, own ▸ found, holds, of⟩
  · exact .inl ⟨other, b, obj, by rw [SortedMap.get?_erase_of_ne _ own, found], holds, of⟩

omit [LinearOrder K] in
theorem carriedFor_insert (carries : carriedFor (borrowers.erase thread) key) (b : Borrower K) :
    carriedFor (borrowers.insert thread b) key := by
  obtain ⟨other, c, obj, found, holds, of⟩ := carries
  rw [SortedMap.get?_erase] at found
  split at found
  · cases found
  · rename_i apart
    exact ⟨other, c, obj, (SortedMap.get?_insert_of_ne _ _ apart).trans found, holds, of⟩

theorem settle_secured {result : EStateM.Result Fault (ConnectionPool K) Borrowed}
    (meets : Meets result
      (Leaves base key
        (fun _ t => Secured config (waitedFor (borrowers.erase thread))
          (carriedFor (borrowers.erase thread)) (betweenCounters (borrowers.erase thread)) t)
        (fun t => Secured config (waitedFor (borrowers.erase thread))
          (carriedFor (borrowers.erase thread)) (betweenCounters (borrowers.erase thread)) t ∧
            Reason config key t))
      (fun _ t => (Standing t ∧ Extends base.idle t.idle) ∧
        Secured config (waitedFor (borrowers.erase thread))
          (carriedFor (borrowers.erase thread)) (betweenCounters (borrowers.erase thread)) t)) :
    SystemSecured config (settle borrowers thread key result) := by
  match result with
  | .ok (.object obj) pool => exact meets.2
  | .error e pool => exact meets.2
  | .ok (.wait generation) pool =>
    obtain ⟨secured, reason⟩ := meets.2
    have between : betweenCounters (borrowers.insert thread (.waiting key generation)) =
        betweenCounters (borrowers.erase thread) := SortedMap.weight_insert_eq _ _ _ _
    intro k waits
    rcases waitedFor_of_insert waits with ⟨g, here⟩ | others
    · cases here
      exact reason.provided _ _
    · exact (secured k others).mono id id (fun carries => carriedFor_insert carries _)
        fun _ => by simp only [settle]; omega

end Borrowers

theorem pop_secured {s t : System K} {thread : Thread} (stands : SystemStands s)
    (secured : SystemSecured config s)
    (found : s.borrowers.get? thread = some (.waiting key generation))
    (popped : popIdle config s thread key generation = some t) : SystemSecured config t := by
  have carries : ∀ k, carriedFor s.borrowers k → carriedFor (s.borrowers.erase thread) k := by
    intro k carries
    refine (carriedFor_erase carries).resolve_right ?_
    rintro ⟨b, obj, here, holds, -⟩
    rw [found] at here
    cases here
    cases holds
  obtain ⟨obj, rest, here, rfl⟩ | ⟨-, -, rfl⟩ := stands.pop found popped
  · have between : betweenCounters (s.borrowers.insert thread (.popped key generation obj)) + 0 =
        betweenCounters s.borrowers + 0 :=
      s.borrowers.weight_replace (fun _ b => b.between) found (.popped key generation obj)
    intro k waits
    rcases waitedFor_of_insert waits with ⟨g, no⟩ | others
    · cases no
    by_cases own : k = key
    · exact .inr (.inr (.inl ⟨thread, _, obj, SortedMap.get?_insert_self _ _ _, rfl, own.symm⟩))
    have items := idleItems_insert s.pool key k ⟨generation, rest⟩
    rw [if_neg own] at items
    exact (secured k (waitedFor_of_erase others)).mono id (fun lies => items ▸ lies)
      (fun held => carriedFor_insert (carries k held) _) fun _ => by simp only; omega
  · have between : betweenCounters (s.borrowers.erase thread) + 0 = betweenCounters s.borrowers := by
      have erased := s.borrowers.weight_erase (fun _ b => b.between) thread
      rw [found] at erased
      exact erased
    intro k waits
    exact (secured k (waitedFor_of_erase waits)).mono id id (carries k) fun _ => by
      simp only
      omega

theorem carryOn_secured {s : System K} {thread : Thread} (secured : SystemSecured config s)
    {b d : Borrower K} (found : s.borrowers.get? thread = some b) (holds : d.obj = b.obj)
    (at_key : d.key = b.key) (carries : ∃ obj, d.obj = some obj) {totalIdle : Int}
    (total : 0 < config.maxTotal →
      s.pool.totalIdle + b.between ≤ totalIdle + d.between) :
    SystemSecured config {
      pool := { s.pool with totalIdle }
      borrowers := s.borrowers.insert thread d } := by
  have between : betweenCounters (s.borrowers.insert thread d) + b.between =
      betweenCounters s.borrowers + d.between :=
    s.borrowers.weight_replace (fun _ b => b.between) found d
  intro k waits
  rcases waitedFor_of_insert waits with ⟨g, no⟩ | others
  · rw [no] at carries
    obtain ⟨obj, nothing⟩ := carries
    cases nothing
  refine (secured k (waitedFor_of_erase others)).mono id id (fun held => ?_) fun limited => ?_
  · rcases carriedFor_erase held with elsewhere | ⟨c, obj', here, has, of⟩
    · exact carriedFor_insert elsewhere _
    · rw [found] at here
      cases here
      exact ⟨thread, d, obj', SortedMap.get?_insert_self _ _ _, holds.trans has,
        at_key.trans of⟩
  · have grown := total limited
    simp only
    omega

theorem add_secured {s : System K} (stands : SystemStands s) (secured : SystemSecured config s)
    (key : K) (makes : List (Option Exn)) :
    SystemSecured config
      { s with pool := final (addObject config key { s.pool with makes }) } := by
  have opens := (addObject_opens config key { s.pool with makes }).final
  rcases addObject_fills config (stands.standing.makes makes) key with ⟨-, calls⟩ |
    ⟨unknown, meets⟩
  · rw [calls]
    exact Secured.frame secured rfl rfl rfl rfl
  · have fills := meets.final
    intro k waits
    have other : k ≠ key := by
      rintro rfl
      obtain ⟨thread, g, found⟩ := waits
      obtain ⟨q, here, -⟩ := stands.attached thread _ found
      exact unknown (s.pool.idle.mem_iff.mpr ⟨_, here⟩)
    have total : s.pool.totalActive + s.pool.totalIdle + betweenCounters s.borrowers ≤
        (final (addObject config key { s.pool with makes })).totalActive +
        (final (addObject config key { s.pool with makes })).totalIdle +
        betweenCounters s.borrowers := by
      rw [fills.active]
      have grown := fills.idle
      simp only at grown ⊢
      omega
    exact (secured k waits).mono (fun borrowed => (opens.busyItems k).symm ▸ borrowed)
      (fun lies => (fills.items k other).symm ▸ lies) id fun _ => total

-- The thread that goes on had the connection that is in its hand.
theorem counted_inHand {s : System K} {thread : Thread} (secured : SystemSecured config s)
    (found : s.borrowers.get? thread = some (.counted key generation obj))
    (makes : List (Option Exn)) :
    InHand config (waitedFor (s.borrowers.erase thread)) (carriedFor (s.borrowers.erase thread))
      (betweenCounters (s.borrowers.erase thread)) key { s.pool with makes } := by
  have between : betweenCounters (s.borrowers.erase thread) + 1 = betweenCounters s.borrowers := by
    have erased := s.borrowers.weight_erase (fun _ b => b.between) thread
    rw [found] at erased
    exact erased
  intro k waits
  refine (secured k (waitedFor_of_erase waits)).mono id id (fun held => ?_) fun _ => ?_
  · rcases carriedFor_erase held with elsewhere | ⟨b, obj', here, holds, of⟩
    · exact .inl elsewhere
    · rw [found] at here
      cases here
      exact .inr of.symm
  · simp only
    omega

theorem step_secured {s : Sleepers K} {u : System K} {action : Action K} {woken : List Thread}
    (stands : SystemStands s.system) (secured : SystemSecured config s.system)
    (provident : Provident config s (.act action woken))
    (taken : step config s.system action = some u) : SystemSecured config u := by
  cases action with
  | add key makes =>
    cases taken
    exact add_secured stands secured key makes
  | borrow thread key makes validates =>
    obtain ⟨absent, rfl⟩ := step_borrow taken
    have begun : Secured config (waitedFor (s.system.borrowers.erase thread))
        (carriedFor (s.system.borrowers.erase thread))
        (betweenCounters (s.system.borrowers.erase thread)) { s.system.pool with makes } := by
      rw [SortedMap.erase_of_not_mem absent]
      exact Secured.frame secured rfl rfl rfl rfl
    refine settle_secured (borrowObject_secured (stands.standing.makes makes) begun ?_)
    rw [SortedMap.erase_of_not_mem absent]
    exact provident
  | pop thread =>
    obtain ⟨key, generation, found, popped⟩ := step_pop taken
    exact pop_secured stands secured found popped
  | load thread =>
    obtain ⟨key, generation, obj, found, rfl⟩ := step_load taken
    exact carryOn_secured (d := .loaded key generation obj s.system.pool.totalIdle) secured found
      rfl rfl ⟨obj, rfl⟩ fun _ => le_rfl
  | store thread lost =>
    obtain ⟨key, generation, obj, read, found, rfl⟩ := step_store taken
    refine carryOn_secured (d := .counted key generation obj) secured found rfl rfl ⟨obj, rfl⟩
      fun limited => ?_
    obtain ⟨rfl, same⟩ := provident limited
    have kept := same key generation obj read found
    simp only [Borrower.between, Bool.false_eq_true, if_false]
    omega
  | resume thread makes validates =>
    obtain ⟨key, generation, obj, found, rfl⟩ := step_resume taken
    refine settle_secured (testLoop_secured (stands.resuming found makes)
      (counted_inHand secured found makes) fun refusing k waits => ?_)
    exact provident refusing k (waitedFor_of_erase waits)
  | giveBack key obj makes verdict =>
    obtain ⟨busy, rfl⟩ := step_giveBack taken
    exact returnObject_secured (s := { s.system.pool with makes }) (stands.standing.makes makes)
      busy (Secured.frame secured rfl rfl rfl rfl)
      fun lost => Secured.frame (provident lost) rfl rfl rfl rfl
  | invalidate key obj makes =>
    obtain ⟨busy, rfl⟩ := step_invalidate taken
    exact invalidateObject_secured (s := { s.system.pool with makes })
      (stands.standing.makes makes) busy
      fun lost => Secured.frame (provident lost) rfl rfl rfl rfl
  | clear key => exact provident.elim

/-! ### Connections that lie ready -/

/-- How many threads that are awake wait for a connection of the key. -/
def awakeFor (borrowers : SortedMap Thread (Borrower K)) (asleep : List Thread) (key : K) : Nat :=
  borrowers.weight fun thread b => if b.waitsFor key = true ∧ thread ∉ asleep then 1 else 0

/-- Where a thread sleeps, each connection in the queue is for a thread that is awake. -/
def Rested (s : Sleepers K) : Prop :=
  ∀ key thread, s.sleepsAt key thread = true →
    (s.system.pool.idleItems key).length ≤ awakeFor s.system.borrowers s.asleep key

-- Only threads that wait sleep.
def SleepersWait (s : Sleepers K) : Prop :=
  ∀ thread ∈ s.asleep, ∃ key generation,
    s.system.borrowers.get? thread = some (.waiting key generation)

@[simp] theorem waitsFor_waiting (k key : K) (generation : Nat) :
    (Borrower.waiting k generation).waitsFor key = decide (k = key) := rfl

@[simp] theorem waitsFor_popped (k key : K) (generation : Nat) (obj : Conn) :
    (Borrower.popped k generation obj).waitsFor key = false := rfl

theorem waitsFor_iff {b : Borrower K} :
    b.waitsFor key = true ↔ ∃ generation, b = .waiting key generation := by
  cases b with
  | waiting k g => simp [Borrower.waitsFor]
  | popped k g obj => simp [Borrower.waitsFor]
  | loaded k g obj read => simp [Borrower.waitsFor]
  | counted k g obj => simp [Borrower.waitsFor]

theorem sleepsAt_iff {s : Sleepers K} {thread : Thread} :
    s.sleepsAt key thread = true ↔ thread ∈ s.asleep ∧
      ∃ generation, s.system.borrowers.get? thread = some (.waiting key generation) := by
  simp only [Sleepers.sleepsAt, Bool.and_eq_true, decide_eq_true_eq, Option.any_eq_true,
    waitsFor_iff]
  refine and_congr_right fun _ => ⟨?_, ?_⟩
  · rintro ⟨b, found, g, rfl⟩
    exact ⟨g, found⟩
  · rintro ⟨g, found⟩
    exact ⟨_, found, g, rfl⟩

theorem awakeFor_le {borrowers borrowers' : SortedMap Thread (Borrower K)}
    {asleep asleep' : List Thread}
    (kept : ∀ thread g, borrowers.get? thread = some (.waiting key g) → thread ∉ asleep →
      borrowers'.get? thread = some (.waiting key g) ∧ thread ∉ asleep') :
    awakeFor borrowers asleep key ≤ awakeFor borrowers' asleep' key := by
  refine SortedMap.weight_le fun thread b found counts => ?_
  split at counts
  · rename_i waits
    obtain ⟨g, rfl⟩ := waitsFor_iff.mp waits.1
    obtain ⟨still, awake⟩ := kept thread g found waits.2
    refine ⟨_, still, ?_⟩
    rw [if_pos waits, if_pos ⟨waits.1, awake⟩]
  · exact absurd rfl counts

theorem awakeFor_fewer {asleep asleep' : List Thread} (fewer : asleep' ⊆ asleep)
    (borrowers : SortedMap Thread (Borrower K)) (key : K) :
    awakeFor borrowers asleep key ≤ awakeFor borrowers asleep' key :=
  awakeFor_le fun _ _ here rests => ⟨here, fun later => rests (fewer later)⟩

theorem awakeFor_woken {borrowers : SortedMap Thread (Borrower K)} {asleep asleep' : List Thread}
    {thread : Thread} (found : borrowers.get? thread = some (.waiting key generation))
    (slept : thread ∈ asleep) (awake : thread ∉ asleep') (fewer : asleep' ⊆ asleep) :
    awakeFor borrowers asleep key + 1 ≤ awakeFor borrowers asleep' key := by
  have before := borrowers.weight_erase
    (fun thread b => if b.waitsFor key = true ∧ thread ∉ asleep then 1 else 0) thread
  have after := borrowers.weight_erase
    (fun thread b => if b.waitsFor key = true ∧ thread ∉ asleep' then 1 else 0) thread
  have others := awakeFor_fewer fewer (borrowers.erase thread) key
  simp only [found, Option.map_some, Option.getD_some, waitsFor_waiting, decide_true, slept, awake,
    not_true, not_false_eq_true, and_false, and_self, if_true, if_false] at before after
  unfold awakeFor at others ⊢
  omega

/-- No queue of a known key becomes longer by more than one. -/
def Steady (s t : ConnectionPool K) : Prop :=
  ∀ k ∈ s.idle, (t.idleItems k).length ≤ (s.idleItems k).length + 1

def Shorter (s t : ConnectionPool K) : Prop :=
  ∀ k, (t.idleItems k).length ≤ (s.idleItems k).length

theorem Shorter.steady (shorter : Shorter s t) : Steady s t :=
  fun k _ => (shorter k).trans (Nat.le_succ _)

theorem Shorter.poll (shorter : Shorter base s) {rest : List Conn}
    (found : s.idle.get? key = some (some ⟨generation, obj :: rest⟩)) :
    Shorter base (polled key generation rest s) := by
  intro k
  have before := shorter k
  rw [idleItems_polled]
  split
  · rename_i here
    rw [here, idleItems_of_found found, List.length_cons] at before
    rw [here]
    omega
  · exact before

theorem sectionRule_shorter (config : Configuration) (base : ConnectionPool K) (key : K)
    (generation : Nat) (validates : List (Except Exn Bool)) :
    SectionRule config base key generation validates (fun _ => Shorter base) (fun _ => Shorter base)
      (Shorter base) (Shorter base) (Shorter base) where
  make s t _ shorter _ _ slot _ := by
    cases slot with
    | room free => exact shorter
    | evict reached scan found => exact shorter.poll found
  fail s t e _ shorter _ _ slot _ := by
    cases slot with
    | room free => exact shorter
    | evict reached scan found => exact shorter.poll found
  ask _ _ shorter _ _ := shorter
  wait _ _ shorter _ := shorter
  refuse _ _ _ shorter _ _ := shorter
  raise _ _ _ _ shorter _ _ := shorter
  lend _ _ _ shorter := shorter

theorem settle_shorter {borrowers : SortedMap Thread (Borrower K)} {thread : Thread}
    {result : EStateM.Result Fault (ConnectionPool K) Borrowed}
    (meets : Meets result (Leaves base key (fun _ => Shorter base) (Shorter base))
      (fun _ t => (Standing t ∧ Extends base.idle t.idle) ∧ Shorter base t)) :
    Shorter base (settle borrowers thread key result).pool := by
  match result with
  | .ok (.object obj) pool => exact meets.2
  | .ok (.wait generation) pool => exact meets.2
  | .error e pool => exact meets.2

theorem steady_pushed {q : IdleQueue} (found : s.idle.get? key = some (some q)) :
    Steady s (pushed key obj q s) := by
  intro k _
  rw [idleItems_pushed _ q k found]
  split
  · rename_i here
    rw [here, List.length_append, List.length_singleton]
  · exact Nat.le_succ _

theorem addObject_steady (config : Configuration) (standing : Standing s) (key : K) :
    Steady s (final (addObject config key s)) := by
  rcases addObject_fills config standing key with ⟨-, calls⟩ | ⟨unknown, meets⟩
  · rw [calls]
    exact fun k _ => Nat.le_succ _
  · intro k known
    have other : k ≠ key := by
      rintro rfl
      exact unknown known
    rw [meets.final.items k other]
    exact Nat.le_succ _

theorem returnObject_steady (config : Configuration) (standing : Standing s)
    (listed : key ∈ s.busy) (obj : Conn) (verdict : Except Exn Bool) :
    Steady s (final (returnObject config key obj verdict s)) := by
  rcases returnObject_cases config standing listed obj verdict with ⟨-, e, calls⟩ |
    ⟨-, -, first, rest, q, line, found, ⟨-, calls⟩ | ⟨e, -, calls⟩⟩ |
    ⟨-, -, -, q, found, calls⟩ | ⟨-, -, -, calls⟩
  · rw [calls]
    exact fun k _ => Nat.le_succ _
  · rw [calls]
    exact steady_pushed found
  · rw [calls]
    exact fun k _ => Nat.le_succ _
  · rw [calls]
    exact steady_pushed found
  · rw [calls]
    exact fun k _ => Nat.le_succ _

theorem invalidateObject_steady (config : Configuration) (standing : Standing s)
    (listed : key ∈ s.busy) (obj : Conn) :
    Steady s (final (invalidateObject config key (some obj) s)) := by
  rcases invalidateObject_cases config standing listed obj with
    ⟨-, first, rest, q, line, found, ⟨-, calls⟩ | ⟨e, -, calls⟩⟩ | ⟨-, calls⟩
  · rw [calls]
    exact steady_pushed found
  · rw [calls]
    exact fun k _ => Nat.le_succ _
  · rw [calls]
    exact fun k _ => Nat.le_succ _

theorem step_steady {s u : System K} {action : Action K} (stands : SystemStands s)
    (remaining : Remaining action) (taken : step config s action = some u) :
    Steady s.pool u.pool := by
  cases action with
  | add key makes =>
    cases taken
    exact addObject_steady config (stands.standing.makes makes) key
  | borrow thread key makes validates =>
    obtain ⟨-, rfl⟩ := step_borrow taken
    have start : Shorter { s.pool with makes } { s.pool with makes } := fun _ => le_rfl
    exact (settle_shorter (SectionRule.borrowObject (stands.standing.makes makes) start
      (fun q _ => sectionRule_shorter config _ key q.generation validates)
      (fun _ _ _ found => start.poll found) fun _ => start)).steady
  | pop thread =>
    obtain ⟨key, generation, found, popped⟩ := step_pop taken
    obtain ⟨obj, rest, here, rfl⟩ | ⟨-, -, rfl⟩ := stands.pop found popped
    · have start : Shorter s.pool s.pool := fun _ => le_rfl
      exact (start.poll here).steady
    · exact fun k _ => Nat.le_succ _
  | load thread =>
    obtain ⟨key, generation, obj, found, rfl⟩ := step_load taken
    exact fun k _ => Nat.le_succ _
  | store thread lost =>
    obtain ⟨key, generation, obj, read, found, rfl⟩ := step_store taken
    exact fun k _ => Nat.le_succ _
  | resume thread makes validates =>
    obtain ⟨key, generation, obj, found, rfl⟩ := step_resume taken
    exact (settle_shorter ((sectionRule_shorter config _ key generation validates).testLoop
      (stands.resuming found makes) fun _ => le_rfl)).steady
  | giveBack key obj makes verdict =>
    obtain ⟨busy, rfl⟩ := step_giveBack taken
    exact returnObject_steady config (stands.standing.makes makes) (mem_busy_of_item busy) obj
      verdict
  | invalidate key obj makes =>
    obtain ⟨busy, rfl⟩ := step_invalidate taken
    exact invalidateObject_steady config (stands.standing.makes makes) (mem_busy_of_item busy) obj
  | clear key => exact remaining.elim

theorem pop_rested {s u : System K} {asleep : List Thread} {thread : Thread}
    (stands : SystemStands s) (awake : thread ∉ asleep)
    (found : s.borrowers.get? thread = some (.waiting key generation))
    (popped : popIdle config s thread key generation = some u) (k : K)
    (enough : (s.pool.idleItems k).length ≤ awakeFor s.borrowers asleep k) :
    (u.pool.idleItems k).length ≤ awakeFor u.borrowers asleep k := by
  obtain ⟨obj, rest, here, rfl⟩ | ⟨-, empty, rfl⟩ := stands.pop found popped
  · have replaced := s.borrowers.weight_replace
      (fun thread b => if b.waitsFor k = true ∧ thread ∉ asleep then 1 else 0) found
      (.popped key generation obj)
    have items := idleItems_insert s.pool key k ⟨generation, rest⟩
    unfold awakeFor at enough ⊢
    by_cases own : k = key
    · subst own
      rw [idleItems_of_found here, List.length_cons] at enough
      simp only [waitsFor_waiting, waitsFor_popped, awake, decide_true, not_false_eq_true, and_self,
        if_true, false_and, if_false, Bool.false_eq_true] at replaced
      simp only [items, if_true]
      omega
    · simp only [waitsFor_waiting, waitsFor_popped, Ne.symm own, decide_false, false_and, if_false,
        Bool.false_eq_true] at replaced
      simp only [items, own, if_false]
      omega
  · have erased := s.borrowers.weight_erase
      (fun thread b => if b.waitsFor k = true ∧ thread ∉ asleep then 1 else 0) thread
    unfold awakeFor at enough ⊢
    by_cases own : k = key
    · rw [own, empty, List.length_nil]
      exact Nat.zero_le _
    · simp only [found, Option.map_some, Option.getD_some, waitsFor_waiting, Ne.symm own,
        decide_false, false_and, if_false, Bool.false_eq_true] at erased
      simp only
      omega

/-- What holds in every state of a run in which connections are not lost. -/
structure Attended (config : Configuration) (s : Sleepers K) : Prop where
  stands : SystemStands s.system
  secured : SystemSecured config s.system
  waiting : SleepersWait s
  rested : Rested s

-- What a step adds to a queue wakes a thread that sleeps there.
theorem awakeFor_notified {s : Sleepers K} {u : System K} {woken : List Thread} {thread : Thread}
    (sleeper : s.sleepsAt key thread = true)
    (grown : ¬ (u.pool.idleItems key).length ≤ (s.system.pool.idleItems key).length)
    (notified : s.notified u woken = true) :
    awakeFor s.system.borrowers s.asleep key + 1 ≤
      awakeFor s.system.borrowers (s.asleep.filter (· ∉ woken)) key := by
  obtain ⟨p, found⟩ : ∃ p, u.pool.idle.get? key = some (some p) := by
    unfold idleItems at grown
    split at grown
    · exact ⟨_, ‹_›⟩
    · exact absurd (Nat.zero_le _) grown
  have tells := List.all_eq_true.mp notified _ ((SortedMap.get?_eq_some _).mp found)
  simp only [grown, decide_false, Bool.false_or, Bool.or_eq_true, Bool.not_eq_true'] at tells
  rcases tells with nobody | somebody
  · have slept := (sleepsAt_iff.mp sleeper).1
    exact absurd sleeper (by simpa using List.any_eq_false.mp nobody thread slept)
  · obtain ⟨w, wakes, slept_there⟩ := List.any_eq_true.mp somebody
    obtain ⟨slept, g, waits_there⟩ := sleepsAt_iff.mp slept_there
    exact awakeFor_woken waits_there slept (by simp [wakes]) (List.filter_subset_self _)

theorem Attended.sleeper_waits {s : Sleepers K} {u : System K} {action : Action K} {thread : Thread}
    (attended : Attended config s) (awake : s.awake action = true)
    (taken : step config s.system action = some u) (slept : thread ∈ s.asleep) :
    ∃ key generation, s.system.borrowers.get? thread = some (.waiting key generation) ∧
      u.borrowers.get? thread = some (.waiting key generation) := by
  obtain ⟨key, g, waits⟩ := attended.waiting thread slept
  have stays : action ≠ .pop thread := by
    rintro rfl
    simp only [Sleepers.awake, decide_eq_true_eq] at awake
    exact awake slept
  exact ⟨key, g, waits, step_waiting taken stays waits⟩

theorem Attended.stays_rested {s : Sleepers K} {u : System K} {action : Action K} {woken : List Thread}
    (attended : Attended config s) (awake : s.awake action = true) (remaining : Remaining action)
    (taken : step config s.system action = some u) (notified : s.notified u woken = true) :
    Rested { system := u, asleep := s.asleep.filter (· ∉ woken) } := by
  have fewer : s.asleep.filter (· ∉ woken) ⊆ s.asleep := List.filter_subset_self _
  intro key thread sleeps
  obtain ⟨still, g, waits⟩ := sleepsAt_iff.mp sleeps
  obtain ⟨k, g', waited, waits'⟩ := attended.sleeper_waits awake taken (fewer still)
  have same := waits.symm.trans waits'
  cases same
  have sleeper : s.sleepsAt key thread = true := sleepsAt_iff.mpr ⟨fewer still, g, waited⟩
  have enough := attended.rested key thread sleeper
  by_cases pops : ∃ other, action = .pop other
  · obtain ⟨other, rfl⟩ := pops
    obtain ⟨k, g', found, popped⟩ := step_pop taken
    simp only [Sleepers.awake, decide_eq_true_eq] at awake
    exact (pop_rested attended.stands awake found popped key enough).trans
      (awakeFor_fewer fewer _ _)
  have kept : awakeFor s.system.borrowers (s.asleep.filter (· ∉ woken)) key ≤
      awakeFor u.borrowers (s.asleep.filter (· ∉ woken)) key :=
    awakeFor_le fun other g here rests =>
      ⟨step_waiting taken (fun pop => pops ⟨other, pop⟩) here, rests⟩
  by_cases grown : (u.pool.idleItems key).length ≤ (s.system.pool.idleItems key).length
  · exact (grown.trans enough).trans ((awakeFor_fewer fewer _ _).trans kept)
  · obtain ⟨q, known, -⟩ := attended.stands.attached thread _ waited
    have steady := step_steady attended.stands remaining taken key
      (s.system.pool.idle.mem_iff.mpr ⟨_, known⟩)
    have one_more := awakeFor_notified sleeper grown notified
    simp only
    omega

theorem Attended.sleep {s : Sleepers K} {thread : Thread} (attended : Attended config s)
    (found : s.system.borrowers.get? thread = some (.waiting key generation))
    (empty : s.system.pool.queueItems key generation = []) :
    Attended config { s with asleep := thread :: s.asleep } where
  stands := attended.stands
  secured := attended.secured
  waiting := by
    rintro other (_ | ⟨_, slept⟩)
    · exact ⟨key, generation, found⟩
    · exact attended.waiting other slept
  rested := by
    intro k other sleeps
    obtain ⟨slept, g, waits⟩ := sleepsAt_iff.mp sleeps
    by_cases own : k = key
    · obtain ⟨q, here, same⟩ := attended.stands.attached thread _ found
      have here' : s.system.pool.idle.get? key = some (some q) := here
      have nothing : s.system.pool.idleItems k = [] := by
        rw [own, idleItems_of_found here']
        simpa [queueItems, here', same, Borrower.generation] using empty
      rw [nothing]
      exact Nat.zero_le _
    -- the thread does not wait for a connection of this key
    have elsewhere : ∀ {w g}, s.system.borrowers.get? w = some (.waiting k g) → w ≠ thread := by
      rintro w g here rfl
      rw [found] at here
      cases here
      exact own rfl
    have slept_before := (List.mem_cons.mp slept).resolve_left (elsewhere waits)
    refine (attended.rested k other (sleepsAt_iff.mpr ⟨slept_before, g, waits⟩)).trans
      (awakeFor_le fun w g here rests => ⟨here, fun later => ?_⟩)
    exact rests ((List.mem_cons.mp later).resolve_left (elsewhere here))

theorem Attended.wake {s : Sleepers K} (attended : Attended config s) (thread : Thread) :
    Attended config { s with asleep := s.asleep.filter (· ≠ thread) } where
  stands := attended.stands
  secured := attended.secured
  waiting other slept := attended.waiting other (List.mem_filter.mp slept).1
  rested := by
    intro key other sleeps
    obtain ⟨slept, waits⟩ := sleepsAt_iff.mp sleeps
    have sleeper := sleepsAt_iff.mpr ⟨(List.mem_filter.mp slept).1, waits⟩
    exact (attended.rested key other sleeper).trans
      (awakeFor_fewer (List.filter_subset_self _) _ _)

theorem happen_attended {s t : Sleepers K} {event : Event K} (attended : Attended config s)
    (provident : Provident config s event) (happens : happen config s event = some t) :
    Attended config t := by
  cases event with
  | act action woken =>
    have remaining : Remaining action := by
      cases action with
      | clear key => exact provident
      | _ => trivial
    simp only [happen, Option.ite_none_right_eq_some, Option.bind_eq_some_iff,
      Option.some.injEq] at happens
    obtain ⟨awake, u, taken, notified, rfl⟩ := happens
    refine ⟨step_stands attended.stands remaining taken,
      step_secured attended.stands attended.secured provident taken, fun thread still => ?_,
      attended.stays_rested awake remaining taken notified⟩
    obtain ⟨key, g, -, waits⟩ := attended.sleeper_waits awake taken (List.mem_filter.mp still).1
    exact ⟨key, g, waits⟩
  | sleep thread =>
    simp only [happen] at happens
    split at happens
    · rename_i key generation found
      simp only [Option.ite_none_right_eq_some, Option.some.injEq] at happens
      obtain ⟨⟨-, empty⟩, rfl⟩ := happens
      exact attended.sleep found empty
    · cases happens
  | wake thread =>
    simp only [happen, Option.ite_none_right_eq_some, Option.some.injEq] at happens
    obtain ⟨-, rfl⟩ := happens
    exact attended.wake thread

/-! ### Runs -/

-- In a state at rest a sleeper's queue is empty, and what it counts on is not there.
theorem Attended.not_stuck {s : Sleepers K} (attended : Attended config s) (key : K) :
    ¬ Stuck config s key := by
  rintro ⟨quiescent, none_busy, ⟨thread, generation, waits⟩, available⟩
  have sleeps : s.sleepsAt key thread = true :=
    sleepsAt_iff.mpr ⟨(quiescent thread _ waits).1, generation, waits⟩
  have nobody : awakeFor s.system.borrowers s.asleep key = 0 :=
    SortedMap.weight_eq_zero fun other b found =>
      if_neg fun awake => awake.2 (quiescent other b found).1
  have settled : betweenCounters s.system.borrowers = 0 := by
    refine SortedMap.weight_eq_zero fun other b found => ?_
    obtain ⟨-, k, g, rfl⟩ := quiescent other b found
    rfl
  have empty : s.system.pool.idleItems key = [] :=
    List.length_eq_zero_iff.mp (Nat.le_zero.mp (nobody ▸ attended.rested key thread sleeps))
  obtain ⟨below, free⟩ := available.resolve_left (absurd empty)
  rcases attended.secured key ⟨thread, generation, waits⟩ with
    busy | idle | carries | none_allowed | ⟨limited, reached⟩
  · exact busy none_busy
  · exact idle empty
  · obtain ⟨other, b, obj, found, holds, -⟩ := carries
    obtain ⟨-, k, g, rfl⟩ := quiescent other b found
    cases holds
  · rw [Below, none_busy, none_allowed] at below
    exact below.elim (lt_irrefl 0) (Nat.not_lt_zero 0)
  · rw [settled] at reached
    simp only [hasReachedMaxTotal, limited, decide_true, Bool.true_and,
      decide_eq_false_iff_not] at free
    omega

/-- In every run in which no connection is lost that somebody counts on, whatever the
schedule, nobody sleeps for good. -/
theorem no_stuck_borrower (config : Configuration) (events : List (Event K)) {s : Sleepers K}
    (guarded : Guarded (happen config) (Provident config) {} events)
    (reached : run (happen config) {} events = some s) : ∀ key, ¬ Stuck config s key := by
  have start : Attended config ({} : Sleepers K) := by
    refine ⟨systemStands_empty, fun k waits => ?_, fun thread slept => ?_, fun key thread slept => ?_⟩
    · obtain ⟨thread, g, found⟩ := waits
      cases found
    · cases slept
    · exact absurd (sleepsAt_iff.mp slept).1 List.not_mem_nil
  exact (run_invariant (Attended config) start
    (fun _ _ _ attended provident happens => happen_attended attended provident happens)
    guarded reached).not_stuck

/-- The only connection is borrowed, and another thread sleeps until it comes back. -/
def contention : List (Event Nat) :=
  [.act (.add 0 []) [], .act (.borrow 0 0 [] []) [], .act (.borrow 1 0 [] []) [], .sleep 1]

/-- The connection is invalidated. `notifyAll` wakes the thread, which finds its queue
empty and sleeps again, and `pop` makes no connection. -/
theorem sleeps_for_good :
    ∃ s, run (happen { maxActive := 1 }) ({} : Sleepers Nat)
        (contention ++ [.act (.invalidate 0 0 []) [], .wake 1, .sleep 1]) = some s ∧
      Stuck { maxActive := 1 } s 0 := by
  refine ⟨_, rfl, ⟨fun thread b found => ?_, rfl, ⟨1, 0, rfl⟩, .inr ⟨.inr (by decide), rfl⟩⟩⟩
  have member := (SortedMap.get?_eq_some _).mp found
  cases List.mem_singleton.mp member
  exact ⟨by decide, 0, 0, rfl⟩

theorem no_stuck_borrower_returned :
    ∃ s, run (happen { maxActive := 1 }) ({} : Sleepers Nat) (contention ++
        [.act (.giveBack 0 0 [] (.ok true)) [1], .act (.pop 1) [], .act (.load 1) [],
          .act (.store 1 false) []]) = some s ∧
      ∀ key, ¬ Stuck { maxActive := 1 } s key := by
  refine ⟨_, rfl, no_stuck_borrower { maxActive := 1 } (contention ++
    [.act (.giveBack 0 0 [] (.ok true)) [1], .act (.pop 1) [], .act (.load 1) [],
      .act (.store 1 false) []]) ?_ rfl⟩
  have waits_none : ∀ k, ¬ waitedFor (SortedMap.empty : SortedMap Thread (Borrower Nat)) k := by
    rintro k ⟨thread, g, found⟩
    cases found
  apply Guarded.cons rfl trivial
  refine Guarded.cons rfl (fun _ k waits => absurd waits (waits_none k)) ?_
  refine Guarded.cons rfl (fun _ k waits => absurd waits (waits_none k)) ?_
  apply Guarded.cons rfl trivial
  refine Guarded.cons rfl ?_ ?_
  · rintro (⟨-, tests, -⟩ | ⟨-, e, planned⟩ | ⟨-, refused⟩)
    · cases tests
    · cases planned
    · exact absurd ⟨rfl, fun tests => by cases tests⟩ refused
  apply Guarded.cons rfl trivial
  apply Guarded.cons rfl trivial
  refine Guarded.cons rfl (fun limited => ?_) trivial
  exact absurd limited (by decide)

end HotRod.Transport
