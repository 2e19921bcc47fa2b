import HotRod.Transport.Capacity
import HotRod.Transport.Sections

/-! Runs without `clear`: the queues that keys, requests and borrowers refer to stay.

A section of `borrowObject` goes through states in which this holds, so an invariant
over runs has only to be looked at in such states. -/

set_option autoImplicit false

namespace HotRod.Transport

open Semantics.Execution ConnectionPool

variable {K : Type} [LinearOrder K]

def ConnectionPool.idleItems (s : ConnectionPool K) (key : K) : List Conn :=
  match s.idle.get? key with
  | some (some q) => q.items
  | _ => []

variable {s t base : ConnectionPool K} {key : K} {obj : Conn} {config : Configuration}
  {generation : Nat}

theorem idleItems_of_found {q : IdleQueue} (found : s.idle.get? key = some (some q)) :
    s.idleItems key = q.items := by
  rw [idleItems, found]

theorem idleItems_insert (s : ConnectionPool K) (key k : K) (q : IdleQueue) :
    ({ s with idle := s.idle.insert key (some q) } : ConnectionPool K).idleItems k =
      if k = key then q.items else s.idleItems k := by
  unfold idleItems
  rw [SortedMap.get?_insert]
  by_cases here : k = key
  · simp only [here, if_true]
  · simp only [here, if_false]

theorem idleItems_pushed (obj : Conn) (q : IdleQueue) (k : K)
    (found : s.idle.get? key = some (some q)) :
    (pushed key obj q s).idleItems k =
      if k = key then s.idleItems key ++ [obj] else s.idleItems k := by
  rw [idleItems_of_found found]
  exact idleItems_insert s key k _

theorem idleItems_polled (s : ConnectionPool K) (key : K) (generation : Nat) (rest : List Conn)
    (k : K) :
    (polled key generation rest s).idleItems k = if k = key then rest else s.idleItems k :=
  idleItems_insert s key k _

theorem busyItems_registered (s : ConnectionPool K) (key : K) (obj : Conn) (k : K) :
    (registered key obj s).busyItems k =
      if k = key then s.busyItems key ++ [obj] else s.busyItems k := by
  unfold busyItems registered
  rw [SortedMap.get?_insert]
  split
  · rfl
  · rfl

theorem busyItems_unregistered (s : ConnectionPool K) (key : K) (obj : Conn) (k : K) :
    (unregistered key obj s).busyItems k =
      if k = key then (s.busyItems key).filter (· ≠ obj) else s.busyItems k := by
  unfold busyItems unregistered
  rw [SortedMap.get?_insert]
  split
  · rfl
  · rfl

/-! ### Queues that stay -/

theorem Standing.frame (standing : Standing s) (same : t.idle = s.idle)
    (line : t.allocationQueue ⊆ s.allocationQueue) (known : ∀ k ∈ t.busy, k ∈ s.busy ∨ k ∈ s.idle) :
    Standing t where
  sound := same ▸ standing.sound
  asked k member := same ▸ standing.asked k (line member)
  listed k member := by
    rcases known k member with old | there
    · exact same ▸ standing.listed k old
    · exact same ▸ there

theorem Standing.replace (standing : Standing s) (q : IdleQueue) (totalIdle : Int) :
    Standing { s with idle := s.idle.insert key (some q), totalIdle } where
  sound := standing.sound.insert key _
  asked k member := (SortedMap.mem_insert _).mpr (.inr (standing.asked k member))
  listed k member := (SortedMap.mem_insert _).mpr (.inr (standing.listed k member))

theorem Standing.unregistered (standing : Standing s) (listed : key ∈ s.busy) (obj : Conn) :
    Standing (unregistered key obj s) := by
  refine standing.frame rfl (List.Subset.refl _) fun k member => .inl ?_
  rcases (SortedMap.mem_insert _).mp member with rfl | later
  · exact listed
  · exact later

/-- The state inside a section of `borrowObject` that started in `base`. -/
structure Stands (base : ConnectionPool K) (key : K) (generation : Nat) (s : ConnectionPool K) :
    Prop where
  standing : Standing s
  attached : Extends base.idle s.idle
  found : ∃ items, s.idle.get? key = some (some ⟨generation, items⟩)

theorem Stands.frame (stands : Stands base key generation s) (same : t.idle = s.idle)
    (line : t.allocationQueue ⊆ s.allocationQueue) (known : ∀ k ∈ t.busy, k ∈ s.busy ∨ k ∈ s.idle) :
    Stands base key generation t :=
  ⟨stands.standing.frame same line known, same ▸ stands.attached, same ▸ stands.found⟩

theorem Stands.slot (stands : Stands base key generation s)
    (found : s.idle.get? key = some (some ⟨generation, []⟩)) (slot : Slot config s t) :
    Stands base key generation t := by
  cases slot with
  | room free => exact stands
  | @evict victim _ _ _ reached scan held =>
    refine ⟨?_, stands.attached.trans (.insert held rfl), [], ?_⟩
    · exact (stands.standing.replace _ (s.totalIdle - 1)).frame rfl (List.Subset.refl _) fun k => .inl
    · have other : key ≠ victim := by
        rintro rfl
        rw [found] at held
        cases held
      exact (SortedMap.get?_insert_of_ne _ _ other).trans found

theorem Stands.ask (stands : Stands base key generation s) :
    Stands base key generation { s with allocationQueue := s.allocationQueue ++ [key] } := by
  obtain ⟨items, found⟩ := stands.found
  have known : key ∈ s.idle := s.idle.mem_iff.mpr ⟨_, found⟩
  refine ⟨⟨stands.standing.sound, fun k member => ?_, stands.standing.listed⟩, stands.attached,
    stands.found⟩
  rcases List.mem_append.mp member with earlier | last
  · exact stands.standing.asked k earlier
  · exact List.mem_singleton.mp last ▸ known

theorem Stands.register (stands : Stands base key generation s) (obj : Conn) :
    Stands base key generation (registered key obj s) := by
  obtain ⟨items, found⟩ := stands.found
  refine stands.frame rfl (List.Subset.refl _) fun k member => ?_
  rcases (SortedMap.mem_insert _).mp member with rfl | old
  · exact .inr (s.idle.mem_iff.mpr ⟨_, found⟩)
  · exact .inl old

theorem Stands.poll (standing : Standing s) {rest : List Conn}
    (found : s.idle.get? key = some (some ⟨generation, obj :: rest⟩)) :
    Stands s key generation (polled key generation rest s) :=
  ⟨standing.replace _ _, .insert found rfl, rest, SortedMap.get?_insert_self _ _ _⟩

/-! ### Sections of `borrowObject` -/

/-- What has to be shown of the borrow loop, in states whose queues stand. -/
structure SectionRule (config : Configuration) (base : ConnectionPool K) (key : K)
    (generation : Nat) (validates : List (Except Exn Bool))
    (inHand lent : Conn → ConnectionPool K → Prop) (without waits fails : ConnectionPool K → Prop) :
    Prop where
  make : ∀ s t, Stands base key generation s → without s →
    s.idle.get? key = some (some ⟨generation, []⟩) → Below config s key → Slot config s t →
    t.makes.head?.join = none → inHand t.made (made t)
  fail : ∀ s t e, Stands base key generation s → without s →
    s.idle.get? key = some (some ⟨generation, []⟩) → Below config s key → Slot config s t →
    t.makes.head?.join = some e → fails { t with makes := t.makes.tail }
  ask : ∀ s, Stands base key generation s → without s → s.hasReachedMaxTotal config = true →
    (∀ k, s.idleItems k = []) → waits { s with allocationQueue := s.allocationQueue ++ [key] }
  wait : ∀ s, Stands base key generation s → without s →
    ¬ (s.idleItems key = [] ∧ Below config s key) → waits s
  refuse : ∀ obj s, Stands base key generation s → inHand obj s → config.testOnBorrow = true →
    .ok false ∈ validates → without (discarded obj s)
  raise : ∀ obj s e, Stands base key generation s → inHand obj s → config.testOnBorrow = true →
    .error e ∈ validates → fails s
  lend : ∀ obj s, Stands base key generation s → inHand obj s → lent obj (registered key obj s)

def Leaves (base : ConnectionPool K) (key : K) (lent : Conn → ConnectionPool K → Prop)
    (waits : ConnectionPool K → Prop) (outcome : Borrowed) (s : ConnectionPool K) : Prop :=
  match outcome with
  | .object obj => (Standing s ∧ Extends base.idle s.idle) ∧ lent obj s
  | .wait g => Stands base key g s ∧ waits s

theorem Leaves.mono {lent lent' : Conn → ConnectionPool K → Prop}
    {waits waits' : ConnectionPool K → Prop} {outcome : Borrowed}
    (leaves : Leaves base key lent waits outcome s) (lends : ∀ obj, lent obj s → lent' obj s)
    (remains : waits s → waits' s) : Leaves base key lent' waits' outcome s := by
  cases outcome with
  | object obj => exact ⟨leaves.1, lends obj leaves.2⟩
  | wait g => exact ⟨leaves.1, remains leaves.2⟩

section Rule

variable {validates : List (Except Exn Bool)} {inHand lent : Conn → ConnectionPool K → Prop}
  {without waits fails : ConnectionPool K → Prop}

theorem SectionRule.borrowRule
    (rule : SectionRule config base key generation validates inHand lent without waits fails) :
    BorrowRule config key generation validates
      (fun obj s => Stands base key generation s ∧ inHand obj s)
      (fun obj s => Stands base key generation s ∧ lent obj s)
      (fun s => Stands base key generation s ∧ without s)
      (fun s => Stands base key generation s ∧ waits s)
      (fun s => (Standing s ∧ Extends base.idle s.idle) ∧ fails s) where
  sound _ start := start.1.standing.sound
  found _ start := start.1.found
  make s t start found below slot planned :=
    ⟨(start.1.slot found slot).frame rfl (List.Subset.refl _) fun _ => .inl,
      rule.make s t start.1 start.2 found below slot planned⟩
  fail s t e start found below slot planned := by
    have stands := start.1.slot found slot
    exact ⟨⟨stands.standing.frame rfl (List.Subset.refl _) fun _ => .inl, stands.attached⟩,
      rule.fail s t e start.1 start.2 found below slot planned⟩
  ask s start reached empty := by
    refine ⟨start.1.ask, rule.ask s start.1 start.2 reached fun k => ?_⟩
    unfold idleItems
    split
    · rename_i q found
      exact empty k q found
    · rfl
  wait s items start found taken :=
    ⟨start.1, rule.wait s start.1 start.2 (by rwa [idleItems_of_found found])⟩
  refuse obj s held tests refused :=
    ⟨held.1.frame rfl (List.Subset.refl _) fun _ => .inl,
      rule.refuse obj s held.1 held.2 tests refused⟩
  raise obj s e held tests raised :=
    ⟨⟨held.1.standing, held.1.attached⟩, rule.raise obj s e held.1 held.2 tests raised⟩
  lend obj s held := ⟨held.1.register obj, rule.lend obj s held.1 held.2⟩

theorem leaves_of_ends {outcome : Borrowed}
    (ended : Ends generation (fun obj s => Stands base key generation s ∧ lent obj s)
      (fun s => Stands base key generation s ∧ waits s) outcome s) :
    Leaves base key lent waits outcome s := by
  cases outcome with
  | object obj => exact ⟨⟨ended.1.standing, ended.1.attached⟩, ended.2⟩
  | wait g =>
    obtain ⟨rfl, waits⟩ := ended
    exact waits

theorem SectionRule.testLoop
    (rule : SectionRule config base key generation validates inHand lent without waits fails)
    (stands : Stands base key generation s) (held : inHand obj s) :
    Meets (testLoop config key generation validates obj s) (Leaves base key lent waits)
      (fun _ t => (Standing t ∧ Extends base.idle t.idle) ∧ fails t) :=
  (rule.borrowRule.testLoop (List.Subset.refl _) ⟨stands, held⟩).mono
    (fun _ _ => leaves_of_ends) fun _ _ => id

theorem SectionRule.borrowObject (standing : Standing s) (turned : fails s)
    (rule : ∀ q, s.idle.get? key = some (some q) →
      SectionRule config s key q.generation validates inHand lent without waits fails)
    (first : ∀ g obj rest, s.idle.get? key = some (some ⟨g, obj :: rest⟩) →
      inHand obj (polled key g rest s))
    (start : s.idleItems key = [] → without s) :
    Meets (borrowObject config key validates s) (Leaves s key lent waits)
      (fun _ t => (Standing t ∧ Extends s.idle t.idle) ∧ fails t) := by
  rcases borrowObject_cases config standing.sound key validates with
    ⟨e, calls⟩ | ⟨⟨g, items⟩, found, calls⟩
  · rw [calls]
    exact ⟨⟨standing, Extends.refl _⟩, turned⟩
  · rw [calls]
    refine ((rule _ found).borrowRule.borrowFrom found ?_ ?_).mono (fun _ _ => leaves_of_ends)
      fun _ _ => id
    · rintro obj rest rfl
      exact ⟨.poll standing found, first g obj rest found⟩
    · rintro rfl
      exact ⟨⟨standing, Extends.refl _, [], found⟩, start (idleItems_of_found found)⟩

end Rule

theorem sectionRule_busy (config : Configuration) (base : ConnectionPool K) (key : K)
    (generation : Nat) (validates : List (Except Exn Bool)) (busy : SortedMap K (List Conn)) :
    SectionRule config base key generation validates (fun _ s => s.busy = busy)
      (fun obj s => s.busy = (registered key obj { s with busy }).busy)
      (fun s => s.busy = busy) (fun s => s.busy = busy) (fun s => s.busy = busy) where
  make s t _ same _ _ slot _ := by cases slot <;> exact same
  fail s t e _ same _ _ slot _ := by cases slot <;> exact same
  ask _ _ same _ _ := same
  wait _ _ same _ := same
  refuse _ _ _ same _ _ := same
  raise _ _ _ _ same _ _ := same
  lend obj s _ same := by
    subst same
    rfl

/-! ### `addObject` -/

/-- The connections of a key that is filled, and nothing else, become more. -/
structure Fills (key : K) (s t : ConnectionPool K) : Prop where
  standing : Standing t
  attached : Extends s.idle t.idle
  found : ∃ q, t.idle.get? key = some (some q)
  items : ∀ k, k ≠ key → t.idleItems k = s.idleItems k
  line : t.allocationQueue = s.allocationQueue
  active : t.totalActive = s.totalActive
  idle : s.totalIdle ≤ t.totalIdle

theorem Fills.trans {u : ConnectionPool K} (first : Fills key s t) (second : Fills key t u) :
    Fills key s u where
  standing := second.standing
  attached := first.attached.trans second.attached
  found := second.found
  items k other := (second.items k other).trans (first.items k other)
  line := second.line.trans first.line
  active := second.active.trans first.active
  idle := first.idle.trans second.idle

theorem growIdle_fills (standing : Standing s) {q : IdleQueue}
    (found : s.idle.get? key = some (some q)) (grown : Nat) :
    Meets (growIdle key grown s) (fun _ t => Fills key s t) (fun _ t => Fills key s t) := by
  induction grown generalizing s q with
  | zero => exact ⟨standing, .refl _, ⟨q, found⟩, fun _ _ => rfl, rfl, rfl, le_rfl⟩
  | succ grown ih =>
    simp only [growIdle]
    rw [bind_apply, makeIdle, bind_apply, makeObject_eq]
    cases s.makes.head?.join with
    | some e =>
      exact ⟨standing.frame rfl (List.Subset.refl _) fun _ => .inl, .refl _, ⟨q, found⟩,
        fun _ _ => rfl, rfl, rfl, le_rfl⟩
    | none =>
      have found' : ({ s with makes := s.makes.tail, made := s.made + 1 } :
          ConnectionPool K).idle.get? key = some (some q) := found
      simp only
      rw [bind_of_ok (pushIdle_eq found' s.made)]
      have pushes : Fills key s
          (pushed key s.made q { s with makes := s.makes.tail, made := s.made + 1 }) := by
        refine ⟨(standing.replace _ (s.totalIdle + 1)).frame rfl (List.Subset.refl _) fun _ => .inl,
          .insert found rfl, ⟨_, SortedMap.get?_insert_self _ _ _⟩, fun k other => ?_, rfl, rfl,
          Int.le_add_one le_rfl⟩
        rw [idleItems_pushed s.made q k found', if_neg other]
        rfl
      obtain ⟨p, filled⟩ := pushes.found
      exact (ih pushes.standing filled).mono (fun _ _ later => pushes.trans later)
        fun _ _ later => pushes.trans later

theorem openQueues_fills (standing : Standing s) (unknown : key ∉ s.idle) :
    Fills key s (openQueues key s) where
  standing := by
    refine ⟨standing.sound.insert key _, fun k member => ?_, fun k member => ?_⟩
    · exact (SortedMap.mem_insert _).mpr (.inr (standing.asked k member))
    · refine (SortedMap.mem_insert _).mpr ?_
      simp only [openQueues] at member
      split at member
      · exact .inr (standing.listed k member)
      · exact ((SortedMap.mem_insert _).mp member).imp id (standing.listed k)
  attached k q found := by
    have other : k ≠ key := by
      rintro rfl
      exact unknown (s.idle.mem_iff.mpr ⟨_, found⟩)
    exact ⟨q, (SortedMap.get?_insert_of_ne _ _ other).trans found, rfl⟩
  found := ⟨_, SortedMap.get?_insert_self _ _ _⟩
  items k other := by
    unfold idleItems openQueues
    rw [SortedMap.get?_insert_of_ne _ _ other]
  line := rfl
  active := rfl
  idle := le_rfl

theorem addObject_fills (config : Configuration) (standing : Standing s) (key : K) :
    (key ∈ s.idle ∧ addObject config key s = .ok () s) ∨
    (key ∉ s.idle ∧ Meets (addObject config key s) (fun _ t => Fills key s t)
      (fun _ t => Fills key s t)) := by
  by_cases known : key ∈ s.idle
  · exact .inl ⟨known, by simp [addObject, bind_apply, known]⟩
  · refine .inr ⟨known, ?_⟩
    have opened := openQueues_fills standing known
    obtain ⟨q, found⟩ := opened.found
    simp only [addObject, ensureMinIdle, bind_apply, get_apply, known, if_false, modify_apply]
    exact (growIdle_fills opened.standing found _).mono (fun _ _ later => opened.trans later)
      fun _ _ later => opened.trans later

/-! ### Hand-backs -/

/-- A hand-back leaves every queue. -/
structure Stays (s t : ConnectionPool K) : Prop where
  standing : Standing t
  attached : Extends s.idle t.idle

theorem stays_served (standing : Standing s) {first : K} {rest : List K} {q : IdleQueue}
    (line : s.allocationQueue = first :: rest) (found : s.idle.get? first = some (some q)) :
    Stays s (served first q rest s) := by
  have requeued : Standing { s with
      allocationQueue := rest, makes := s.makes.tail, made := s.made + 1 } :=
    standing.frame rfl (line ▸ List.subset_cons_self _ _) fun _ => .inl
  exact ⟨requeued.replace _ (s.totalIdle + 1), .insert found rfl⟩

theorem returnObject_stays (config : Configuration) (standing : Standing s)
    (listed : key ∈ s.busy) (obj : Conn) (verdict : Except Exn Bool) :
    Stays s (final (returnObject config key obj verdict s)) := by
  have left := standing.unregistered listed obj
  rcases returnObject_cases config standing listed obj verdict with ⟨-, e, calls⟩ |
    ⟨-, -, first, rest, q, line, found, ⟨-, calls⟩ | ⟨e, -, calls⟩⟩ |
    ⟨-, -, -, q, found, calls⟩ | ⟨-, -, -, calls⟩
  · rw [calls]
    exact ⟨left, .refl _⟩
  · rw [calls]
    have stays := stays_served (s := unregistered key obj s) left line found
    exact ⟨stays.standing.frame rfl (List.Subset.refl _) fun _ => .inl, stays.attached⟩
  · rw [calls]
    exact ⟨left.frame rfl (line ▸ List.subset_cons_self _ _) fun _ => .inl, .refl _⟩
  · rw [calls]
    exact ⟨left.replace _ (s.totalIdle + 1), .insert found rfl⟩
  · rw [calls]
    exact ⟨left.frame rfl (List.Subset.refl _) fun _ => .inl, .refl _⟩

theorem invalidateObject_stays (config : Configuration) (standing : Standing s)
    (listed : key ∈ s.busy) (obj : Conn) :
    Stays s (final (invalidateObject config key (some obj) s)) := by
  have left := standing.unregistered listed obj
  rcases invalidateObject_cases config standing listed obj with
    ⟨-, first, rest, q, line, found, ⟨-, calls⟩ | ⟨e, -, calls⟩⟩ | ⟨-, calls⟩
  · rw [calls]
    have stays := stays_served (s := unregistered key obj s) left line found
    exact ⟨stays.standing.frame rfl (List.Subset.refl _) fun _ => .inl, stays.attached⟩
  · rw [calls]
    exact ⟨left.frame rfl (line ▸ List.subset_cons_self _ _) fun _ => .inl, .refl _⟩
  · rw [calls]
    exact ⟨left.frame rfl (List.Subset.refl _) fun _ => .inl, .refl _⟩

theorem returnObject_busy (config : Configuration) (standing : Standing s)
    (listed : key ∈ s.busy) (obj : Conn) (verdict : Except Exn Bool) :
    (final (returnObject config key obj verdict s)).busy = (unregistered key obj s).busy := by
  rcases returnObject_cases config standing listed obj verdict with ⟨-, e, calls⟩ |
    ⟨-, -, first, rest, q, -, -, ⟨-, calls⟩ | ⟨e, -, calls⟩⟩ | ⟨-, -, -, q, -, calls⟩ |
    ⟨-, -, -, calls⟩
  all_goals
    rw [calls]
    rfl

theorem invalidateObject_busy (config : Configuration) (standing : Standing s)
    (listed : key ∈ s.busy) (obj : Conn) :
    (final (invalidateObject config key (some obj) s)).busy = (unregistered key obj s).busy := by
  rcases invalidateObject_cases config standing listed obj with
    ⟨-, first, rest, q, -, -, ⟨-, calls⟩ | ⟨e, -, calls⟩⟩ | ⟨-, calls⟩
  all_goals
    rw [calls]
    rfl

/-! ### Steps -/

-- Every step but `clear`.
def Remaining : Action K → Prop
  | .clear _ => False
  | _ => True

/-- The queues that keys, requests and borrowers refer to are there. -/
structure SystemStands (s : System K) : Prop where
  standing : Standing s.pool
  attached : Attached s.borrowers s.pool.idle

theorem Standing.makes (standing : Standing s) (makes : List (Option Exn)) :
    Standing { s with makes } := ⟨standing.sound, standing.asked, standing.listed⟩

theorem Stays.system {borrowers : SortedMap Thread (Borrower K)} (stays : Stays s t)
    (attached : Attached borrowers s.idle) : SystemStands { pool := t, borrowers } :=
  ⟨stays.standing, attached.extend stays.attached⟩

theorem settle_stands {borrowers : SortedMap Thread (Borrower K)} {thread : Thread}
    {lent : Conn → ConnectionPool K → Prop} {waits fails : ConnectionPool K → Prop}
    {result : EStateM.Result Fault (ConnectionPool K) Borrowed}
    (meets : Meets result (Leaves base key lent waits)
      (fun _ t => (Standing t ∧ Extends base.idle t.idle) ∧ fails t))
    (attached : Attached borrowers base.idle) : SystemStands (settle borrowers thread key result) := by
  match result with
  | .ok (.object obj) pool => exact ⟨meets.1.1, (attached.erase thread).extend meets.1.2⟩
  | .error e pool => exact ⟨meets.1.1, (attached.erase thread).extend meets.1.2⟩
  | .ok (.wait generation) pool =>
    obtain ⟨items, found⟩ := meets.1.found
    exact ⟨meets.1.standing, (attached.extend meets.1.attached).insert (b := .waiting key generation)
      found rfl thread⟩

theorem sectionRule_stands (config : Configuration) (base : ConnectionPool K) (key : K)
    (generation : Nat) (validates : List (Except Exn Bool)) :
    SectionRule config base key generation validates (fun _ _ => True) (fun _ _ => True)
      (fun _ => True) (fun _ => True) (fun _ => True) := by
  constructor <;> intros <;> trivial

theorem SystemStands.resuming {s : System K} {thread : Thread} (stands : SystemStands s)
    (found : s.borrowers.get? thread = some (.counted key generation obj))
    (makes : List (Option Exn)) :
    Stands { s.pool with makes } key generation { s.pool with makes } := by
  obtain ⟨q, here, rfl⟩ := stands.attached thread _ found
  exact ⟨stands.standing.makes makes, .refl _, q.items, here⟩

theorem SystemStands.pop {s t : System K} {thread : Thread} (stands : SystemStands s)
    (found : s.borrowers.get? thread = some (.waiting key generation))
    (popped : popIdle config s thread key generation = some t) :
    (∃ obj rest, s.pool.idle.get? key = some (some ⟨generation, obj :: rest⟩) ∧
      t = {
        pool := { s.pool with idle := s.pool.idle.insert key (some ⟨generation, rest⟩) }
        borrowers := s.borrowers.insert thread (.popped key generation obj) }) ∨
    (config.exhaustedAction = .EXCEPTION ∧ s.pool.idleItems key = [] ∧
      t = { s with borrowers := s.borrowers.erase thread }) := by
  obtain ⟨⟨g, items⟩, here, rfl⟩ := stands.attached thread _ found
  have here' : s.pool.idle.get? key = some (some ⟨g, items⟩) := here
  have queue : s.pool.queueItems key g = items := by simp [queueItems, here']
  cases items with
  | nil =>
    rw [popIdle, queue] at popped
    simp only [Option.ite_none_right_eq_some, Option.some.injEq] at popped
    exact .inr ⟨popped.1, idleItems_of_found here', popped.2.symm⟩
  | cons obj rest =>
    rw [popIdle, queue] at popped
    cases popped
    exact .inl ⟨obj, rest, here', rfl⟩

theorem step_stands {s t : System K} {action : Action K} (stands : SystemStands s)
    (remaining : Remaining action) (taken : step config s action = some t) : SystemStands t := by
  cases action with
  | add key makes =>
    cases taken
    rcases addObject_fills config (stands.standing.makes makes) key with
      ⟨-, calls⟩ | ⟨-, meets⟩
    · rw [calls]
      exact ⟨stands.standing.makes makes, stands.attached⟩
    · have fills := meets.final
      exact ⟨fills.standing, stands.attached.extend fills.attached⟩
  | borrow thread key makes validates =>
    obtain ⟨-, rfl⟩ := step_borrow taken
    exact settle_stands (SectionRule.borrowObject (stands.standing.makes makes) trivial
      (fun q _ => sectionRule_stands config _ key q.generation validates)
      (fun _ _ _ _ => trivial) fun _ => trivial) stands.attached
  | pop thread =>
    obtain ⟨key, generation, found, popped⟩ := step_pop taken
    obtain ⟨q, here, same⟩ := stands.attached thread _ found
    obtain ⟨obj, rest, queue, rfl⟩ | ⟨-, -, rfl⟩ := stands.pop found popped
    · refine ⟨stands.standing.replace _ s.pool.totalIdle, ?_⟩
      exact (stands.attached.insert (b := .popped key generation obj) here same thread).extend
        (.insert queue rfl)
    · exact ⟨stands.standing, stands.attached.erase thread⟩
  | load thread =>
    obtain ⟨key, generation, obj, found, rfl⟩ := step_load taken
    obtain ⟨q, here, same⟩ := stands.attached thread _ found
    exact ⟨stands.standing,
      stands.attached.insert (b := .loaded key generation obj s.pool.totalIdle) here same thread⟩
  | store thread lost =>
    obtain ⟨key, generation, obj, read, found, rfl⟩ := step_store taken
    obtain ⟨q, here, same⟩ := stands.attached thread _ found
    exact ⟨stands.standing.frame rfl (List.Subset.refl _) fun _ => .inl,
      stands.attached.insert (b := .counted key generation obj) here same thread⟩
  | resume thread makes validates =>
    obtain ⟨key, generation, obj, found, rfl⟩ := step_resume taken
    exact settle_stands ((sectionRule_stands config _ key generation validates).testLoop
      (stands.resuming found makes) trivial) stands.attached
  | giveBack key obj makes verdict =>
    obtain ⟨busy, rfl⟩ := step_giveBack taken
    exact (returnObject_stays config (stands.standing.makes makes) (mem_busy_of_item busy) obj
      verdict).system stands.attached
  | invalidate key obj makes =>
    obtain ⟨busy, rfl⟩ := step_invalidate taken
    exact (invalidateObject_stays config (stands.standing.makes makes) (mem_busy_of_item busy)
      obj).system stands.attached
  | clear key => exact remaining.elim

theorem systemStands_empty : SystemStands ({} : System K) where
  standing := {
    sound := fun key found => by cases found
    asked := fun k member => by cases member
    listed := fun k member => absurd member SortedMap.not_mem_empty }
  attached thread b found := by cases found

end HotRod.Transport
