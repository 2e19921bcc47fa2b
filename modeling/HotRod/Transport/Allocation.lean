import HotRod.Transport.Standing

/-! The requests in `allocationQueue`, and the borrowers that made them.

Beside the pool goes a record of the threads that wait because `maxTotal` was
reached. A hand-back that serves a request leaves a connection to its thread, so a
thread for whose key a connection lies ready does not wait any longer. -/

set_option autoImplicit false

namespace HotRod.Transport

open Semantics.Execution Semantics.Transition ConnectionPool

variable {K : Type} [LinearOrder K]

/-- `asked` are the threads that wait because `maxTotal` was reached, with their keys. -/
structure Requests (K : Type) [LinearOrder K] where
  system : System K := {}
  asked : SortedMap Thread K := SortedMap.empty

def askedFor (asked : SortedMap Thread K) (key : K) : Nat := asked.weight fun _ k => under key k

/-- A section that ends in a wait has asked if it has made the queue longer. -/
def askedAfter (before after : System K) (thread : Thread) (asked : SortedMap Thread K) :
    SortedMap Thread K :=
  match after.borrowers.get? thread with
  | some (.waiting key _) =>
    if before.pool.allocationQueue.length < after.pool.allocationQueue.length then
      asked.insert thread key
    else asked
  | _ => asked

/-- A step of the pool with the record. Who pops a connection, or raises because there
is none, does not wait any longer. -/
def follow (config : Configuration) (s : Requests K) (action : Action K) : Option (Requests K) :=
  (step config s.system action).map fun t => {
    system := t
    asked := match action with
      | .borrow thread _ _ _ | .resume thread _ _ => askedAfter s.system t thread s.asked
      | .pop thread => s.asked.erase thread
      | _ => s.asked }

/-- The requests in line are those of the waiters for which no connection lies ready. -/
def Owed (asked : K → Nat) (s : ConnectionPool K) : Prop :=
  ∀ k, s.allocationQueue.count k = asked k - (s.idleItems k).length

def RequestsMatch (s : Requests K) : Prop := Owed (askedFor s.asked) s.system.pool

/-! ### When nothing is orphaned or lost -/

-- No connection lies ready for a thread that has asked.
def Undelivered (asked : K → Nat) (s : ConnectionPool K) : Prop :=
  ∀ k, asked k ≠ 0 → s.idleItems k = []

/-- Another connection can be destroyed to make room: there are more of its key than
threads that have asked for one. -/
def Spares (config : Configuration) (asked : K → Nat) (s : ConnectionPool K) : Prop :=
  s.hasReachedMaxTotal config = true →
    ∀ victim, keyToRemove config none 0 s.idle.entries = .ok (some victim) →
      asked victim < (s.idleItems victim).length

/-- A connection that is borrowed may be refused, and another one looked for. -/
def Refusable (config : Configuration) (validates : List (Except Exn Bool)) : Prop :=
  config.testOnBorrow = true ∧ .ok false ∈ validates

/-- The steps that leave each request to its thread. -/
def Considerate (config : Configuration) (s : Requests K) : Action K → Prop
  | .borrow _ key _ validates =>
    -- a connection that lies ready for another thread is not taken
    (s.system.pool.idleItems key ≠ [] →
      askedFor s.asked key < (s.system.pool.idleItems key).length) ∧
    (s.system.pool.idleItems key = [] → Below config s.system.pool key →
      Spares config (askedFor s.asked) s.system.pool) ∧
    (Refusable config validates → Undelivered (askedFor s.asked) s.system.pool)
  | .resume _ _ validates =>
    Refusable config validates → Undelivered (askedFor s.asked) s.system.pool
  | .pop thread => ∀ key generation, s.system.borrowers.get? thread = some (.waiting key generation) →
    (s.system.pool.idleItems key ≠ [] → thread ∈ s.asked ∨
      askedFor s.asked key < (s.system.pool.idleItems key).length) ∧
    -- a thread that has asked does not give up
    (s.system.pool.idleItems key = [] → thread ∉ s.asked)
  | .giveBack key _ makes verdict =>
    (¬ Unanswered config s.system.pool verdict → ¬ FailsToServe config s.system.pool makes) ∧
    -- a connection goes back to its queue only if nobody has asked for one
    (¬ Serves config s.system.pool → Accepted config s.system.pool verdict →
      key ∉ s.system.pool.allocationQueue)
  | .invalidate _ _ makes => ¬ FailsToServe config s.system.pool makes
  | .clear _ => False
  | .add _ _ | .load _ | .store _ _ => True

variable {s t base : ConnectionPool K} {key : K} {obj : Conn} {config : Configuration}
  {asked : K → Nat} {generation : Nat}

/-! ### Sections of `borrowObject` -/

theorem Owed.frame (owed : Owed asked s) (line : t.allocationQueue = s.allocationQueue)
    (items : ∀ k, t.idleItems k = s.idleItems k) : Owed asked t := by
  intro k
  rw [line, items]
  exact owed k

-- The head of a queue that is longer than the line for it may be taken.
theorem Owed.take (owed : Owed asked s) {rest : List Conn} (totalIdle : Int)
    (found : s.idle.get? key = some (some ⟨generation, obj :: rest⟩))
    (spare : asked key < (s.idleItems key).length) :
    Owed asked { s with idle := s.idle.insert key (some ⟨generation, rest⟩), totalIdle } := by
  intro k
  have items := idleItems_insert { s with totalIdle } key k ⟨generation, rest⟩
  have before := owed k
  rw [idleItems_of_found found, List.length_cons] at spare
  by_cases here : k = key
  · subst here
    rw [idleItems_of_found found, List.length_cons] at before
    rw [if_pos rfl] at items
    simp only [items]
    omega
  · rw [if_neg here] at items
    simp only [items]
    exact before

theorem Undelivered.take (undelivered : Undelivered asked s) {rest : List Conn} (totalIdle : Int)
    (found : s.idle.get? key = some (some ⟨generation, obj :: rest⟩)) :
    Undelivered asked { s with idle := s.idle.insert key (some ⟨generation, rest⟩), totalIdle } := by
  intro k some_asked
  have empty := undelivered k some_asked
  have items := idleItems_insert { s with totalIdle } key k ⟨generation, rest⟩
  by_cases here : k = key
  · subst here
    rw [idleItems_of_found found] at empty
    cases empty
  · rw [if_neg here] at items
    exact items.trans empty

theorem Undelivered.spares (undelivered : Undelivered asked s) : Spares config asked s := by
  intro _ victim scan
  rcases keyToRemove_some scan with none_better | ⟨q, member, filled⟩
  · cases none_better
  have items := idleItems_of_found (s.idle.get?_eq_some.mpr member)
  have none_asked : asked victim = 0 := by
    by_contra some_asked
    exact filled (items ▸ undelivered victim some_asked)
  rw [none_asked, items]
  exact List.length_pos_iff.mpr filled

def oneMore (key : K) (asked : K → Nat) (k : K) : Nat := asked k + under key k

theorem under_comm (j k : K) : under j k = under k j := if_congr eq_comm rfl rfl

theorem count_one (key k : K) : [key].count k = under key k := by
  unfold under
  by_cases here : k = key
  · subst here
    simp
  · rw [List.count_eq_zero_of_not_mem (by simpa using here), if_neg here]

structure Holding (config : Configuration) (validates : List (Except Exn Bool)) (asked : K → Nat)
    (line : List K) (s : ConnectionPool K) : Prop where
  owed : Owed asked s
  line : s.allocationQueue = line
  undelivered : Refusable config validates → Undelivered asked s

structure Seeking (config : Configuration) (key : K) (validates : List (Except Exn Bool))
    (asked : K → Nat) (line : List K) (s : ConnectionPool K) : Prop
    extends Holding config validates asked line s where
  spares : Below config s key → Spares config asked s

/-- The thread waits, and has asked if the line has become longer. -/
def Lines (key : K) (asked : K → Nat) (line : List K) (s : ConnectionPool K) : Prop :=
  (s.allocationQueue = line ∧ Owed asked s) ∨
    (s.allocationQueue = line ++ [key] ∧ Owed (oneMore key asked) s)

variable {validates : List (Except Exn Bool)} {line : List K}

theorem Holding.slot (seeking : Seeking config key validates asked line s)
    (below : Below config s key) (slot : Slot config s t) :
    Holding config validates asked line t := by
  cases slot with
  | room free => exact seeking.toHolding
  | @evict victim _ _ _ reached scan found =>
    have spare := seeking.spares below reached victim scan
    refine ⟨?_, seeking.line, fun refusable => ?_⟩
    · exact (seeking.owed.take (s.totalIdle - 1) found spare).frame rfl fun _ => rfl
    · exact (seeking.undelivered refusable).take (s.totalIdle - 1) found

theorem sectionRule_requests (config : Configuration) (base : ConnectionPool K) (key : K)
    (generation : Nat) (validates : List (Except Exn Bool)) (asked : K → Nat) (line : List K) :
    SectionRule config base key generation validates
      (fun _ s => Holding config validates asked line s)
      (fun _ s => s.allocationQueue = line ∧ Owed asked s)
      (Seeking config key validates asked line) (Lines key asked line)
      (fun s => s.allocationQueue = line ∧ Owed asked s) where
  make s t _ seeking _ below slot _ :=
    have holding := Holding.slot seeking below slot
    ⟨holding.owed, holding.line, holding.undelivered⟩
  fail s t e _ seeking _ below slot _ :=
    have holding := Holding.slot seeking below slot
    ⟨holding.line, holding.owed⟩
  ask s _ seeking _ empty := by
    refine .inr ⟨by rw [seeking.line], fun k => ?_⟩
    have before := seeking.owed k
    rw [empty k, List.length_nil, Nat.sub_zero] at before
    have none_idle : ({ s with allocationQueue := s.allocationQueue ++ [key] } :
        ConnectionPool K).idleItems k = [] := empty k
    rw [none_idle, List.count_append, before, count_one]
    rfl
  wait s _ seeking _ := .inl ⟨seeking.line, seeking.owed⟩
  refuse obj s _ holding tests refused :=
    have undelivered := holding.undelivered ⟨tests, refused⟩
    ⟨⟨holding.owed, holding.line, holding.undelivered⟩, fun _ => Undelivered.spares undelivered⟩
  raise obj s e _ holding _ _ := ⟨holding.line, holding.owed⟩
  lend obj s _ holding := ⟨holding.line, holding.owed⟩

/-! ### Hand-backs -/

theorem Owed.serve (owed : Owed asked s) {first : K} {rest : List K} {q : IdleQueue}
    (line : s.allocationQueue = first :: rest) (found : s.idle.get? first = some (some q)) :
    Owed asked (served first q rest s) := by
  intro k
  have found' : ({ s with allocationQueue := rest, makes := s.makes.tail, made := s.made + 1 } :
      ConnectionPool K).idle.get? first = some (some q) := found
  have items := idleItems_pushed s.made q k found'
  have before := owed k
  rw [line] at before
  simp only [served, items]
  by_cases here : k = first
  · subst here
    have same : ({ s with allocationQueue := rest, makes := s.makes.tail, made := s.made + 1 } :
        ConnectionPool K).idleItems k = s.idleItems k := rfl
    rw [List.count_cons_self] at before
    simp only [if_true, same, pushed, List.length_append, List.length_singleton]
    omega
  · rw [List.count_cons_of_ne (Ne.symm here)] at before
    simp only [here, if_false]
    exact before

theorem Owed.push (owed : Owed asked s) {q : IdleQueue} (unasked : key ∉ s.allocationQueue)
    (found : s.idle.get? key = some (some q)) : Owed asked (pushed key obj q s) := by
  intro k
  have items := idleItems_pushed obj q k found
  have before := owed k
  by_cases here : k = key
  · subst here
    have more : ((pushed k obj q s).idleItems k).length = (s.idleItems k).length + 1 := by
      rw [items, if_pos rfl, List.length_append, List.length_singleton]
    have line : (pushed k obj q s).allocationQueue.count k = 0 :=
      List.count_eq_zero_of_not_mem unasked
    rw [List.count_eq_zero_of_not_mem unasked] at before
    omega
  · simp only [items, here, if_false]
    exact before

theorem returnObject_owed (owed : Owed asked s) (standing : Standing s)
    (busy : obj ∈ s.busyItems key) {verdict : Except Exn Bool}
    (served : ¬ Unanswered config s verdict → ¬ FailsToServe config s s.makes)
    (unasked : ¬ Serves config s → Accepted config s verdict → key ∉ s.allocationQueue) :
    Owed asked (final (returnObject config key obj verdict s)) := by
  have left : Owed asked (unregistered key obj s) := owed.frame rfl fun _ => rfl
  rcases returnObject_cases config standing (mem_busy_of_item busy) obj verdict with ⟨-, e, calls⟩ |
    ⟨answered, reached, first, rest, q, line, found, ⟨-, calls⟩ | ⟨e, planned, calls⟩⟩ |
    ⟨-, idle, accepted, q, found, calls⟩ | ⟨-, -, -, calls⟩
  · rw [calls]
    exact left
  · rw [calls]
    exact (Owed.serve (s := unregistered key obj s) left line found).frame rfl fun _ => rfl
  · refine absurd ⟨⟨reached, ?_⟩, e, ?_⟩ (served answered)
    · exact line ▸ List.cons_ne_nil _ _
    · exact Option.join_eq_some_iff.mp planned
  · rw [calls]
    exact Owed.push (s := unregistered key obj s) left (unasked idle accepted) found
  · rw [calls]
    exact left.frame rfl fun _ => rfl

theorem invalidateObject_owed (owed : Owed asked s) (standing : Standing s)
    (busy : obj ∈ s.busyItems key) (served : ¬ FailsToServe config s s.makes) :
    Owed asked (final (invalidateObject config key (some obj) s)) := by
  have left : Owed asked (unregistered key obj s) := owed.frame rfl fun _ => rfl
  rcases invalidateObject_cases config standing (mem_busy_of_item busy) obj with
    ⟨reached, first, rest, q, line, found, ⟨-, calls⟩ | ⟨e, planned, calls⟩⟩ | ⟨-, calls⟩
  · rw [calls]
    exact (Owed.serve (s := unregistered key obj s) left line found).frame rfl fun _ => rfl
  · refine absurd ⟨⟨reached, ?_⟩, e, ?_⟩ served
    · exact line ▸ List.cons_ne_nil _ _
    · exact Option.join_eq_some_iff.mp planned
  · rw [calls]
    exact left.frame rfl fun _ => rfl

/-! ### Steps -/

/-- Who has asked is waiting, and the requests match. -/
structure Aligned (s : Requests K) : Prop where
  stands : SystemStands s.system
  waits : ∀ thread key, s.asked.get? thread = some key →
    ∃ generation, s.system.borrowers.get? thread = some (.waiting key generation)
  owed : RequestsMatch s

theorem Aligned.askedFor_eq_zero {s : Requests K} (aligned : Aligned s)
    (unknown : key ∉ s.system.pool.idle) : askedFor s.asked key = 0 := by
  refine List.sum_eq_zero fun n member => ?_
  obtain ⟨⟨thread, k⟩, listed, rfl⟩ := List.mem_map.mp member
  obtain ⟨g, waiting⟩ := aligned.waits thread k (s.asked.get?_eq_some.mpr listed)
  obtain ⟨q, found, -⟩ := aligned.stands.attached thread _ waiting
  refine if_neg ?_
  rintro rfl
  exact unknown (s.system.pool.idle.mem_iff.mpr ⟨_, found⟩)

theorem Aligned.unasked {s : Requests K} {thread : Thread} (aligned : Aligned s)
    (busy : ∀ key generation,
      s.system.borrowers.get? thread ≠ some (.waiting key generation)) :
    s.asked.get? thread = none := by
  by_contra recorded
  obtain ⟨k, found⟩ := Option.ne_none_iff_exists'.mp recorded
  obtain ⟨g, waiting⟩ := aligned.waits thread k found
  exact busy k g waiting

theorem Aligned.still_waits {s : Requests K} {t : System K} {action : Action K}
    {thread : Thread} (aligned : Aligned s) (taken : step config s.system action = some t)
    (stays : action ≠ .pop thread) (recorded : s.asked.get? thread = some key) :
    ∃ generation, t.borrowers.get? thread = some (.waiting key generation) := by
  obtain ⟨g, waiting⟩ := aligned.waits thread key recorded
  exact ⟨g, step_waiting taken stays waiting⟩

theorem askedFor_erase (m : SortedMap Thread K) (thread : Thread) (k : K) :
    askedFor (m.erase thread) k + ((m.get? thread).map (under k)).getD 0 = askedFor m k :=
  SortedMap.weight_erase _ m thread

theorem askedFor_insert {m : SortedMap Thread K} {thread : Thread} (fresh : m.get? thread = none)
    (key k : K) : askedFor (m.insert thread key) k = oneMore key (askedFor m) k := by
  have inserted := SortedMap.weight_insert (fun (_ : Thread) j => under k j) m thread key
  rw [fresh, under_comm k key] at inserted
  exact inserted

variable {t' : System K} {thread : Thread}

theorem settle_aligned {s : Requests K} {result : EStateM.Result Fault (ConnectionPool K) Borrowed}
    (aligned : Aligned s) (stands : SystemStands (settle s.system.borrowers thread key result))
    (fresh : s.asked.get? thread = none)
    (meets : Meets result
      (Leaves base key
        (fun _ t => t.allocationQueue = s.system.pool.allocationQueue ∧ Owed (askedFor s.asked) t)
        (Lines key (askedFor s.asked) s.system.pool.allocationQueue))
      (fun _ t => (Standing t ∧ Extends base.idle t.idle) ∧
        t.allocationQueue = s.system.pool.allocationQueue ∧ Owed (askedFor s.asked) t)) :
    Aligned {
      system := settle s.system.borrowers thread key result
      asked := askedAfter s.system (settle s.system.borrowers thread key result) thread
        s.asked } := by
  have waits : ∀ other k, s.asked.get? other = some k → ∃ g,
      (settle s.system.borrowers thread key result).borrowers.get? other =
        some (.waiting k g) := by
    intro other k recorded
    have apart : other ≠ thread := by
      rintro rfl
      rw [fresh] at recorded
      cases recorded
    rw [settle_others apart]
    exact aligned.waits other k recorded
  cases result with
  | ok outcome pool =>
    cases outcome with
    | object obj =>
      have unrecorded : askedAfter s.system (settle s.system.borrowers thread key
          (.ok (.object obj) pool)) thread s.asked = s.asked := by
        simp [askedAfter, settle]
      rw [unrecorded]
      exact ⟨stands, waits, meets.2.2⟩
    | wait generation =>
      have recorded : askedAfter s.system (settle s.system.borrowers thread key
          (.ok (.wait generation) pool)) thread s.asked =
            if s.system.pool.allocationQueue.length < pool.allocationQueue.length then
              s.asked.insert thread key else s.asked := by
        simp only [askedAfter, settle, SortedMap.get?_insert_self]
        rfl
      rw [recorded]
      rcases meets.2 with ⟨line, owed⟩ | ⟨line, owed⟩
      · rw [line, if_neg (lt_irrefl _)]
        exact ⟨stands, waits, owed⟩
      · rw [line, if_pos (by simp)]
        refine ⟨stands, fun other k found => ?_, fun k => ?_⟩
        · rw [SortedMap.get?_insert] at found
          split at found
          · rename_i here
            cases found
            exact ⟨generation, by simp [settle, here]⟩
          · exact waits other k found
        · rw [askedFor_insert fresh]
          exact owed k
  | error e pool =>
    have unrecorded : askedAfter s.system (settle s.system.borrowers thread key
        (.error e pool)) thread s.asked = s.asked := by
      simp [askedAfter, settle]
    rw [unrecorded]
    exact ⟨stands, waits, meets.2.2⟩

theorem add_owed {s : Requests K} (aligned : Aligned s) (key : K) (makes : List (Option Exn)) :
    Owed (askedFor s.asked) (final (addObject config key { s.system.pool with makes })) := by
  have owed : Owed (askedFor s.asked) s.system.pool := aligned.owed
  rcases addObject_fills config (aligned.stands.standing.makes makes) key with ⟨-, calls⟩ |
    ⟨unknown, meets⟩
  · rw [calls]
    exact owed.frame rfl fun _ => rfl
  · have fills := meets.final
    intro k
    have before := owed k
    have line := fills.line
    simp only at line
    rw [line]
    by_cases here : k = key
    · subst here
      rw [aligned.askedFor_eq_zero unknown] at before ⊢
      omega
    · rw [fills.items k here]
      exact before

theorem pop_owed {s : Requests K} (aligned : Aligned s)
    (found : s.system.borrowers.get? thread = some (.waiting key generation))
    (ready : s.system.pool.idleItems key ≠ [] → thread ∈ s.asked ∨
      askedFor s.asked key < (s.system.pool.idleItems key).length)
    (patient : s.system.pool.idleItems key = [] → thread ∉ s.asked)
    (popped : popIdle config s.system thread key generation = some t') :
    Owed (askedFor (s.asked.erase thread)) t'.pool := by
  have owed : Owed (askedFor s.asked) s.system.pool := aligned.owed
  obtain ⟨obj, rest, here, rfl⟩ | ⟨-, empty, rfl⟩ := aligned.stands.pop found popped
  · have lying := idleItems_of_found here
    by_cases recorded : thread ∈ s.asked
    · obtain ⟨j, asked⟩ := s.asked.mem_iff.mp recorded
      obtain ⟨g, waiting⟩ := aligned.waits thread j asked
      rw [found] at waiting
      cases waiting
      intro k
      have erased := askedFor_erase s.asked thread k
      rw [asked, Option.map_some, Option.getD_some, under] at erased
      have items := idleItems_insert s.system.pool key k ⟨generation, rest⟩
      have before := owed k
      simp only [items]
      -- the line for the key and its queue become shorter together
      by_cases own : k = key
      · subst own
        rw [lying, List.length_cons] at before
        simp only [if_true] at erased ⊢
        omega
      · rw [if_neg (Ne.symm own)] at erased
        rw [if_neg own]
        omega
    · rw [SortedMap.erase_of_not_mem recorded]
      have spare := (ready (lying ▸ List.cons_ne_nil _ _)).resolve_left recorded
      exact owed.take s.system.pool.totalIdle here spare
  · rw [SortedMap.erase_of_not_mem (patient empty)]
    exact owed

theorem follow_aligned {s t : Requests K} {action : Action K} (aligned : Aligned s)
    (considerate : Considerate config s action) (followed : follow config s action = some t) :
    Aligned t := by
  obtain ⟨u, taken, rfl⟩ := Option.map_eq_some_iff.mp followed
  have remaining : Remaining action := by
    cases action with
    | clear key => exact considerate
    | _ => trivial
  have stands := step_stands aligned.stands remaining taken
  have standing := aligned.stands.standing
  have owed : Owed (askedFor s.asked) s.system.pool := aligned.owed
  have begun : ∀ makes, Owed (askedFor s.asked) { s.system.pool with makes } :=
    fun makes => owed.frame rfl fun _ => rfl
  cases action with
  | add key makes =>
    cases taken
    exact ⟨stands, aligned.waits, add_owed aligned key makes⟩
  | borrow thread key makes validates =>
    obtain ⟨absent, rfl⟩ := step_borrow taken
    obtain ⟨filled, spares, undelivered⟩ := considerate
    have fresh := aligned.unasked fun k g waiting =>
      absent (s.system.borrowers.mem_iff.mpr ⟨_, waiting⟩)
    refine settle_aligned aligned stands fresh (SectionRule.borrowObject (standing.makes makes)
      ⟨rfl, begun makes⟩ (fun q _ => sectionRule_requests config _ key q.generation validates _ _)
      ?_ ?_)
    · intro g obj rest found
      have items : s.system.pool.idleItems key = obj :: rest := idleItems_of_found found
      refine ⟨(begun makes).take _ found (filled (items ▸ List.cons_ne_nil _ _)), rfl, ?_⟩
      intro refusable
      exact Undelivered.take (s := { s.system.pool with makes }) (undelivered refusable) _ found
    · exact fun empty => ⟨⟨begun makes, rfl, undelivered⟩, spares empty⟩
  | pop thread =>
    obtain ⟨key, generation, found, popped⟩ := step_pop taken
    obtain ⟨ready, patient⟩ := considerate key generation found
    refine ⟨stands, fun other k recorded => ?_, pop_owed aligned found ready patient popped⟩
    rw [SortedMap.get?_erase] at recorded
    split at recorded
    · cases recorded
    · rename_i apart
      exact aligned.still_waits taken (fun pops => apart (Action.pop.inj pops).symm) recorded
  | load thread =>
    obtain ⟨key, generation, obj, found, rfl⟩ := step_load taken
    exact ⟨stands, fun other k => aligned.still_waits taken nofun, owed⟩
  | store thread lost =>
    obtain ⟨key, generation, obj, read, found, rfl⟩ := step_store taken
    exact ⟨stands, fun other k => aligned.still_waits taken nofun, owed.frame rfl fun _ => rfl⟩
  | resume thread makes validates =>
    obtain ⟨key, generation, obj, found, rfl⟩ := step_resume taken
    have fresh : s.asked.get? thread = none := by
      refine aligned.unasked fun k g waiting => ?_
      rw [found] at waiting
      cases waiting
    exact settle_aligned aligned stands fresh ((sectionRule_requests config _ key generation
      validates _ _).testLoop (aligned.stands.resuming found makes) ⟨begun makes, rfl, considerate⟩)
  | giveBack key obj makes verdict =>
    obtain ⟨busy, rfl⟩ := step_giveBack taken
    exact ⟨stands, aligned.waits, returnObject_owed (s := { s.system.pool with makes })
      (begun makes) (standing.makes makes) busy considerate.1 considerate.2⟩
  | invalidate key obj makes =>
    obtain ⟨busy, rfl⟩ := step_invalidate taken
    exact ⟨stands, aligned.waits, invalidateObject_owed (s := { s.system.pool with makes })
      (begun makes) (standing.makes makes) busy considerate⟩
  | clear key => exact considerate.elim

/-! ### Runs -/

/-- In every run of considerate steps, whatever the schedule, the requests in line are
those of the threads that wait because `maxTotal` was reached. -/
theorem requests_match (config : Configuration) (actions : List (Action K)) {s : Requests K}
    (guarded : Guarded (follow config) (Considerate config) {} actions)
    (reached : run (follow config) {} actions = some s) : RequestsMatch s := by
  have start : Aligned ({} : Requests K) := by
    refine ⟨systemStands_empty, fun thread key found => ?_, fun k => rfl⟩
    cases found
  exact (run_invariant Aligned start
    (fun _ _ _ aligned considerate followed => follow_aligned aligned considerate followed)
    guarded reached).owed

def shortage : List (Action Nat) := [.add 0 [], .add 1 [], .borrow 0 0 [] [], .borrow 1 1 [] []]

/-- A thread that raises leaves its request in line; a connection that cannot be made
takes the request of a thread that waits. -/
theorem request_orphaned :
    (∃ s, run (follow { exhaustedAction := .EXCEPTION, maxTotal := 1 }) ({} : Requests Nat)
        (shortage ++ [.pop 1]) = some s ∧
      s.system.borrowers.get? 1 = none ∧ s.system.pool.allocationQueue = [1] ∧
      ¬ RequestsMatch s) ∧
    ∃ s, run (follow { maxTotal := 1 }) ({} : Requests Nat)
        (shortage ++ [.invalidate 0 0 [some (.transport "node1" 11222 "refused")]]) = some s ∧
      s.system.borrowers.get? 1 = some (.waiting 1 1) ∧ s.system.pool.allocationQueue = [] ∧
      ¬ RequestsMatch s := by
  refine ⟨⟨_, rfl, rfl, rfl, fun matched => ?_⟩, _, rfl, rfl, rfl, fun matched => ?_⟩
  · cases matched 1
  · cases matched 1

theorem requests_match_served :
    ∃ s, run (follow { maxTotal := 1 }) ({} : Requests Nat) (shortage ++
        [.giveBack 0 0 [] (.ok true), .pop 1, .load 1, .store 1 false, .resume 1 [] []]) =
          some s ∧
      RequestsMatch s := by
  have accepts : ¬ Refusable { maxTotal := 1 } [] := fun refusable => by cases refusable.1
  refine ⟨_, rfl, requests_match { maxTotal := 1 } (shortage ++
    [.giveBack 0 0 [] (.ok true), .pop 1, .load 1, .store 1 false, .resume 1 [] []]) ?_ rfl⟩
  apply Guarded.cons rfl trivial
  apply Guarded.cons rfl trivial
  refine Guarded.cons rfl ⟨fun filled => absurd rfl filled, fun _ _ reached => ?_,
    fun refusable => absurd refusable accepts⟩ ?_
  · cases reached
  refine Guarded.cons rfl ⟨fun filled => absurd rfl filled, fun _ _ _ victim scan => ?_,
    fun refusable => absurd refusable accepts⟩ ?_
  · cases scan
  refine Guarded.cons rfl ⟨fun _ fails => ?_, fun idle => absurd ⟨rfl, by decide⟩ idle⟩ ?_
  · obtain ⟨-, e, planned⟩ := fails
    cases planned
  refine Guarded.cons rfl ?_ ?_
  · intro key generation waiting
    cases waiting
    exact ⟨fun _ => .inl (by decide), fun empty => by cases empty⟩
  apply Guarded.cons rfl trivial
  apply Guarded.cons rfl trivial
  exact Guarded.cons rfl (fun refusable => absurd refusable accepts) trivial

end HotRod.Transport
