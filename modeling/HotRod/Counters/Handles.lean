import HotRod.Data.FiniteMap
import HotRod.Operations.Commands
import HotRod.Semantics.Transition

/-! The handles that a `RemoteCounterManagerImpl` gives out.

Both accessors keep their handles in one map. The type of the counter is checked where a
handle is constructed; what the map has is cast to the class that is asked for, whichever
class it was constructed as. -/

set_option autoImplicit false

namespace HotRod.Counters

open Semantics.Execution
open Semantics.Transition
open Operations (CounterConfiguration CounterType)
open Protocol (text)

inductive CounterClass where
  | strong | weak
  deriving DecidableEq, Repr

def CounterClass.other : CounterClass → CounterClass
  | strong => weak
  | weak => strong

theorem CounterClass.eq_iff_ne_other (first second : CounterClass) :
    first = second ↔ first ≠ second.other := by
  cases first <;> cases second <;> decide

/-- An object of one of the two classes. `removed`, which nothing reads, is left out. -/
structure BaseCounterImpl where
  constructedAs : CounterClass
  name : List UInt8
  configuration : CounterConfiguration

structure RemoteCounterManagerImpl where
  counters : FiniteMap (List UInt8) BaseCounterImpl := ∅

namespace RemoteCounterManagerImpl

abbrev ManagerM := EStateM Exn RemoteCounterManagerImpl

/-- What the two accessors have in common; `execute` is the outcome of the
`GetCounterConfigurationOperation`. -/
def getCounter (cls : CounterClass) (wrongType : CounterType → Bool) (message : String)
    (name : List UInt8) (execute : Except Exn CounterConfiguration) : ManagerM BaseCounterImpl := do
  let manager ← get
  match manager.counters.lookup name with
  -- `static_pointer_cast`, whatever the object was constructed as
  | some counter => pure counter
  | none =>
    match execute with
    | .error raised => throw raised
    | .ok cc =>
      if wrongType cc.type then throw (.hotRodClient (text name ++ message))
      else do
        let sc : BaseCounterImpl := { constructedAs := cls, name, configuration := cc }
        set { manager with counters := manager.counters.insert name sc }
        pure sc

def getStrongCounter (name : List UInt8) (execute : Except Exn CounterConfiguration) :
    ManagerM BaseCounterImpl :=
  getCounter .strong (fun type => type == .weak)
    " counter is the wrong type (weak instead of strong" name execute

def getWeakCounter (name : List UInt8) (execute : Except Exn CounterConfiguration) :
    ManagerM BaseCounterImpl :=
  getCounter .weak (fun type => type != .weak)
    " counter is the wrong type (strong instead of weak" name execute

-- The manager keeps nothing of a definition.
def defineCounter (execute : Except Exn Bool) : ManagerM Bool :=
  match execute with
  | .error raised => throw raised
  | .ok defined => pure defined

def remove (name : List UInt8) (execute : Except Exn Unit) : ManagerM Unit :=
  match execute with
  | .error raised => throw raised
  | .ok _ => modify fun manager => { manager with counters := manager.counters.erase name }

end RemoteCounterManagerImpl

open RemoteCounterManagerImpl

/-! ### Sequences of calls -/

inductive Call where
  | defineCounter (name : List UInt8) (configuration : CounterConfiguration)
    (execute : Except Exn Bool)
  | getStrongCounter (name : List UInt8) (execute : Except Exn CounterConfiguration)
  | getWeakCounter (name : List UInt8) (execute : Except Exn CounterConfiguration)
  | remove (name : List UInt8) (execute : Except Exn Unit)

inductive Event where
  | got (cls : CounterClass) (name : List UInt8)
  | removed (name : List UInt8)
  deriving DecidableEq, Repr

structure Session where
  -- The manager, and what has returned so far, latest first.
  manager : RemoteCounterManagerImpl := {}
  history : List Event := []

variable {A : Type}

def Session.after (s : Session) (event : List Event) :
    EStateM.Result Exn RemoteCounterManagerImpl A → Session
  | .ok _ manager => { manager, history := event ++ s.history }
  | .error _ manager => { s with manager }

def step (s : Session) : Call → Option Session
  | .defineCounter _ _ execute => some (s.after [] (defineCounter execute s.manager))
  | .getStrongCounter name execute =>
    some (s.after [.got .strong name] (getStrongCounter name execute s.manager))
  | .getWeakCounter name execute =>
    some (s.after [.got .weak name] (getWeakCounter name execute s.manager))
  | .remove name execute => some (s.after [.removed name] (remove name execute s.manager))

/-- The accessor of the class has returned for the name, which was not removed since. -/
def AccessedSince (cls : CounterClass) (name : List UInt8) : List Event → Prop
  | [] => False
  | .got cls' name' :: earlier => cls' = cls ∧ name' = name ∨ AccessedSince cls name earlier
  | .removed name' :: earlier => name' ≠ name ∧ AccessedSince cls name earlier

/-- The call throws, or its handle was constructed as the class. -/
def Yields (cls : CounterClass) :
    EStateM.Result Exn RemoteCounterManagerImpl BaseCounterImpl → Prop
  | .ok counter _ => counter.constructedAs = cls
  | .error _ _ => True

def Right (s : Session) : Call → Prop
  | .getStrongCounter name execute => Yields .strong (getStrongCounter name execute s.manager)
  | .getWeakCounter name execute => Yields .weak (getWeakCounter name execute s.manager)
  | .defineCounter .. | .remove .. => True

/-- The other accessor has not returned for the name since it was last removed. -/
def Apart (s : Session) : Call → Prop
  | .getStrongCounter name _ => ¬ AccessedSince .weak name s.history
  | .getWeakCounter name _ => ¬ AccessedSince .strong name s.history
  | .defineCounter .. | .remove .. => True

/-! ### What an accessor does -/

section GetCounter

variable (cls : CounterClass) (wrongType : CounterType → Bool) (message : String)
  {name : List UInt8} (execute : Except Exn CounterConfiguration)
  {manager : RemoteCounterManagerImpl}

theorem getCounter_cached {counter : BaseCounterImpl}
    (found : manager.counters.lookup name = some counter) :
    getCounter cls wrongType message name execute manager = .ok counter manager := by
  unfold getCounter
  rw [bind_of_ok (get_apply manager)]
  simp only [found]
  rfl

theorem getCounter_absent (absent : manager.counters.lookup name = none) :
    (∃ raised, getCounter cls wrongType message name execute manager = .error raised manager) ∨
      ∃ counter, counter.constructedAs = cls ∧
        getCounter cls wrongType message name execute manager =
          .ok counter { manager with counters := manager.counters.insert name counter } := by
  unfold getCounter
  rw [bind_of_ok (get_apply manager)]
  simp only [absent]
  cases execute with
  | error raised => exact .inl ⟨raised, rfl⟩
  | ok cc =>
    by_cases wrong : wrongType cc.type
    · simp only [if_pos wrong]
      exact .inl ⟨_, rfl⟩
    · simp only [if_neg wrong]
      exact .inr ⟨{ constructedAs := cls, name, configuration := cc }, rfl, rfl⟩

end GetCounter

/-! ### The map and the history -/

def cached (manager : RemoteCounterManagerImpl) (name : List UInt8) : Option CounterClass :=
  (manager.counters.lookup name).map BaseCounterImpl.constructedAs

theorem cached_insert (manager : RemoteCounterManagerImpl) (name other : List UInt8)
    (counter : BaseCounterImpl) :
    cached { manager with counters := manager.counters.insert name counter } other =
      if other = name then some counter.constructedAs else cached manager other := by
  unfold cached
  by_cases same : other = name
  · subst same
    rw [AList.lookup_insert, if_pos rfl, Option.map_some]
  · rw [AList.lookup_insert_ne same, if_neg same]

theorem cached_erase (manager : RemoteCounterManagerImpl) (name other : List UInt8) :
    cached { manager with counters := manager.counters.erase name } other =
      if other = name then none else cached manager other := by
  unfold cached
  by_cases same : other = name
  · subst same
    rw [AList.lookup_erase, if_pos rfl, Option.map_none]
  · rw [AList.lookup_erase_ne same, if_neg same]

/-- The map has a handle of a class exactly where its accessor has returned. -/
def Kept (s : Session) : Prop :=
  ∀ cls name, AccessedSince cls name s.history ↔ cached s.manager name = some cls

theorem kept_initial : Kept {} := by
  intro cls name
  simp [AccessedSince, cached]

theorem Kept.got {s : Session} (kept : Kept s) {cls : CounterClass} {name : List UInt8}
    {manager : RemoteCounterManagerImpl}
    (entered : ∀ other, cached manager other =
      if other = name then some cls else cached s.manager other)
    (agrees : ∀ cls', cached s.manager name = some cls' → cls' = cls) :
    Kept { manager, history := .got cls name :: s.history } := by
  intro cls' other
  have earlier := kept cls' other
  simp only [AccessedSince, earlier, entered]
  by_cases same : other = name
  · subst same
    simp only [and_true, if_true, Option.some.injEq]
    exact ⟨fun found => found.elim id fun found => (agrees cls' found).symm, .inl⟩
  · simp [same, Ne.symm same]

theorem Kept.removed {s : Session} (kept : Kept s) (name : List UInt8) :
    Kept { manager := { s.manager with counters := s.manager.counters.erase name }
           history := .removed name :: s.history } := by
  intro cls other
  have earlier := kept cls other
  simp only [AccessedSince, earlier, cached_erase]
  by_cases same : other = name
  · simp [same]
  · simp [same, Ne.symm same]

section Accessors

variable {s : Session} {cls : CounterClass} {wrongType : CounterType → Bool} {message : String}
  {name : List UInt8} {execute : Except Exn CounterConfiguration}

theorem Kept.yields_iff (kept : Kept s) :
    Yields cls (getCounter cls wrongType message name execute s.manager) ↔
      ¬ AccessedSince cls.other name s.history := by
  rw [kept cls.other name, cached]
  cases found : s.manager.counters.lookup name with
  | none =>
    -- nothing is cached, and what is constructed is of the class that is asked for
    refine iff_of_true ?_ (by simp)
    obtain ⟨raised, threw⟩ | ⟨counter, constructed, returned⟩ := getCounter_absent cls wrongType
      message execute found
    · rw [threw]
      trivial
    · rw [returned]
      exact constructed
  | some counter =>
    rw [getCounter_cached cls wrongType message execute found, Option.map_some, Option.some.injEq]
    exact CounterClass.eq_iff_ne_other counter.constructedAs cls

theorem Kept.after_getCounter (kept : Kept s)
    (yields : Yields cls (getCounter cls wrongType message name execute s.manager)) :
    Kept (s.after [.got cls name] (getCounter cls wrongType message name execute s.manager)) := by
  cases found : s.manager.counters.lookup name with
  | none =>
    obtain ⟨raised, threw⟩ | ⟨counter, constructed, returned⟩ := getCounter_absent cls wrongType
      message execute found
    · rw [threw]
      exact kept
    · rw [returned]
      apply kept.got
      · intro other
        rw [cached_insert, constructed]
      · intro cls' present
        rw [cached, found] at present
        cases present
  | some counter =>
    -- the map stays, and the history gets an access that agrees with it
    rw [getCounter_cached cls wrongType message execute found] at yields ⊢
    have present : cached s.manager name = some cls := by
      rw [cached, found, Option.map_some, yields]
    apply kept.got
    · intro other
      by_cases same : other = name
      · rw [if_pos same, same, present]
      · rw [if_neg same]
    · intro cls' also
      exact (Option.some.inj (present.symm.trans also)).symm

end Accessors

/-! ### Runs -/

theorem Kept.right_iff {s : Session} (kept : Kept s) (call : Call) : Right s call ↔ Apart s call := by
  cases call with
  | getStrongCounter name execute => exact kept.yields_iff
  | getWeakCounter name execute => exact kept.yields_iff
  | defineCounter name configuration execute => exact Iff.rfl
  | remove name execute => exact Iff.rfl

theorem Kept.step {s t : Session} (kept : Kept s) {call : Call} (right : Right s call)
    (taken : step s call = some t) : Kept t := by
  cases call with
  | getStrongCounter name execute =>
    cases taken
    exact kept.after_getCounter right
  | getWeakCounter name execute =>
    cases taken
    exact kept.after_getCounter right
  | defineCounter name configuration execute =>
    cases taken
    cases execute with
    | error raised => exact kept
    | ok defined => exact kept
  | remove name execute =>
    cases taken
    cases execute with
    | error raised => exact kept
    | ok _ => exact kept.removed name

/-- In a sequence of calls every accessor throws or yields a handle of its own class exactly
if no accessor is called for a name for which the other one has returned since it was last
removed. -/
theorem handles_right_iff (calls : List Call) :
    Guarded step Right {} calls ↔ Guarded step Apart {} calls := by
  constructor
  · intro right
    exact right.imp_of_invariant Kept kept_initial
      (fun s call t kept holds taken => kept.step holds taken)
      (fun s call kept holds => (kept.right_iff call).mp holds)
  · intro apart
    exact apart.imp_of_invariant Kept kept_initial
      (fun s call t kept holds taken => kept.step ((kept.right_iff call).mpr holds) taken)
      (fun s call kept holds => (kept.right_iff call).mpr holds)

/-- A strong counter comes back as a weak one. -/
theorem not_right_of_strong : ¬ ∀ calls, Guarded step Right {} calls := by
  intro all
  let unbounded : CounterConfiguration :=
    { initialValue := 0, type := .unboundedStrong, persistent := false }
  have apart := (handles_right_iff [.defineCounter [0x63] unbounded (.ok true),
    .getStrongCounter [0x63] (.ok unbounded), .getWeakCounter [0x63] (.ok unbounded)]).mp (all _)
  exact (apart.2 _ rfl).2 _ rfl |>.1 (.inl ⟨rfl, rfl⟩)

end HotRod.Counters
