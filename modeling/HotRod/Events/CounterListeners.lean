import HotRod.Data.SortedMap
import HotRod.Events.Dispatchers
import HotRod.Semantics.Transition

/-! The counter listeners of a `RemoteCounterManagerImpl`.

The lists of the dispatcher, the subscriptions of the server and the dispatcher itself are
kept by `addListener` and `removeListener`. The second takes a listener out of a copy of
its list, so it does what it should only where nobody else is left in the list. The thread
of the dispatcher ends with the first read that fails, of which neither takes notice. -/

set_option autoImplicit false

namespace HotRod.Events

open Semantics.Transition

variable {N L : Type} [LinearOrder N]

/-! ### `RemoteCounterManagerImpl` -/

/-- `counterDispatcher` is the map of the dispatcher, while there is one; `running` says
whether its thread is in the loop. The server has a subscription for each listener id and
counter it was given. -/
structure RemoteCounterManager (N L : Type) [LinearOrder N] where
  listenerId : Nat := 0
  counterDispatcher : Option (SortedMap N (List L)) := none
  running : Bool := false
  subscriptions : List (Nat × N) := []

-- `listeners[counterName]`; where it is called, an absent list is created.
def getListeners (listeners : SortedMap N (List L)) (counterName : N) : List L :=
  (listeners.get? counterName).getD []

namespace RemoteCounterManager

def subscribe (s : RemoteCounterManager N L) (counterName : N) : RemoteCounterManager N L :=
  { s with subscriptions := (s.listenerId, counterName) :: s.subscriptions }

def unsubscribe (s : RemoteCounterManager N L) (counterName : N) : RemoteCounterManager N L :=
  { s with subscriptions := s.subscriptions.filter fun pair => pair ≠ (s.listenerId, counterName) }

/-- Returns the listener, or a null pointer if the server does not grant the call. `uuid`
is what `generateV4UUID` draws. -/
def addListener (granted : Bool) (uuid : Nat) (counterName : N) (listener : L)
    (s : RemoteCounterManager N L) : Option L × RemoteCounterManager N L :=
  match s.counterDispatcher with
  | none =>
    let s := { s with listenerId := uuid }
    if granted then
      (some listener, { s.subscribe counterName with
        counterDispatcher := some (SortedMap.empty.insert counterName
          (getListeners SortedMap.empty counterName ++ [listener]))
        running := true })
    else (none, s)
  | some listeners =>
    let found := getListeners listeners counterName
    let added := some (listeners.insert counterName (found ++ [listener]))
    -- only the first listener of a counter is made known to the server
    if found.isEmpty then
      if granted then (some listener, { s.subscribe counterName with counterDispatcher := added })
      else (none, { s with counterDispatcher := some (listeners.insert counterName found) })
    else (some listener, { s with counterDispatcher := added })

-- `auto listeners = …getListeners(counterName)` is a copy, which is all that the listener is
-- removed from.
def removeListener [DecidableEq L] (granted : Bool) (counterName : N) (handler : L)
    (s : RemoteCounterManager N L) : RemoteCounterManager N L :=
  match s.counterDispatcher with
  | none => s
  | some listeners =>
    let found := getListeners listeners counterName
    let copy := found.filter fun listener => listener ≠ handler
    -- only a copy without listeners has consequences, for the whole list
    let erases := copy.isEmpty && granted
    let left := if erases then listeners.erase counterName else listeners.insert counterName found
    let s := if erases then s.unsubscribe counterName else s
    { s with
      counterDispatcher := if left.entries.isEmpty then none else some left
      -- `stop()` waits for the thread to end
      running := s.running && !left.entries.isEmpty }

/-- The loop of `CounterDispatcher::run` ends with a `TransportException`: its socket has
waited too long for an event, or the connection is lost, and the server's subscriptions
with it. -/
def endThread (lost : Bool) (s : RemoteCounterManager N L) : RemoteCounterManager N L :=
  { s with
    running := false
    subscriptions :=
      if lost then s.subscriptions.filter fun pair => pair.1 ≠ s.listenerId else s.subscriptions }

def listeners (s : RemoteCounterManager N L) (counterName : N) : List L :=
  match s.counterDispatcher with
  | none => []
  | some listeners => getListeners listeners counterName

-- The dispatcher thread on this map. Its recovery callback is an empty function.
def thread (name : List UInt8 → N) (onUpdate : List (Update L) → Option Thrown)
    (listeners : SortedMap N (List L)) : CounterDispatcher L where
  listeners _ counterName := getListeners listeners (name counterName)
  onUpdate
  recoveryCallback := none

-- The calls that an event asks for, while there is a dispatcher with its thread.
def updates (name : List UInt8 → N) (s : RemoteCounterManager N L) (ev : CounterEvent) :
    List (Update L) :=
  match s.running, s.counterDispatcher with
  | false, _ | _, none => []
  | true, some listeners => (thread name (fun _ => none) listeners).dispatcher.invocations ev []

end RemoteCounterManager

/-! ### What the registry is for -/

inductive CounterCall (N L : Type) where
  | addListener (uuid : Nat) (counterName : N) (listener : L)
  | removeListener (counterName : N) (handler : L)

def register [DecidableEq L] (registered : N → List L) : CounterCall N L → N → List L
  | .addListener _ counterName listener =>
    Function.update registered counterName (registered counterName ++ [listener])
  | .removeListener counterName handler =>
    Function.update registered counterName
      ((registered counterName).filter fun listener => listener ≠ handler)

def execute [DecidableEq L] (s : RemoteCounterManager N L) : CounterCall N L → RemoteCounterManager N L
  | .addListener uuid counterName listener => (s.addListener true uuid counterName listener).2
  | .removeListener counterName handler => s.removeListener true counterName handler

/-- A manager, and the listeners that should be registered with it. -/
structure Registry (N L : Type) [LinearOrder N] where
  manager : RemoteCounterManager N L := {}
  registered : N → List L := fun _ => []

def Registry.after [DecidableEq L] (s : Registry N L) (call : CounterCall N L) : Registry N L where
  manager := execute s.manager call
  registered := register s.registered call

inductive RegistryStep (N L : Type) where
  | call (call : CounterCall N L)
  | endThread (lost : Bool)

def step [DecidableEq L] (s : Registry N L) : RegistryStep N L → Option (Registry N L)
  | .call call => some (s.after call)
  | .endThread lost =>
    if s.manager.running then some { s with manager := s.manager.endThread lost } else none

structure Registry.InKeeping (name : List UInt8 → N) (s : Registry N L) : Prop where
  listed : ∀ counterName, s.manager.listeners counterName = s.registered counterName
  invoked : ∀ ev, s.manager.updates name ev =
    (s.registered (name ev.counterName)).map fun cl => ⟨cl, ev⟩
  subscribed : ∀ counterName, (∃ id, (id, counterName) ∈ s.manager.subscriptions) ↔
    s.registered counterName ≠ []
  running : s.manager.running = true ↔ ∃ counterName, s.registered counterName ≠ []

/-- A listener is removed when it is the only one of its counter. -/
def Registry.Alone (s : Registry N L) : CounterCall N L → Prop
  | .addListener .. => True
  | .removeListener counterName handler => handler ∈ s.registered counterName →
    ∀ listener ∈ s.registered counterName, listener = handler

/-- The thread does not end while it runs. -/
def Registry.Steady (s : Registry N L) : RegistryStep N L → Prop
  | .call call => s.Alone call
  | .endThread _ => s.manager.running = false

/-! ### Maps of lists -/

section Lists

variable {listeners : SortedMap N (List L)} {registered : N → List L}

-- The map has exactly the lists that are not empty.
def Stores (listeners : SortedMap N (List L)) (registered : N → List L) : Prop :=
  ∀ counterName list, listeners.get? counterName = some list ↔
    list = registered counterName ∧ list ≠ []

theorem stores_empty : Stores (SortedMap.empty : SortedMap N (List L)) fun _ => [] := by
  intro counterName list
  have absent := (SortedMap.empty : SortedMap N (List L)).get?_eq_none.mpr
    (SortedMap.not_mem_empty (k := counterName))
  rw [absent]
  exact iff_of_false nofun fun ⟨nobody, somebody⟩ => somebody nobody

theorem Stores.getListeners (stores : Stores listeners registered) (counterName : N) :
    getListeners listeners counterName = registered counterName := by
  cases found : listeners.get? counterName with
  | some list =>
    rw [Events.getListeners, found]
    exact ((stores counterName list).mp found).1
  | none =>
    rw [Events.getListeners, found]
    by_contra other
    have present := (stores counterName (registered counterName)).mpr ⟨rfl, Ne.symm other⟩
    rw [found] at present
    cases present

theorem Stores.insert (stores : Stores listeners registered) (counterName : N) {list : List L}
    (somebody : list ≠ []) :
    Stores (listeners.insert counterName list) (Function.update registered counterName list) := by
  intro other found
  by_cases same : other = counterName
  · subst same
    rw [SortedMap.get?_insert_self, Function.update_self, Option.some.injEq]
    exact ⟨fun here => ⟨here.symm, here ▸ somebody⟩, fun here => here.1.symm⟩
  · rw [SortedMap.get?_insert_of_ne _ _ same, Function.update_of_ne same]
    exact stores other found

theorem Stores.erase (stores : Stores listeners registered) (counterName : N) :
    Stores (listeners.erase counterName) (Function.update registered counterName []) := by
  intro other found
  rw [SortedMap.get?_erase]
  by_cases same : other = counterName
  · subst same
    rw [if_pos rfl, Function.update_self]
    exact iff_of_false nofun fun ⟨nobody, somebody⟩ => somebody nobody
  · rw [if_neg same, Function.update_of_ne same]
    exact stores other found

theorem Stores.isEmpty_iff (stores : Stores listeners registered) :
    listeners.entries.isEmpty = true ↔ ∀ counterName, registered counterName = [] := by
  constructor
  · intro empty counterName
    by_contra somebody
    have present := (stores counterName _).mpr ⟨rfl, somebody⟩
    have member := (SortedMap.get?_eq_some _).mp present
    rw [List.isEmpty_iff.mp empty] at member
    cases member
  · intro nobody
    rw [List.isEmpty_iff, List.eq_nil_iff_forall_not_mem]
    rintro ⟨counterName, list⟩ member
    obtain ⟨same, somebody⟩ := (stores counterName list).mp ((SortedMap.get?_eq_some _).mpr member)
    exact somebody (same.trans (nobody counterName))

end Lists

/-! ### Invariant -/

/-- The dispatcher, if there is one, has the lists that are not empty, and at least one. -/
structure Registry.Mirrors (s : Registry N L) : Prop where
  idle : s.manager.counterDispatcher = none → ∀ counterName, s.registered counterName = []
  stores : ∀ listeners, s.manager.counterDispatcher = some listeners →
    Stores listeners s.registered
  somebody : ∀ listeners, s.manager.counterDispatcher = some listeners →
    ∃ counterName, s.registered counterName ≠ []
  running : s.manager.running = s.manager.counterDispatcher.isSome
  subscribed : ∀ id counterName, (id, counterName) ∈ s.manager.subscriptions ↔
    id = s.manager.listenerId ∧ s.registered counterName ≠ []

section Invariant

variable {s : Registry N L} {listeners : SortedMap N (List L)} {name : List UInt8 → N}

theorem Registry.Mirrors.inKeeping (mirrors : s.Mirrors) : s.InKeeping name := by
  have subscribed : ∀ counterName, (∃ id, (id, counterName) ∈ s.manager.subscriptions) ↔
      s.registered counterName ≠ [] := by
    intro counterName
    simp only [mirrors.subscribed, exists_eq_left]
  have running := mirrors.running
  cases dispatcher : s.manager.counterDispatcher with
  | none =>
    have nobody := mirrors.idle dispatcher
    rw [dispatcher, Option.isSome_none] at running
    refine ⟨fun counterName => ?_, fun ev => ?_, subscribed, ?_⟩
    · simp only [RemoteCounterManager.listeners, dispatcher, nobody]
    · simp only [RemoteCounterManager.updates, running, nobody, List.map_nil]
    · simp [running, nobody]
  | some listeners =>
    have same := (mirrors.stores listeners dispatcher).getListeners
    rw [dispatcher, Option.isSome_some] at running
    refine ⟨fun counterName => ?_, fun ev => ?_, subscribed, ?_⟩
    · simp only [RemoteCounterManager.listeners, dispatcher, same]
    · simp only [RemoteCounterManager.updates, running, dispatcher, RemoteCounterManager.thread,
        CounterDispatcher.dispatcher, same]
    · exact iff_of_true running (mirrors.somebody listeners dispatcher)

theorem mirrors_start : ({} : Registry N L).Mirrors where
  idle _ _ := rfl
  stores _ absent := nomatch absent
  somebody _ absent := nomatch absent
  running := rfl
  subscribed _ _ := iff_of_false List.not_mem_nil fun ⟨_, somebody⟩ => somebody rfl

variable [DecidableEq L]

theorem Registry.Mirrors.addFirst (mirrors : s.Mirrors)
    (absent : s.manager.counterDispatcher = none) (uuid : Nat) (counterName : N) (listener : L) :
    (s.after (.addListener uuid counterName listener)).Mirrors := by
  have nobody : s.registered = fun _ => [] := funext (mirrors.idle absent)
  have unsubscribed : s.manager.subscriptions = [] := by
    rw [List.eq_nil_iff_forall_not_mem]
    rintro ⟨id, other⟩ member
    exact ((mirrors.subscribed id other).mp member).2 (mirrors.idle absent other)
  have manager : (s.after (.addListener uuid counterName listener)).manager = {
      listenerId := uuid
      counterDispatcher := some (SortedMap.empty.insert counterName [listener])
      running := true
      subscriptions := [(uuid, counterName)] } := by
    simp only [Registry.after, execute, RemoteCounterManager.addListener, absent, if_true,
      RemoteCounterManager.subscribe, unsubscribed, stores_empty.getListeners, List.nil_append]
  have registered : (s.after (.addListener uuid counterName listener)).registered =
      Function.update (fun _ => []) counterName [listener] := by
    simp only [Registry.after, register, nobody, List.nil_append]
  constructor
  · intro none
    rw [manager] at none
    cases none
  · intro listeners found
    rw [manager] at found
    cases found
    rw [registered]
    exact stores_empty.insert counterName (List.cons_ne_nil _ _)
  · intro listeners _
    refine ⟨counterName, ?_⟩
    rw [registered, Function.update_self]
    exact List.cons_ne_nil _ _
  · rw [manager]
    rfl
  · intro id other
    rw [manager, registered]
    by_cases same : other = counterName
    · subst same
      simp
    · simp [same]

theorem Registry.Mirrors.addNext (mirrors : s.Mirrors)
    (found : s.manager.counterDispatcher = some listeners) (uuid : Nat) (counterName : N)
    (listener : L) : (s.after (.addListener uuid counterName listener)).Mirrors := by
  have stores := mirrors.stores listeners found
  have dispatcher : (s.after (.addListener uuid counterName listener)).manager.counterDispatcher =
      some (listeners.insert counterName (s.registered counterName ++ [listener])) := by
    simp only [Registry.after, execute, RemoteCounterManager.addListener, found,
      stores.getListeners, if_true]
    split <;> rfl
  have own : (s.after (.addListener uuid counterName listener)).manager.listenerId =
      s.manager.listenerId := by
    simp only [Registry.after, execute, RemoteCounterManager.addListener, found, if_true]
    split <;> rfl
  have goes_on : (s.after (.addListener uuid counterName listener)).manager.running =
      s.manager.running := by
    simp only [Registry.after, execute, RemoteCounterManager.addListener, found, if_true]
    split <;> rfl
  have subscriptions :
      (s.after (.addListener uuid counterName listener)).manager.subscriptions =
        if (s.registered counterName).isEmpty then
          (s.manager.listenerId, counterName) :: s.manager.subscriptions
        else s.manager.subscriptions := by
    simp only [Registry.after, execute, RemoteCounterManager.addListener, found,
      stores.getListeners, if_true]
    split <;> rfl
  have registered : (s.after (.addListener uuid counterName listener)).registered =
    Function.update s.registered counterName (s.registered counterName ++ [listener]) := rfl
  have somebody : s.registered counterName ++ [listener] ≠ [] :=
    List.append_ne_nil_of_right_ne_nil _ (List.cons_ne_nil _ _)
  constructor
  · intro none
    rw [dispatcher] at none
    cases none
  · intro listeners' found'
    rw [dispatcher] at found'
    cases found'
    rw [registered]
    exact stores.insert counterName somebody
  · intro listeners' _
    refine ⟨counterName, ?_⟩
    rwa [registered, Function.update_self]
  · rw [goes_on, dispatcher, mirrors.running, found]
    rfl
  · intro id other
    have before := mirrors.subscribed id other
    rw [own, subscriptions, registered]
    by_cases same : other = counterName
    · subst same
      rw [Function.update_self]
      split
      · rename_i nobody
        rw [List.isEmpty_iff] at nobody
        rw [nobody] at before
        simp [before]
      · rename_i already
        rw [List.isEmpty_iff] at already
        rw [before]
        simp [already]
    · rw [Function.update_of_ne same, ← before]
      split
      · simp [same]
      · rfl

theorem Registry.Mirrors.removeLast (mirrors : s.Mirrors)
    (found : s.manager.counterDispatcher = some listeners) {counterName : N} {handler : L}
    (nobody : ((s.registered counterName).filter fun listener => listener ≠ handler) = []) :
    (s.after (.removeListener counterName handler)).Mirrors := by
  have stores := mirrors.stores listeners found
  have manager : (s.after (.removeListener counterName handler)).manager =
      { s.manager.unsubscribe counterName with
        counterDispatcher := if (listeners.erase counterName).entries.isEmpty then none
          else some (listeners.erase counterName)
        running := s.manager.running && !(listeners.erase counterName).entries.isEmpty } := by
    simp only [Registry.after, execute, RemoteCounterManager.removeListener, found,
      stores.getListeners, nobody, List.isEmpty_nil, Bool.and_self, if_true,
      RemoteCounterManager.unsubscribe]
  have registered : (s.after (.removeListener counterName handler)).registered =
      Function.update s.registered counterName [] := by
    simp only [Registry.after, register, nobody]
  have left := stores.erase counterName
  constructor
  · -- without other lists the dispatcher goes with the last one
    intro none other
    rw [manager] at none
    rw [registered]
    have empty : (listeners.erase counterName).entries.isEmpty = true := by
      by_contra some
      rw [if_neg some] at none
      cases none
    exact left.isEmpty_iff.mp empty other
  · intro listeners' found'
    rw [manager] at found'
    rw [registered]
    split at found'
    · cases found'
    · cases found'
      exact left
  · intro listeners' found'
    rw [manager] at found'
    rw [registered]
    split at found'
    · cases found'
    · rename_i more
      rwa [left.isEmpty_iff, not_forall] at more
  · rw [manager, mirrors.running, found]
    cases (listeners.erase counterName).entries.isEmpty <;> rfl
  · intro id other
    have before := mirrors.subscribed id other
    rw [manager, registered]
    by_cases same : other = counterName
    · subst same
      rw [Function.update_self]
      refine iff_of_false ?_ fun both => both.2 rfl
      intro member
      obtain ⟨held, different⟩ := List.mem_filter.mp member
      exact of_decide_eq_true different (congrArg (·, other) (before.mp held).1)
    · simp [RemoteCounterManager.unsubscribe, before, same]

theorem Registry.Mirrors.remains (mirrors : s.Mirrors)
    (found : s.manager.counterDispatcher = some listeners) {counterName : N} {handler : L}
    (others : ((s.registered counterName).filter fun listener => listener ≠ handler) ≠ []) :
    (s.after (.removeListener counterName handler)).manager = s.manager := by
  have stores := mirrors.stores listeners found
  have somebody : s.registered counterName ≠ [] := by
    intro nobody
    rw [nobody] at others
    exact others List.filter_nil
  have kept : listeners.insert counterName (s.registered counterName) = listeners :=
    listeners.insert_of_get? ((stores counterName _).mpr ⟨rfl, somebody⟩)
  have more : listeners.entries.isEmpty = false := by
    rw [Bool.eq_false_iff]
    exact fun empty => somebody (stores.isEmpty_iff.mp empty counterName)
  have left : ((s.registered counterName).filter fun listener => listener ≠ handler).isEmpty =
      false := List.isEmpty_eq_false_iff.mpr others
  have manager : (s.after (.removeListener counterName handler)).manager =
      { s.manager with counterDispatcher := some listeners } := by
    simp only [Registry.after, execute, RemoteCounterManager.removeListener, found,
      stores.getListeners, left, Bool.false_eq_true, if_false, kept, more,
      Bool.not_false, Bool.and_true]
  rw [manager, ← found]

theorem Registry.Mirrors.removeStranger (mirrors : s.Mirrors)
    (found : s.manager.counterDispatcher = some listeners) {counterName : N} {handler : L}
    (stranger : handler ∉ s.registered counterName) (somebody : s.registered counterName ≠ []) :
    s.after (.removeListener counterName handler) = s := by
  have everybody : ((s.registered counterName).filter fun listener => listener ≠ handler) =
      s.registered counterName := by
    rw [List.filter_eq_self]
    intro listener member
    exact decide_eq_true fun same => stranger (same ▸ member)
  have manager : (s.after (.removeListener counterName handler)).manager = s.manager :=
    mirrors.remains found (everybody.trans_ne somebody)
  have registered : (s.after (.removeListener counterName handler)).registered = s.registered := by
    simp only [Registry.after, register, everybody, Function.update_eq_self]
  exact congrArg₂ Registry.mk manager registered

theorem Registry.Mirrors.removeIdle (mirrors : s.Mirrors)
    (absent : s.manager.counterDispatcher = none) (counterName : N) (handler : L) :
    s.after (.removeListener counterName handler) = s := by
  have nobody := mirrors.idle absent counterName
  have manager : (s.after (.removeListener counterName handler)).manager = s.manager := by
    simp only [Registry.after, execute, RemoteCounterManager.removeListener, absent]
  have registered : (s.after (.removeListener counterName handler)).registered = s.registered := by
    simp only [Registry.after, register, nobody, List.filter_nil]
    rw [← nobody, Function.update_eq_self]
  exact congrArg₂ Registry.mk manager registered

theorem Registry.Mirrors.after (mirrors : s.Mirrors) {call : CounterCall N L} (alone : s.Alone call) :
    (s.after call).Mirrors := by
  cases dispatcher : s.manager.counterDispatcher with
  | none =>
    cases call with
    | addListener uuid counterName listener =>
      exact mirrors.addFirst dispatcher uuid counterName listener
    | removeListener counterName handler =>
      rw [mirrors.removeIdle dispatcher counterName handler]
      exact mirrors
  | some listeners =>
    cases call with
    | addListener uuid counterName listener =>
      exact mirrors.addNext dispatcher uuid counterName listener
    | removeListener counterName handler =>
      by_cases member : handler ∈ s.registered counterName
      · apply mirrors.removeLast dispatcher
        rw [List.filter_eq_nil_iff]
        intro listener other
        simp [alone member listener other]
      · by_cases nobody : s.registered counterName = []
        · apply mirrors.removeLast dispatcher
          rw [nobody, List.filter_nil]
        · rw [mirrors.removeStranger dispatcher member nobody]
          exact mirrors

-- Of two listeners, the one that is removed stays in the list.
theorem Registry.Mirrors.not_inKeeping (mirrors : s.Mirrors) {call : CounterCall N L}
    (crowd : ¬ s.Alone call) : ¬ (s.after call).InKeeping name := by
  cases call with
  | addListener uuid counterName listener => exact absurd trivial crowd
  | removeListener counterName handler =>
    simp only [Registry.Alone, Classical.not_imp, not_forall] at crowd
    obtain ⟨member, listener, other, different⟩ := crowd
    have others : ((s.registered counterName).filter fun l => l ≠ handler) ≠ [] := by
      intro gone
      exact List.filter_eq_nil_iff.mp gone listener other (decide_eq_true different)
    cases dispatcher : s.manager.counterDispatcher with
    | none =>
      rw [mirrors.idle dispatcher counterName] at member
      cases member
    | some listeners =>
      intro inKeeping
      have before : s.InKeeping name := mirrors.inKeeping
      have listed := inKeeping.listed counterName
      rw [mirrors.remains dispatcher others, before.listed] at listed
      simp only [Registry.after, register, Function.update_self] at listed
      rw [listed] at member
      exact absurd (List.mem_filter.mp member).2 (by simp)

-- A step that is steady, and only such a step, keeps the three states in step.
theorem Registry.Mirrors.step (mirrors : s.Mirrors) {l : RegistryStep N L} (steady : s.Steady l)
    {t : Registry N L} (taken : Events.step s l = some t) : t.Mirrors := by
  cases l with
  | call call =>
    cases taken
    exact mirrors.after steady
  | endThread lost =>
    have ended : s.manager.running = false := steady
    simp [Events.step, ended] at taken

theorem Registry.Mirrors.steady_of_inKeeping (mirrors : s.Mirrors) {l : RegistryStep N L}
    (inKeeping : ∀ t, Events.step s l = some t → t.InKeeping name) : s.Steady l := by
  cases l with
  | call call =>
    by_contra crowd
    exact mirrors.not_inKeeping crowd (inKeeping _ rfl)
  | endThread lost =>
    by_contra runs
    have running : s.manager.running = true := by simpa [Registry.Steady] using runs
    have ended := (inKeeping _ (if_pos running)).running
    -- the listeners of a dispatcher that runs are registered, and its end changes nothing in that
    have before : s.InKeeping name := mirrors.inKeeping
    have still : false = true := ended.mpr (before.running.mp running)
    cases still

end Invariant

/-! ### Runs -/

variable [DecidableEq L]

/-- The lists, the subscriptions and the thread of the dispatcher are in step after each step
exactly if a listener is only removed when it is the only one of its counter, and the
thread does not end before it is stopped. -/
theorem registry_inKeeping_iff (name : List UInt8 → N) (steps : List (RegistryStep N L)) :
    Guarded step (fun s l => ∀ t, step s l = some t → t.InKeeping name) ({} : Registry N L) steps ↔
      Guarded step Registry.Steady ({} : Registry N L) steps := by
  constructor
  · apply Guarded.imp_of_invariant Registry.Mirrors mirrors_start
    · intro s l t mirrors inKeeping taken
      exact mirrors.step (mirrors.steady_of_inKeeping inKeeping) taken
    · intro s l mirrors
      exact mirrors.steady_of_inKeeping
  · apply Guarded.imp_of_invariant Registry.Mirrors mirrors_start
    · intro s l t mirrors steady taken
      exact mirrors.step steady taken
    · intro s l mirrors steady t taken
      exact (mirrors.step steady taken).inKeeping

/-- Two listeners of counter 0, of which the first is removed and stays. A quiet minute
between two additions, after which the second listener has a dispatcher without a thread. -/
theorem removed_listener_stays :
    (¬ Guarded step (fun s l => ∀ t, step s l = some t → t.InKeeping fun _ => 0)
      ({} : Registry Nat Nat)
      [.call (.addListener 7 0 1), .call (.addListener 8 0 2), .call (.removeListener 0 1)]) ∧
    ∃ s : Registry Nat Nat,
      run step {} [.call (.addListener 7 0 1), .endThread false, .call (.addListener 8 1 2)] =
        some s ∧ s.manager.listeners 1 = [2] ∧ ¬ s.InKeeping fun _ => 0 := by
  constructor
  · rintro ⟨-, next⟩
    obtain ⟨-, next⟩ := next _ rfl
    obtain ⟨inKeeping, -⟩ := next _ rfl
    have listed := (inKeeping _ rfl).listed 0
    revert listed
    decide
  · refine ⟨_, rfl, by decide, fun inKeeping => ?_⟩
    have running : false = true := inKeeping.running.mpr ⟨0, by decide⟩
    cases running

end HotRod.Events
