import HotRod.Data.SortedMap
import HotRod.Exceptions
import HotRod.NearCache.NearRemoteCache
import HotRod.Semantics.Transition

/-! The listeners that the near caches of a manager have registered.

`startListener` gives the listener of a near cache a handler for each kind of event and
registers it with a server, under a new id, for which it takes a dispatcher and keeps a
transport. The answer to a lost connection is `startListener` once more. A step is taken
to its end, so that each state between two steps is a quiescent one. What the near maps
hold is left out. -/

set_option autoImplicit false

namespace HotRod.NearCache.Registrations

open Semantics.Transition

variable {C T : Type}

/-! ### Near caches -/

/-- A handler is a closure over its near cache, of type `C`, and is known by it. The id
is that of `ClientListener`. -/
structure CustomClientListener (C : Type) where
  createdCallbacks : List C := []
  modifiedCallbacks : List C := []
  removedCallbacks : List C := []
  expiredCallbacks : List C := []
  listenerId : Option Nat := none

namespace CustomClientListener

-- One handler for each kind of event.
def addListeners (handler : C) (cl : CustomClientListener C) : CustomClientListener C :=
  { cl with
    createdCallbacks := cl.createdCallbacks ++ [handler]
    removedCallbacks := cl.removedCallbacks ++ [handler]
    modifiedCallbacks := cl.modifiedCallbacks ++ [handler]
    expiredCallbacks := cl.expiredCallbacks ++ [handler] }

def setListenerId (listenerId : Option Nat) (cl : CustomClientListener C) :
    CustomClientListener C := { cl with listenerId }

def processEvent (cl : CustomClientListener C) : EventKind → List C
  | .created => cl.createdCallbacks
  | .modified => cl.modifiedCallbacks
  | .removed => cl.removedCallbacks
  | .expired => cl.expiredCallbacks

@[simp] theorem processEvent_addListeners (handler : C) (cl : CustomClientListener C)
    (kind : EventKind) :
    (cl.addListeners handler).processEvent kind = cl.processEvent kind ++ [handler] := by
  cases kind <;> rfl

@[simp] theorem processEvent_setListenerId (listenerId : Option Nat) (cl : CustomClientListener C) :
    (cl.setListenerId listenerId).processEvent = cl.processEvent := rfl

end CustomClientListener

structure NearRemoteCacheImpl (C : Type) where
  cl : CustomClientListener C := {}
  shutdown : Bool := false

/-! ### The client -/

structure Registration (C T : Type) where
  -- The near cache whose listener is registered, and the transport its events come by.
  cache : C
  transport : T
  deriving DecidableEq, Repr

/-- `kept` are the transports that the pool has lent for listeners, `generated` counts
the ids drawn, which are taken to differ. `live` is not part of the client: it has the
registrations that a server has confirmed and holds, over a connection that stands and
that the thread of the dispatcher reads. -/
structure Client (C T : Type) where
  nearCaches : C → NearRemoteCacheImpl C := fun _ => {}
  eventDispatchers : SortedMap Nat (Registration C T) := SortedMap.empty
  kept : List T := []
  generated : Nat := 0
  live : SortedMap Nat (Registration C T) := SortedMap.empty

/-- What an attempt of `AddClientListenerOperation` meets: no transport, an exception up
to `flush`, an exception after it, a response without success, or one with success. -/
inductive Attempt (T : Type) where
  | unavailable (e : Exn)
  | unsent (t : T) (e : Exn)
  | raised (t : T) (e : Exn)
  | refused (t : T)
  | registered (t : T)

/-- How `RemoveClientListenerOperation` ends; `unheard` if the server has removed the
listener and its response does not arrive. -/
inductive Removal where
  | removed
  | refused
  | unheard
  deriving DecidableEq, Repr

-- `timeOut`: the server has had no event to send for as long as the socket waits.
inductive Step (C T : Type) where
  | start (cache : C) (attempts : List (Attempt T))
  | lose (listenerId : Nat) (attempts : List (Attempt T))
  | timeOut (listenerId : Nat) (attempts : List (Attempt T))
  | stop (cache : C) (removal : Removal)
  | restart

-- The loop of `execute` catches the exception and makes another attempt.
def Attempt.goesOn : Attempt T → Bool
  | .unavailable e | .unsent _ e | .raised _ e => e.isHotRodClient
  | .refused _ | .registered _ => false

namespace Client

/-! ### Registration -/

variable [DecidableEq C]

def setListener (s : Client C T) (cache : C)
    (f : CustomClientListener C → CustomClientListener C) : Client C T :=
  { s with
    nearCaches := Function.update s.nearCaches cache
      { s.nearCaches cache with cl := f (s.nearCaches cache).cl } }

def addClientListener (s : Client C T) (listenerId : Nat) (r : Registration C T) : Client C T :=
  { s with
    eventDispatchers :=
      -- `insert` of a map leaves an entry that is there
      if listenerId ∈ s.eventDispatchers then s.eventDispatchers
      else s.eventDispatchers.insert listenerId r }

def removeClientListener (s : Client C T) (listenerId : Nat) : Client C T :=
  { s with eventDispatchers := s.eventDispatchers.erase listenerId }

def borrow (s : Client C T) (t : T) : Client C T := { s with kept := t :: s.kept }

-- `releaseTransport` and `invalidateTransport`.
def handBack [DecidableEq T] (s : Client C T) (t : T) : Client C T :=
  { s with kept := s.kept.erase t }

-- `executeOperation` until it reads the response.
def announce (s : Client C T) (listenerId : Nat) (cache : C) (t : T) : Client C T :=
  ((s.borrow t).addClientListener listenerId ⟨cache, t⟩).setListener cache
    (.setListenerId (some listenerId))

def attempt [DecidableEq T] (listenerId : Nat) (cache : C) (s : Client C T) :
    Attempt T → Client C T
  | .unavailable _ => s
  | .unsent t e =>
    -- `failed` is not set yet, so that `releaseTransport` does nothing
    if e.isTransport then (s.borrow t).handBack t else s.borrow t
  | .raised t e =>
    let s := (s.announce listenerId cache t).removeClientListener listenerId
    if e.isHotRodClient then s.handBack t else s
  | .refused t => ((s.announce listenerId cache t).removeClientListener listenerId).handBack t
  | .registered t =>
    let s := s.announce listenerId cache t
    { s with live := s.live.insert listenerId ⟨cache, t⟩ }

-- The attempts of one `AddClientListenerOperation`, as far as they are made.
def execute [DecidableEq T] (listenerId : Nat) (cache : C) (s : Client C T) :
    List (Attempt T) → Client C T
  | [] => s
  | a :: rest =>
    let s := s.attempt listenerId cache a
    if a.goesOn then execute listenerId cache s rest else s

def startListener [DecidableEq T] (s : Client C T) (cache : C) (attempts : List (Attempt T)) :
    Client C T :=
  let s := s.setListener cache (.addListeners cache)
  execute s.generated cache { s with generated := s.generated + 1 } attempts

/-! ### Steps -/

def forget (s : Client C T) (listenerId : Nat) : Client C T :=
  { s with live := s.live.erase listenerId }

/-- The connection of a live registration is gone, or is taken for lost. Its dispatcher comes
to its end with the recovery callback. -/
def lose [DecidableEq T] (s : Client C T) (listenerId : Nat) (attempts : List (Attempt T)) :
    Option (Client C T) :=
  match s.live.get? listenerId with
  | none => none
  | some r =>
    if (s.nearCaches r.cache).shutdown then some (s.forget listenerId)
    else some ((s.forget listenerId).startListener r.cache attempts)

-- The id under which the listener of a near cache was last announced, and its dispatcher.
def findListener (s : Client C T) (cache : C) : Option (Nat × Registration C T) :=
  (s.nearCaches cache).cl.listenerId.bind fun listenerId =>
    (s.eventDispatchers.get? listenerId).map fun r => (listenerId, r)

def shutDown (s : Client C T) (cache : C) : Client C T :=
  { s with
    nearCaches := Function.update s.nearCaches cache { s.nearCaches cache with shutdown := true } }

/-- Where `findClientListenerTransport` finds nothing, the operation hands back the null
pointer that it has for a transport, and there is no next state. -/
def stop [DecidableEq T] (s : Client C T) (cache : C) (removal : Removal) : Option (Client C T) :=
  match s.findListener cache with
  | none => none
  | some (listenerId, r) =>
    let s := s.shutDown cache
    match removal with
    | .removed =>
      some (((s.forget listenerId).handBack r.transport).removeClientListener listenerId)
    | .refused => some s
    | .unheard => some (s.forget listenerId)

/-- The manager, whose near caches have been stopped, stops and starts again, with a new
factory of transports and a new notifier. Its near caches stay as they are. -/
def restart (s : Client C T) : Option (Client C T) :=
  if s.eventDispatchers.entries.all fun e => (s.nearCaches e.2.cache).shutdown then
    some { s with eventDispatchers := SortedMap.empty, kept := [], live := SortedMap.empty }
  else none

def step [DecidableEq T] (s : Client C T) : Step C T → Option (Client C T)
  | .start cache attempts => some (s.startListener cache attempts)
  -- a `TransportException` in both cases
  | .lose listenerId attempts | .timeOut listenerId attempts => s.lose listenerId attempts
  | .stop cache removal => s.stop cache removal
  | .restart => s.restart

/-! ### Order among the registrations -/

def Hears (s : Client C T) (cache : C) : Prop :=
  ∃ listenerId r, s.live.get? listenerId = some r ∧ r.cache = cache

def invoked (s : Client C T) (cache : C) (kind : EventKind) : List C :=
  (s.live.entries.filter fun e => e.2.cache = cache).flatMap fun e =>
    (s.nearCaches e.2.cache).cl.processEvent kind

def transports (s : Client C T) : List T :=
  s.eventDispatchers.entries.map fun e => e.2.transport

structure InOrder (s : Client C T) : Prop where
  invoked : ∀ cache kind, s.Hears cache → s.invoked cache kind = [cache]
  dispatchers : s.eventDispatchers = s.live
  kept : s.kept.Perm s.transports

end Client

def keptOut : List (Attempt T) → List T
  | [] => []
  | a :: rest =>
    let later := if a.goesOn then keptOut rest else []
    match a with
    | .unsent t e => if e.isTransport then later else later ++ [t]
    | .raised t e => if e.isHotRodClient then later else later ++ [t]
    | .unavailable _ | .refused _ | .registered _ => later

-- The transport of the dispatcher, if the listener comes to be registered.
def registered : List (Attempt T) → Option T
  | [] => none
  | .registered t :: _ => some t
  | a :: rest => if a.goesOn then registered rest else none

/-- No connection of a live registration is lost or silent for too long, the client hears of
every removal, each transport that is not needed is given back, and no near cache that has
handlers is started again so that it hears events. -/
def Client.Calm [DecidableEq C] (s : Client C T) : Step C T → Prop
  | .start cache attempts => keptOut attempts = [] ∧
    ((registered attempts).isSome = true ∨ s.Hears cache →
      ∀ kind, (s.nearCaches cache).cl.processEvent kind = [])
  | .lose listenerId _ | .timeOut listenerId _ => listenerId ∉ s.live
  | .stop cache removal => removal = .unheard → s.findListener cache = none
  | .restart => True

/-! ### What starting a listener does -/

section Start

def enter (m : SortedMap Nat (Registration C T)) (listenerId : Nat) (cache : C) :
    Option T → SortedMap Nat (Registration C T)
  | none => m
  | some t => m.insert listenerId ⟨cache, t⟩

theorem get?_enter_of_ne {m : SortedMap Nat (Registration C T)} {listenerId other : Nat}
    (distinct : other ≠ listenerId) (cache : C) (t : Option T) :
    (enter m listenerId cache t).get? other = m.get? other := by
  cases t with
  | none => rfl
  | some t => exact m.get?_insert_of_ne _ distinct

theorem mem_enter {m : SortedMap Nat (Registration C T)} {listenerId other : Nat} {cache : C}
    {t : Option T} (member : other ∈ enter m listenerId cache t) :
    other = listenerId ∨ other ∈ m := by
  cases t with
  | none => exact .inr member
  | some t => exact m.mem_insert.mp member

theorem enter_perm {A : Type} {m : SortedMap Nat (Registration C T)} {listenerId : Nat}
    (absent : listenerId ∉ m) (f : Registration C T → A) (cache : C) (t : Option T) :
    ((enter m listenerId cache t).entries.map fun e => f e.2).Perm
      ((t.toList.map fun t => f ⟨cache, t⟩) ++ m.entries.map fun e => f e.2) := by
  cases t with
  | none => exact List.Perm.refl _
  | some t => exact (SortedMap.insert_perm absent ⟨cache, t⟩).map fun e => f e.2

theorem keptOut_cons (a : Attempt T) (rest : List (Attempt T)) :
    keptOut (a :: rest) = (if a.goesOn then keptOut rest else []) ++ keptOut [a] := by
  cases a <;> simp only [keptOut, ite_self, List.append_nil, List.nil_append]
  · split <;> simp
  · split <;> simp

theorem registered_cons (a : Attempt T) (rest : List (Attempt T)) :
    registered (a :: rest) = if a.goesOn then registered rest else registered [a] := by
  cases a with
  | registered t => rfl
  | unavailable e | unsent t e | raised t e | refused t => simp only [registered, ite_self]

theorem registered_of_goesOn {a : Attempt T} (again : a.goesOn = true) : registered [a] = none := by
  cases a <;> simp_all [registered, Attempt.goesOn]

structure Executed (listenerId : Nat) (cache : C) (attempts : List (Attempt T))
    (s t : Client C T) : Prop where
  handlers : ∀ other, (t.nearCaches other).cl.processEvent = (s.nearCaches other).cl.processEvent
  dispatchers : t.eventDispatchers =
    enter s.eventDispatchers listenerId cache (registered attempts)
  live : t.live = enter s.live listenerId cache (registered attempts)
  kept : t.kept = (registered attempts).toList ++ (keptOut attempts ++ s.kept)
  generated : t.generated = s.generated

variable {s t : Client C T} {cache : C} {listenerId : Nat} {attempts : List (Attempt T)}

theorem executed_of_unregistered (unregistered : registered attempts = none)
    (handlers : ∀ other,
      (t.nearCaches other).cl.processEvent = (s.nearCaches other).cl.processEvent)
    (dispatchers : t.eventDispatchers = s.eventDispatchers) (live : t.live = s.live)
    (kept : t.kept = keptOut attempts ++ s.kept) (generated : t.generated = s.generated) :
    Executed listenerId cache attempts s t where
  handlers := handlers
  dispatchers := by rw [unregistered]; exact dispatchers
  live := by rw [unregistered]; exact live
  kept := by rw [unregistered]; exact kept
  generated := generated

variable [DecidableEq C]

theorem handlers_announce (s : Client C T) (listenerId : Nat) (cache : C) (t : T) (other : C) :
    ((s.announce listenerId cache t).nearCaches other).cl.processEvent =
      (s.nearCaches other).cl.processEvent := by
  by_cases same : other = cache
  · subst same
    simp [Client.announce, Client.setListener, Client.addClientListener, Client.borrow]
  · simp [Client.announce, Client.setListener, Client.addClientListener, Client.borrow, same]

theorem dispatchers_announce (absent : listenerId ∉ s.eventDispatchers) (cache : C) (t : T) :
    (s.announce listenerId cache t).eventDispatchers =
      s.eventDispatchers.insert listenerId ⟨cache, t⟩ := if_neg absent

theorem dispatchers_withdrawn (absent : listenerId ∉ s.eventDispatchers) (cache : C) (t : T) :
    ((s.announce listenerId cache t).removeClientListener listenerId).eventDispatchers =
      s.eventDispatchers := by
  have announced := dispatchers_announce absent cache t
  simp only [Client.removeClientListener, announced, SortedMap.erase_insert absent]

theorem Client.kept_withdrawn (s : Client C T) (listenerId : Nat) (cache : C) (t : T) :
    ((s.announce listenerId cache t).removeClientListener listenerId).kept = t :: s.kept := rfl

variable [DecidableEq T]

theorem attempt_executed (absent : listenerId ∉ s.eventDispatchers) (cache : C) (a : Attempt T) :
    Executed listenerId cache [a] s (s.attempt listenerId cache a) := by
  cases a with
  | unavailable e =>
    refine executed_of_unregistered (by simp [registered]) (fun _ => rfl) rfl rfl ?_ rfl
    simp [keptOut, Client.attempt]
  | unsent t e =>
    have unregistered : registered [Attempt.unsent t e] = none := by simp [registered]
    by_cases invalidated : e.isTransport = true
    · rw [Client.attempt, if_pos invalidated]
      refine executed_of_unregistered unregistered (fun _ => rfl) rfl rfl ?_ rfl
      simp [keptOut, invalidated, Client.handBack, Client.borrow]
    · rw [Client.attempt, if_neg invalidated]
      refine executed_of_unregistered unregistered (fun _ => rfl) rfl rfl ?_ rfl
      simp [keptOut, invalidated, Client.borrow]
  | raised t e =>
    have unregistered : registered [Attempt.raised t e] = none := by simp [registered]
    have handlers := handlers_announce s listenerId cache t
    have dispatchers := dispatchers_withdrawn absent cache t
    by_cases caught : e.isHotRodClient = true
    · rw [Client.attempt, if_pos caught]
      refine executed_of_unregistered unregistered handlers dispatchers rfl ?_ rfl
      simp [keptOut, caught, Client.handBack, Client.kept_withdrawn]
    · rw [Client.attempt, if_neg caught]
      refine executed_of_unregistered unregistered handlers dispatchers rfl ?_ rfl
      simp [keptOut, caught, Client.kept_withdrawn]
  | refused t =>
    refine executed_of_unregistered rfl (handlers_announce s listenerId cache t)
      (dispatchers_withdrawn absent cache t) rfl ?_ rfl
    simp [keptOut, Client.attempt, Client.handBack, Client.kept_withdrawn]
  | registered t =>
    exact {
      handlers := handlers_announce s listenerId cache t
      dispatchers := dispatchers_announce absent cache t
      live := rfl
      kept := rfl
      generated := rfl }

theorem execute_executed (absent : listenerId ∉ s.eventDispatchers) (cache : C)
    (attempts : List (Attempt T)) :
    Executed listenerId cache attempts s (s.execute listenerId cache attempts) := by
  -- an attempt that fails withdraws its dispatcher, so the id is free for the next
  induction attempts generalizing s with
  | nil => exact ⟨fun _ => rfl, rfl, rfl, rfl, rfl⟩
  | cons a rest ih =>
    have first := attempt_executed absent cache a
    cases again : a.goesOn with
    | false =>
      have last : registered (a :: rest) = registered [a] := by simp [registered_cons a rest, again]
      have out : keptOut (a :: rest) = keptOut [a] := by simp [keptOut_cons a rest, again]
      rw [Client.execute, again]
      exact ⟨first.handlers, last ▸ first.dispatchers, last ▸ first.live,
        last ▸ out ▸ first.kept, first.generated⟩
    | true =>
      have unregistered := registered_of_goesOn again
      have later : registered (a :: rest) = registered rest := by
        simp [registered_cons a rest, again]
      have out : keptOut (a :: rest) = keptOut rest ++ keptOut [a] := by
        simp [keptOut_cons a rest, again]
      have dispatchers := first.dispatchers
      have live := first.live
      have kept := first.kept
      rw [unregistered] at dispatchers live kept
      simp only [enter, Option.toList_none, List.nil_append] at dispatchers live kept
      have next := ih (dispatchers ▸ absent)
      rw [Client.execute, again]
      constructor
      · exact fun other => (next.handlers other).trans (first.handlers other)
      · rw [later, ← dispatchers]
        exact next.dispatchers
      · rw [later, ← live]
        exact next.live
      · rw [later, out, List.append_assoc, ← kept]
        exact next.kept
      · exact next.generated.trans first.generated

structure Started (cache : C) (attempts : List (Attempt T)) (s t : Client C T) : Prop where
  handled : ∀ kind, (t.nearCaches cache).cl.processEvent kind =
    (s.nearCaches cache).cl.processEvent kind ++ [cache]
  others : ∀ other, other ≠ cache →
    (t.nearCaches other).cl.processEvent = (s.nearCaches other).cl.processEvent
  dispatchers : t.eventDispatchers =
    enter s.eventDispatchers s.generated cache (registered attempts)
  live : t.live = enter s.live s.generated cache (registered attempts)
  kept : t.kept = (registered attempts).toList ++ (keptOut attempts ++ s.kept)
  generated : t.generated = s.generated + 1

theorem startListener_started (fresh : s.generated ∉ s.eventDispatchers) (cache : C)
    (attempts : List (Attempt T)) : Started cache attempts s (s.startListener cache attempts) := by
  let prepared : Client C T :=
    { s.setListener cache (.addListeners cache) with generated := s.generated + 1 }
  have executed : Executed s.generated cache attempts prepared (s.startListener cache attempts) :=
    execute_executed (s := prepared) fresh cache attempts
  constructor
  · intro kind
    rw [executed.handlers cache]
    simp [prepared, Client.setListener]
  · intro other different
    rw [executed.handlers other]
    simp [prepared, Client.setListener, different]
  · exact executed.dispatchers
  · exact executed.live
  · exact executed.kept
  · exact executed.generated

end Start

/-! ### Invariant -/

/-- A near cache with a live registration has one, and one handler for each kind of event. -/
structure Client.Tidy (s : Client C T) : Prop where
  dispatchers : s.eventDispatchers = s.live
  kept : s.kept.Perm s.transports
  handled : ∀ cache, s.Hears cache → ∀ kind, (s.nearCaches cache).cl.processEvent kind = [cache]
  single : (s.live.entries.map fun e => e.2.cache).Nodup
  fresh : ∀ listenerId ∈ s.live, listenerId < s.generated

theorem filter_of_nodup {A B : Type} [DecidableEq B] {f : A → B} {as : List A}
    (distinct : (as.map f).Nodup) {a : A} (member : a ∈ as) :
    (as.filter fun x => f x = f a) = [a] := by
  induction as with
  | nil => cases member
  | cons first rest ih =>
    obtain ⟨absent, later⟩ := List.nodup_cons.mp distinct
    rcases List.mem_cons.mp member with rfl | further
    · have none : (rest.filter fun x => f x = f a) = [] := by
        rw [List.filter_eq_nil_iff]
        intro x inside same
        exact absent (List.mem_map.mpr ⟨x, inside, of_decide_eq_true same⟩)
      rw [List.filter_cons, if_pos (decide_eq_true rfl), none]
    · have different : f first ≠ f a := fun same =>
        absent (List.mem_map.mpr ⟨a, further, same.symm⟩)
      rw [List.filter_cons_of_neg (by simpa using different)]
      exact ih later further

section Invariant

variable {s t : Client C T} {cache : C} {attempts : List (Attempt T)}

theorem Client.hears_iff : s.Hears cache ↔ cache ∈ s.live.entries.map fun e => e.2.cache := by
  constructor
  · rintro ⟨listenerId, r, found, rfl⟩
    exact List.mem_map.mpr ⟨(listenerId, r), (s.live.get?_eq_some).mp found, rfl⟩
  · intro member
    obtain ⟨⟨listenerId, r⟩, inside, same⟩ := List.mem_map.mp member
    exact ⟨listenerId, r, (s.live.get?_eq_some).mpr inside, same⟩

theorem tidy_of_empty (dispatchers : s.eventDispatchers = SortedMap.empty) (kept : s.kept = [])
    (live : s.live = SortedMap.empty) : s.Tidy where
  dispatchers := dispatchers.trans live.symm
  kept := by
    rw [kept, Client.transports, dispatchers]
    exact List.Perm.refl _
  handled := by
    intro cache hears
    rw [Client.hears_iff, live] at hears
    cases hears
  single := by
    rw [live]
    exact List.nodup_nil
  fresh := by
    intro listenerId member
    rw [live] at member
    cases member

theorem tidy_of_restart (taken : s.restart = some t) : t.Tidy := by
  rw [Client.restart] at taken
  split at taken
  · cases taken
    exact tidy_of_empty rfl rfl rfl
  · cases taken

theorem Client.Tidy.generated_new (tidy : s.Tidy) : s.generated ∉ s.eventDispatchers := by
  intro member
  rw [tidy.dispatchers] at member
  exact lt_irrefl _ (tidy.fresh _ member)

theorem Client.Tidy.caches (tidy : s.Tidy) (started : Started cache attempts s t) :
    (t.live.entries.map fun e => e.2.cache).Perm
      (((registered attempts).toList.map fun _ => cache) ++
        s.live.entries.map fun e => e.2.cache) := by
  rw [started.live]
  exact enter_perm (tidy.dispatchers ▸ tidy.generated_new) Registration.cache cache _

theorem Client.Tidy.hears_iff (tidy : s.Tidy) (started : Started cache attempts s t) {other : C} :
    t.Hears other ↔ ((registered attempts).isSome = true ∧ other = cache) ∨ s.Hears other := by
  rw [Client.hears_iff, Client.hears_iff, (tidy.caches started).mem_iff, List.mem_append]
  cases registered attempts <;> simp

theorem Client.Tidy.transports (tidy : s.Tidy) (started : Started cache attempts s t) :
    t.transports.Perm ((registered attempts).toList ++ s.transports) := by
  have entered := enter_perm tidy.generated_new Registration.transport cache (registered attempts)
  rw [List.map_id'] at entered
  rw [Client.transports, started.dispatchers]
  exact entered

theorem Client.findListener_eq_some {listenerId : Nat} {r : Registration C T}
    (found : s.findListener cache = some (listenerId, r)) :
    s.eventDispatchers.get? listenerId = some r := by
  obtain ⟨id, -, lookup⟩ := Option.bind_eq_some_iff.mp found
  obtain ⟨r', dispatcher, same⟩ := Option.map_eq_some_iff.mp lookup
  cases same
  exact dispatcher

theorem Client.Tidy.remove [DecidableEq T] (tidy : s.Tidy) {listenerId : Nat}
    {r : Registration C T} (found : s.eventDispatchers.get? listenerId = some r) :
    (((s.forget listenerId).handBack r.transport).removeClientListener listenerId).Tidy := by
  have registered : s.live.get? listenerId = some r := tidy.dispatchers ▸ found
  have caches := (SortedMap.perm_erase registered).map fun e => e.2.cache
  have entries := (SortedMap.perm_erase found).map fun e => e.2.transport
  constructor
  · exact congrArg (fun m => m.erase listenerId) tidy.dispatchers
  · -- the transport may be lent several times; one of them is given back
    have left := (tidy.kept.trans entries).erase r.transport
    rw [List.map_cons, List.erase_cons_head] at left
    exact left
  · intro other hears
    have before : s.Hears other := by
      rw [Client.hears_iff, caches.mem_iff]
      exact List.mem_cons_of_mem _ (Client.hears_iff.mp hears)
    exact tidy.handled other before
  · exact (List.nodup_cons.mp (caches.nodup_iff.mp tidy.single)).2
  · intro other member
    exact tidy.fresh other (s.live.mem_erase.mp member).2

variable [DecidableEq C]

theorem Client.Tidy.inOrder (tidy : s.Tidy) : s.InOrder where
  invoked cache kind hears := by
    obtain ⟨e, inside, rfl⟩ := List.mem_map.mp (Client.hears_iff.mp hears)
    have only := filter_of_nodup tidy.single inside
    have handled := tidy.handled e.2.cache hears kind
    rw [Client.invoked, only, List.flatMap_singleton, handled]
  dispatchers := tidy.dispatchers
  kept := tidy.kept

theorem Client.Tidy.start (tidy : s.Tidy) (started : Started cache attempts s t)
    (calm : s.Calm (.start cache attempts)) : t.Tidy := by
  obtain ⟨out, unhandled⟩ := calm
  have unheard : ¬ s.Hears cache := by
    intro hears
    have none := unhandled (.inr hears) .created
    rw [tidy.handled cache hears .created] at none
    cases none
  constructor
  · rw [started.dispatchers, started.live, tidy.dispatchers]
  · rw [started.kept, out, List.nil_append]
    exact (tidy.kept.append_left _).trans (tidy.transports started).symm
  · intro other hears kind
    rcases (tidy.hears_iff started).mp hears with ⟨accepted, rfl⟩ | before
    · rw [started.handled kind, unhandled (.inl accepted) kind, List.nil_append]
    · have different : other ≠ cache := fun same => unheard (same ▸ before)
      rw [started.others other different]
      exact tidy.handled other before kind
  · rw [(tidy.caches started).nodup_iff]
    cases registered attempts with
    | none => exact tidy.single
    | some transport =>
      exact List.nodup_cons.mpr ⟨fun member => unheard (Client.hears_iff.mpr member), tidy.single⟩
  · intro listenerId member
    rw [started.live] at member
    rw [started.generated]
    rcases mem_enter member with rfl | before
    · exact Nat.lt_succ_self _
    · exact Nat.lt_succ_of_lt (tidy.fresh listenerId before)

theorem Client.length_le_invoked (hears : s.Hears cache) (kind : EventKind) :
    ((s.nearCaches cache).cl.processEvent kind).length ≤ (s.invoked cache kind).length := by
  obtain ⟨e, inside, rfl⟩ := List.mem_map.mp (Client.hears_iff.mp hears)
  have chosen : e ∈ s.live.entries.filter fun x => x.2.cache = e.2.cache :=
    List.mem_filter.mpr ⟨inside, decide_eq_true rfl⟩
  obtain ⟨before, after, split⟩ := List.append_of_mem chosen
  rw [Client.invoked, split, List.flatMap_append, List.flatMap_cons, List.length_append,
    List.length_append]
  omega

theorem Client.Tidy.not_inOrder_of_start (tidy : s.Tidy) (started : Started cache attempts s t)
    (restless : ¬ s.Calm (.start cache attempts)) : ¬ t.InOrder := by
  intro inOrder
  apply restless
  constructor
  · -- one more dispatcher comes with one more transport, and no other transport with any
    have before := tidy.kept.length_eq
    have after := inOrder.kept.length_eq
    have dispatchers := (tidy.transports started).length_eq
    rw [started.kept, List.length_append, List.length_append] at after
    rw [List.length_append] at dispatchers
    exact List.length_eq_zero_iff.mp (by omega)
  · intro effect kind
    have hears : t.Hears cache :=
      (tidy.hears_iff started).mpr (effect.imp (fun accepted => ⟨accepted, rfl⟩) id)
    -- one call is left for the handler that has just been added
    have called := Client.length_le_invoked hears kind
    rw [inOrder.invoked cache kind hears, started.handled kind, List.length_append] at called
    exact List.length_eq_zero_iff.mp (Nat.le_zero.mp (Nat.le_of_succ_le_succ called))

theorem Client.handlers_shutDown (s : Client C T) (cache other : C) :
    ((s.shutDown cache).nearCaches other).cl = (s.nearCaches other).cl := by
  by_cases same : other = cache
  · subst same
    simp [Client.shutDown]
  · simp [Client.shutDown, same]

theorem Client.Tidy.shutDown (tidy : s.Tidy) (cache : C) : (s.shutDown cache).Tidy where
  dispatchers := tidy.dispatchers
  kept := tidy.kept
  handled := by
    intro other hears kind
    rw [s.handlers_shutDown cache other]
    exact tidy.handled other hears kind
  single := tidy.single
  fresh := tidy.fresh

variable [DecidableEq T]

theorem Client.lose_cases {listenerId : Nat} (taken : s.lose listenerId attempts = some t) :
    ∃ r, s.live.get? listenerId = some r ∧ (t = s.forget listenerId ∨
      t = (s.forget listenerId).startListener r.cache attempts) := by
  rw [Client.lose] at taken
  split at taken
  · cases taken
  · rename_i r found
    refine ⟨r, found, ?_⟩
    split at taken
    · exact .inl (Option.some.inj taken).symm
    · exact .inr (Option.some.inj taken).symm

theorem Client.live_of_lose {listenerId : Nat} (taken : s.lose listenerId attempts = some t) :
    listenerId ∈ s.live := by
  obtain ⟨r, found, -⟩ := Client.lose_cases taken
  exact s.live.mem_iff.mpr ⟨r, found⟩

theorem Client.Tidy.lose_leaves (tidy : s.Tidy) {listenerId : Nat}
    (taken : s.lose listenerId attempts = some t) :
    ∃ r, t.eventDispatchers.get? listenerId = some r ∧ t.live.get? listenerId = none := by
  obtain ⟨r, found, ended⟩ := Client.lose_cases taken
  have dispatcher : s.eventDispatchers.get? listenerId = some r := by
    rw [tidy.dispatchers]
    exact found
  have gone := s.live.get?_erase_self listenerId
  refine ⟨r, ?_⟩
  rcases ended with rfl | rfl
  · exact ⟨dispatcher, gone⟩
  · -- what the callback registers has an id of its own
    have old : listenerId ≠ s.generated := by
      rintro rfl
      exact tidy.generated_new (s.eventDispatchers.mem_iff.mpr ⟨r, dispatcher⟩)
    have started := startListener_started (s := s.forget listenerId) tidy.generated_new r.cache
      attempts
    constructor
    · rw [started.dispatchers]
      exact (get?_enter_of_ne old _ _).trans dispatcher
    · rw [started.live]
      exact (get?_enter_of_ne old _ _).trans gone

theorem Client.Tidy.not_inOrder_of_lose (tidy : s.Tidy) {listenerId : Nat}
    (taken : s.lose listenerId attempts = some t) : ¬ t.InOrder := by
  intro inOrder
  obtain ⟨r, dispatcher, gone⟩ := tidy.lose_leaves taken
  rw [inOrder.dispatchers, gone] at dispatcher
  cases dispatcher

theorem Client.Tidy.not_live (tidy : s.Tidy) {listenerId : Nat}
    (inOrder : ∀ t, s.lose listenerId attempts = some t → t.InOrder) : listenerId ∉ s.live := by
  intro member
  obtain ⟨r, found⟩ := s.live.mem_iff.mp member
  cases taken : s.lose listenerId attempts with
  | none =>
    simp only [Client.lose, found] at taken
    split at taken <;> cases taken
  | some t => exact tidy.not_inOrder_of_lose taken (inOrder t taken)

theorem Client.stop_cases {removal : Removal} (taken : s.stop cache removal = some t) :
    ∃ listenerId r, s.findListener cache = some (listenerId, r) ∧
      ((removal = .removed ∧ t = (((s.shutDown cache).forget listenerId).handBack
        r.transport).removeClientListener listenerId) ∨
      (removal = .refused ∧ t = s.shutDown cache) ∨
      (removal = .unheard ∧ t = (s.shutDown cache).forget listenerId)) := by
  rw [Client.stop] at taken
  split at taken
  · cases taken
  · rename_i listenerId r found
    refine ⟨listenerId, r, found, ?_⟩
    cases removal with
    | removed => exact .inl ⟨rfl, (Option.some.inj taken).symm⟩
    | refused => exact .inr (.inl ⟨rfl, (Option.some.inj taken).symm⟩)
    | unheard => exact .inr (.inr ⟨rfl, (Option.some.inj taken).symm⟩)

theorem Client.Tidy.stop (tidy : s.Tidy) {removal : Removal} (calm : s.Calm (.stop cache removal))
    (taken : s.stop cache removal = some t) : t.Tidy := by
  obtain ⟨listenerId, r, found, ⟨-, rfl⟩ | ⟨-, rfl⟩ | ⟨unheard, -⟩⟩ := Client.stop_cases taken
  · have dispatcher := Client.findListener_eq_some found
    exact (tidy.shutDown cache).remove dispatcher
  · exact tidy.shutDown cache
  · rw [calm unheard] at found
    cases found

theorem Client.not_inOrder_of_unheard (taken : s.stop cache .unheard = some t) : ¬ t.InOrder := by
  intro inOrder
  obtain ⟨listenerId, r, found, ⟨removed, -⟩ | ⟨refused, -⟩ | ⟨-, rfl⟩⟩ := Client.stop_cases taken
  · cases removed
  · cases refused
  · have dispatcher := Client.findListener_eq_some found
    have gone := s.live.get?_erase_self listenerId
    have same : s.eventDispatchers = s.live.erase listenerId := inOrder.dispatchers
    rw [same, gone] at dispatcher
    cases dispatcher

-- The invariant is kept by the steps that are calm.
theorem Client.Tidy.step (tidy : s.Tidy) {l : Step C T} (calm : s.Calm l)
    (taken : s.step l = some t) : t.Tidy := by
  cases l with
  | start cache attempts =>
    cases taken
    exact tidy.start (startListener_started tidy.generated_new cache attempts) calm
  | lose listenerId attempts => exact absurd (Client.live_of_lose taken) calm
  | timeOut listenerId attempts => exact absurd (Client.live_of_lose taken) calm
  | stop cache removal => exact tidy.stop calm taken
  | restart => exact tidy_of_restart taken

-- Any other step that can be taken brings the registrations out of order.
theorem Client.Tidy.calm_of_inOrder (tidy : s.Tidy) {l : Step C T}
    (inOrder : ∀ t, s.step l = some t → t.InOrder) : s.Calm l := by
  cases l with
  | start cache attempts =>
    by_contra restless
    have started := startListener_started tidy.generated_new cache attempts
    exact tidy.not_inOrder_of_start started restless (inOrder _ rfl)
  | lose listenerId attempts => exact tidy.not_live inOrder
  | timeOut listenerId attempts => exact tidy.not_live inOrder
  | stop cache removal =>
    rintro rfl
    cases found : s.findListener cache with
    | none => rfl
    | some listener =>
      cases taken : s.stop cache .unheard with
      | none =>
        rw [Client.stop, found] at taken
        cases taken
      | some t => exact absurd (inOrder t taken) (Client.not_inOrder_of_unheard taken)
  | restart => trivial

end Invariant

/-! ### Runs -/

/-- The handlers, the dispatchers and the transports are in order after each step exactly
if the run is calm. -/
theorem registrations_inOrder_iff [DecidableEq C] [DecidableEq T] (steps : List (Step C T)) :
    Guarded Client.step (fun s l => ∀ t, s.step l = some t → t.InOrder) ({} : Client C T) steps ↔
      Guarded Client.step Client.Calm ({} : Client C T) steps := by
  have start : ({} : Client C T).Tidy := tidy_of_empty rfl rfl rfl
  constructor
  · apply Guarded.imp_of_invariant Client.Tidy start
    · intro s l t tidy inOrder taken
      exact tidy.step (tidy.calm_of_inOrder inOrder) taken
    · intro s l tidy inOrder
      exact tidy.calm_of_inOrder inOrder
  · apply Guarded.imp_of_invariant Client.Tidy start
    · intro s l t tidy calm taken
      exact tidy.step calm taken
    · intro s l tidy calm t taken
      exact (tidy.step calm taken).inOrder

/-- The near cache 0 loses its connection 5 and registers again over 6. -/
theorem lost_connection_stays :
    ¬ Guarded Client.step (fun s l => ∀ t, s.step l = some t → t.InOrder)
      ({} : Client Nat Nat) [.start 0 [.registered 5], .lose 0 [.registered 6]] := by
  rintro ⟨-, next⟩
  obtain ⟨inOrder, -⟩ := next _ rfl
  have dispatchers := (inOrder _ rfl).dispatchers
  revert dispatchers
  decide

end HotRod.NearCache.Registrations
