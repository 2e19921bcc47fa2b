import HotRod.Operations.Commands
import Mathlib.Logic.Relation

/-! The threads that read the connection of a listener.

`EventDispatcher::run` and `CounterDispatcher::run` are one loop: a header is read,
anything but an event stops the loop, an event is read and the user's code is called.
A transport exception ends the loop as well, and runs the recovery callback. Nothing
else is caught, and the stop at a foreign operation code runs no callback. -/

set_option autoImplicit false

namespace HotRod.Events

open Semantics.Execution
open Protocol HotRodConstants
open Operations (ClientEvent readValue)
open WireFormat (Bytes Parser Shrinks)

variable {A M X L : Type}

/-! ### The loop -/

inductive Thrown where
  | exn (e : Exn)
  | foreign
  deriving DecidableEq, Repr

def Thrown.isTransport : Thrown → Bool
  | .exn e => e.isTransport
  | .foreign => false

-- Taken by `catch (const std::exception&)`.
def Thrown.isStd : Thrown → Bool
  | .exn _ => true
  | .foreign => false

/-- `invoked` are the calls of the user's code, in order, and `recovered` counts the
calls of the recovery callback. -/
structure Dispatching (X : Type) where
  transport : Connection
  invoked : List X := []
  recovered : Nat := 0

abbrev DispatcherM (X : Type) := EStateM Thrown (Dispatching X)

def onTransport (m : ConnectionM A) : DispatcherM X A := fun s =>
  match m s.transport with
  | .ok a transport => .ok a { s with transport }
  | .error e transport => .error (.exn e) { s with transport }

theorem onTransport_of_ok {m : ConnectionM A} {s : Dispatching X} {a : A}
    {c : Connection}
    (returned : m s.transport = .ok a c) : onTransport m s = .ok a { s with transport := c } := by
  simp only [onTransport, returned]

theorem onTransport_of_error {m : ConnectionM A} {s : Dispatching X} {e : Exn}
    {c : Connection}
    (raised : m s.transport = .error e c) :
    onTransport m s = .error (.exn e) { s with transport := c } := by
  simp only [onTransport, raised]

/-- A loop for a number of turns, each of which says whether the loop goes on. The answer
says whether it stopped. -/
def turns (turn : DispatcherM X Bool) : Nat → DispatcherM X Bool
  | 0 => pure false
  | n + 1 => do
    if ← turn then turns turn n else pure true

theorem turns_of_goesOn {turn : DispatcherM X Bool} {s t : Dispatching X} {n : Nat}
    (went : turn s = .ok true t) : turns turn (n + 1) s = turns turn n t := by
  rw [turns, bind_of_ok went, if_pos rfl]

theorem turns_of_stop {turn : DispatcherM X Bool} {s : Dispatching X} {n : Nat}
    (stops : ∀ t, turn s ≠ .ok true t) :
    turns turn (n + 1) s = match turn s with
      | .ok _ t => .ok true t
      | .error thrown t => .error thrown t := by
  rw [turns, bind_apply]
  cases turned : turn s with
  | error thrown t => rfl
  | ok goesOn t =>
    cases goesOn with
    | true => exact absurd turned (stops t)
    | false => rfl

def call (callback : List X → Option Thrown) (x : X) : DispatcherM X PUnit := do
  modify fun s => { s with invoked := s.invoked ++ [x] }
  match callback (← get).invoked with
  | none => pure ()
  | some thrown => throw thrown

section Call

variable {callback : List X → Option Thrown} {s : Dispatching X} {x : X}

theorem call_none (quiet : callback (s.invoked ++ [x]) = none) :
    call callback x s = .ok () { s with invoked := s.invoked ++ [x] } := by
  simp only [call, bind_apply, modify_apply, get_apply, quiet, pure_apply]

theorem call_some {thrown : Thrown} (raises : callback (s.invoked ++ [x]) = some thrown) :
    call callback x s = .error thrown { s with invoked := s.invoked ++ [x] } := by
  simp only [call, bind_apply, modify_apply, get_apply, raises, throw_apply]

end Call

/-- What the two threads differ in. A message asks for invocations of the user's code,
given those before it; `callback` is what the last of them raises. `recoveryCallback`
is absent, or known by what it raises. -/
structure Dispatcher (M X : Type) where
  isEvent : UInt8 → Bool
  isEvent_errorResponse : isEvent errorResponse = false
  readMessage : UInt8 → ConnectionM M
  invocations : M → List X → List X
  callback : List X → Option Thrown
  ignores : Thrown → Bool
  recoveryCallback : Option (Option Thrown)
  guarded : Bool

namespace Dispatcher

variable (d : Dispatcher M X)

def invoke (x : X) : DispatcherM X PUnit :=
  tryCatch (call d.callback x) fun thrown => if d.ignores thrown then pure () else throw thrown

def deliver : List X → DispatcherM X PUnit
  | [] => pure ()
  | x :: rest => do
    d.invoke x
    deliver rest

def recover : DispatcherM X PUnit :=
  match d.recoveryCallback with
  | none => pure ()
  | some raises => do
    modify fun s => { s with recovered := s.recovered + 1 }
    match raises with
    | none => pure ()
    | some thrown => if d.guarded then pure () else throw thrown

-- What is tried in one turn; the answer says whether the loop goes on.
def attempt : DispatcherM X Bool := do
  let params ← onTransport readEventHeader
  if d.isEvent params.opCode then do
    let message ← onTransport (d.readMessage params.opCode)
    d.deliver (d.invocations message (← get).invoked)
    pure true
  else
    -- a malformed message ends the loop, and nobody is told
    pure false

def turn : DispatcherM X Bool :=
  tryCatch d.attempt fun thrown =>
    if thrown.isTransport then do
      d.recover
      pure false
    else
      -- nothing else is caught: the thread ends with the exception
      throw thrown

-- `while (true)`. Every turn that is not the last reads a byte.
def run : DispatcherM X Bool := do
  turns d.turn ((← get).transport.unread.length + 1)

end Dispatcher

/-! ### `EventDispatcher` -/

inductive Invocation where
  | event (event : ClientEvent) (listId : List UInt8) (isCustom : UInt8)
  | expired (key : List UInt8) (listId : List UInt8) (isCustom : UInt8)

/-- The event after its header; the two readers of events differ in what they do with
an expired entry. -/
def readEventBody (readExpired : List UInt8 → UInt8 → ConnectionM (Option Invocation))
    (opCode : UInt8) : ConnectionM (Option Invocation) := do
  let listId ← readValue
  let isCustom ← readByte
  let isRetried ← readByte
  if isCustom ≠ 0 then do
    let data ← readValue
    pure (some (.event (.custom data isRetried) listId isCustom))
  else if opCode = cacheEntryCreatedEventResponse then do
    let key ← readValue
    let version ← readLong
    pure (some (.event (.created key version isRetried) listId isCustom))
  else if opCode = cacheEntryModifiedEventResponse then do
    let key ← readValue
    let version ← readLong
    pure (some (.event (.modified key version isRetried) listId isCustom))
  else if opCode = cacheEntryRemovedEventResponse then do
    let key ← readValue
    pure (some (.event (.removed key isRetried) listId isCustom))
  else if opCode = cacheEntryExpiredEventResponse then readExpired listId isCustom
  else pure none

-- A codec below 2.1 logs an error for an expired entry, and reads nothing of it.
def readEvent (codec : Codec) : UInt8 → ConnectionM (Option Invocation) :=
  readEventBody fun listId isCustom =>
    if 21 ≤ codec.protocolVersion then do
      let key ← readValue
      pure (some (.expired key listId isCustom))
    else pure none

structure EventDispatcher where
  -- `processEvent` is what the last of the calls raises.
  codec : Codec
  processEvent : List Invocation → Option Thrown
  recoveryCallback : Option (Option Thrown)

def EventDispatcher.dispatcher (e : EventDispatcher) : Dispatcher (Option Invocation) Invocation where
  isEvent := isEvent
  isEvent_errorResponse := rfl
  readMessage := readEvent e.codec
  invocations message _ := message.toList
  callback := e.processEvent
  ignores _ := false
  recoveryCallback := e.recoveryCallback
  guarded := true

def EventDispatcher.run (e : EventDispatcher) : DispatcherM Invocation Bool := e.dispatcher.run

/-! ### `CounterDispatcher` -/

inductive CounterState where
  | valid | lowerBoundReached | upperBoundReached
  deriving DecidableEq, Repr

def encoded2State (bits : UInt8) : CounterState :=
  if bits = 0x01 then .lowerBoundReached
  else if bits = 0x02 then .upperBoundReached
  else .valid

def encoded2OldState (encoded : UInt8) : CounterState := encoded2State (encoded &&& 0x03)

def encoded2NewState (encoded : UInt8) : CounterState := encoded2State (encoded >>> 0x02 &&& 0x03)

structure CounterEvent where
  counterName : List UInt8
  oldValue : Int64
  oldState : CounterState
  newValue : Int64
  newState : CounterState
  deriving DecidableEq

def readCounterEvent (_opCode : UInt8) : ConnectionM CounterEvent := do
  let counterName ← readString
  -- the listener's id is read and not looked at
  let _ ← readArray
  let encodedState ← readByte
  let oldValue ← readLong
  let newValue ← readLong
  pure {
    counterName := counterName.1
    oldValue := oldValue.toInt64
    oldState := encoded2OldState encodedState
    newValue := newValue.toInt64
    newState := encoded2NewState encodedState }

structure Update (L : Type) where
  listener : L
  event : CounterEvent

/-- `listeners` is the map as the thread finds it after these calls; other threads
change it. `onUpdate` is what the last of the calls raises. -/
structure CounterDispatcher (L : Type) where
  listeners : List (Update L) → List UInt8 → List L
  onUpdate : List (Update L) → Option Thrown
  recoveryCallback : Option (Option Thrown)

def CounterDispatcher.dispatcher (c : CounterDispatcher L) : Dispatcher CounterEvent (Update L) where
  isEvent := isCounterEvent
  isEvent_errorResponse := rfl
  readMessage := readCounterEvent
  invocations ev before := (c.listeners before ev.counterName).map fun cl => ⟨cl, ev⟩
  callback := c.onUpdate
  ignores := Thrown.isStd
  recoveryCallback := c.recoveryCallback
  guarded := false

def CounterDispatcher.run (c : CounterDispatcher L) : DispatcherM (Update L) Bool := c.dispatcher.run

end HotRod.Events
