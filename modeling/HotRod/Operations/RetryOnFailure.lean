import HotRod.Data.SortedMap
import HotRod.Exceptions
import HotRod.Semantics.Execution

/-! `RetryOnFailureOperation::execute`, one attempt at a time.

What an attempt asks of its surroundings (the balancer and the pool, the body of
`executeOperation`, the servers it pings) is a script. The set of failed servers
is passed to the balancer and read by nothing else, so it is part of the script
as well. -/

set_option autoImplicit false

namespace HotRod.Operations

open Semantics.Execution

structure InetSocketAddress where
  -- Ports are unsigned shorts; the resolved addresses are not part of the order of the pool's maps.
  hostname : String
  port : UInt16
  deriving DecidableEq, Repr

-- The constructor casts the port.
def InetSocketAddress.new (host : String) (p : Int) : InetSocketAddress := ⟨host, UInt16.ofInt p⟩

structure Transport where
  id : Nat
  serverAddress : InetSocketAddress
  deriving DecidableEq, Repr

/-- The subclasses by what they override. `plain` stands for every operation with
a result that overrides neither hand-back, `void` for those of the specialization
without a result. -/
inductive Operation where
  | plain
  | void
  | addClientListener
  | removeClientListener
  | addCounterListener (keepTransport : Bool)
  deriving DecidableEq, Repr

/-- How the body of `executeOperation` goes. `succeeded` is read by the listener
operations: the server has accepted the listener. `early` is an exception before
the `try` block of `AddClientListenerOperation`. -/
inductive Outcome (T : Type) where
  | returned (result : T) (succeeded : Bool)
  | raised (e : Exn) (early : Bool)

/-- What one attempt is going to meet: a transport or the exception of
`getTransport`, the body of the operation, whether the transport is valid
afterwards, and the answers of the pool to the hand-backs. -/
structure Script (T : Type) where
  transport : Except Exn Transport
  outcome : Outcome T
  valid : Bool := true
  pool : List (Option Exn) := []

inductive PoolCall where
  | returnObject (key : InetSocketAddress) (val : Transport)
  | invalidateObject (key : InetSocketAddress) (val : Transport)
  deriving DecidableEq, Repr

def PoolCall.key : PoolCall → InetSocketAddress
  | .returnObject key _ | .invalidateObject key _ => key

def PoolCall.val : PoolCall → Transport
  | .returnObject _ val | .invalidateObject _ val => val

/-- The variables of one attempt, the `failed` member of the listener operations
and the calls made to the pool. -/
structure Attempt where
  failed : Bool := false
  transport : Option Transport := none
  calls : List PoolCall := []
  answers : List (Option Exn) := []

abbrev AttemptM := EStateM Fault Attempt

variable {T : Type}

def handBack (call : PoolCall) : AttemptM PUnit := do
  let s ← get
  modify fun s => { s with calls := s.calls ++ [call], answers := s.answers.tail }
  match s.answers.head?.join with
  | some e => throw (.raised e)
  | none => pure ()

namespace TransportFactory

def releaseTransport (valid : Bool) (transport : Transport) : AttemptM PUnit :=
  if valid then handBack (.returnObject transport.serverAddress transport)
  else handBack (.invalidateObject transport.serverAddress transport)

def invalidateTransport (serverAddress : InetSocketAddress) (transport : Transport) :
    AttemptM PUnit :=
  handBack (.invalidateObject serverAddress transport)

end TransportFactory

def releaseChecked (valid : Bool) : Option Transport → AttemptM PUnit
  | some t => TransportFactory.releaseTransport valid t
  | none => pure ()

def releaseTransport (op : Operation) (valid : Bool) (transport : Option Transport) :
    AttemptM PUnit := do
  match op with
  | .plain | .void => releaseChecked valid transport
  | .removeClientListener =>
    -- its override does not look whether there is a transport
    match transport with
    | some t => TransportFactory.releaseTransport valid t
    | none => throw .nullDereference
  | .addClientListener =>
    if (← get).failed then
      releaseChecked valid transport
      modify fun s => { s with failed := false }
    else pure ()
  | .addCounterListener keepTransport =>
    if (← get).failed || !keepTransport then
      releaseChecked valid transport
      modify fun s => { s with failed := false }
    else pure ()

def invalidateTransport (addr : InetSocketAddress) : Option Transport → AttemptM PUnit
  | some t => TransportFactory.invalidateTransport addr t
  | none => pure ()

def getTransport (script : Script T) : AttemptM Transport := do
  match script.transport with
  | .ok t => do
    modify fun s => { s with transport := some t }
    pure t
  | .error e => throw (.raised e)

-- A transport exception inside the `try` block of `AddClientListenerOperation` is raised again
-- under the address of its own transport.
def readdress (t : Transport) : Exn → Exn
  | .transport _ _ message => .transport t.serverAddress.hostname t.serverAddress.port.toNat message
  | e => e

def executeOperation (op : Operation) (t : Transport) (outcome : Outcome T) : AttemptM T := do
  match op, outcome with
  | .addClientListener, .returned result succeeded => do
    modify fun s => { s with failed := !succeeded }
    pure result
  | .addClientListener, .raised e true => do
    modify fun s => { s with failed := false }
    throw (.raised e)
  | .addClientListener, .raised e false => do
    modify fun s => { s with failed := true }
    throw (.raised (readdress t e))
  | .addCounterListener _, .returned result succeeded => do
    modify fun s => { s with failed := !succeeded }
    pure result
  | .addCounterListener _, .raised e _ => do
    modify fun s => { s with failed := false }
    throw (.raised e)
  | _, .returned result _ => pure result
  | _, .raised e _ => throw (.raised e)

def tryBlock (op : Operation) (script : Script T) : AttemptM T := do
  let t ← getTransport script
  let result ← executeOperation op t script.outcome
  -- still inside the `try`: what the pool raises here is handled like a failure
  releaseTransport op script.valid (some t)
  pure result

-- The `catch` clauses up to `logErrorAndThrowExceptionIfNeeded`.
def handle (op : Operation) (valid : Bool) (e : Exn) : AttemptM PUnit := do
  let transport := (← get).transport
  match e with
  | .transport host port _ => invalidateTransport (.new host port) transport
  | .counterUpperBound _ | .counterLowerBound _ =>
    -- the specialization for `void` has no clauses for these
    if op ≠ .void then releaseTransport op valid transport
    throw (.raised e)
  | _ =>
    if e.isHotRodClient then releaseTransport op valid transport
    else throw (.raised e)

/-- One turn of the loop: the result, or the exception that was caught. -/
def attempt (op : Operation) (script : Script T) : AttemptM (Except Exn T) :=
  tryCatch (Except.ok <$> tryBlock op script) fun
    | .raised e => do
      handle op script.valid e
      pure (.error e)
    | fault => throw fault

/-! ### Clusters -/

variable {C : Type} [LinearOrder C]

/-- The settings `execute` reads and what the cluster switches are going to meet:
`ping n` answers for the servers during the n-th switch, and `prepare n` is the
exception of the rest of it, if any. -/
structure Surroundings (C : Type) [LinearOrder C] where
  maxRetries : Nat
  serversMap : SortedMap C (List InetSocketAddress)
  ping : Nat → InetSocketAddress → Option Exn
  prepare : Nat → Option Exn

-- The first server that answers; `catch (Exception&)` goes on with the next.
def anyAnswers (ping : InetSocketAddress → Option Exn) : List InetSocketAddress → Except Exn Bool
  | [] => .ok false
  | v :: rest =>
    match ping v with
    | none => .ok true
    | some e => if e.isException then anyAnswers ping rest else .error e

def getNextWorkingServersConfiguration (ping : InetSocketAddress → Option Exn) (currCluster : C) :
    List (C × List InetSocketAddress) → Except Exn (Option C)
  | [] => .ok none
  | (name, servers) :: rest =>
    if name = currCluster then getNextWorkingServersConfiguration ping currCluster rest
    else
      match anyAnswers ping servers with
      | .error e => .error e
      | .ok true => .ok (some name)
      | .ok false => getNextWorkingServersConfiguration ping currCluster rest

/-- The n-th cluster switch: the cluster it leads to, or `none` if it returns false. -/
def clusterSwitch (env : Surroundings C) (n : Nat) (currCluster : C) : Except Exn (Option C) :=
  match getNextWorkingServersConfiguration (env.ping n) currCluster env.serversMap.entries with
  | .error e => .error e
  | .ok none => .ok none
  | .ok (some name) =>
    match env.prepare n with
    | some e => .error e
    | none => .ok (some name)

/-! ### The loop -/

structure Attempted (C T : Type) where
  cluster : C
  script : Script T
  calls : List PoolCall
  failure : Option Fault
  escaped : Option Fault

inductive Ended (T : Type) where
  | returned (result : T)
  | raised (fault : Fault)

structure Loop (C T : Type) where
  currCluster : C
  retryCount : Nat := 0
  failed : Bool := false
  switches : Nat := 0
  log : List (Attempted C T) := []
  ended : Option (Ended T) := none

-- The increment and the test of the loop.
def nextTurn (env : Surroundings C) (s : Loop C T) : Loop C T :=
  if s.retryCount + 1 ≤ env.maxRetries then { s with retryCount := s.retryCount + 1 }
  else { s with ended := some (.raised (.raised (.internal "We should not reach here!"))) }

def logErrorAndThrowExceptionIfNeeded (env : Surroundings C) (s : Loop C T) (e : Exn) : Loop C T :=
  if (env.maxRetries : Int) - 1 ≤ s.retryCount then
    match clusterSwitch env s.switches s.currCluster with
    | .error thrown => { s with ended := some (.raised (.raised thrown)) }
    | .ok none => { s with ended := some (.raised (.raised e)) }
    | .ok (some name) =>
      -- the increment of the loop comes on top of the reset
      nextTurn env { s with currCluster := name, switches := s.switches + 1, retryCount := 0 }
  else nextTurn env s

def record (op : Operation) (cluster : C) (failed : Bool) (script : Script T) : Attempted C T :=
  let before : Attempt := { failed, answers := script.pool }
  { cluster
    script
    calls := (final (attempt op script before)).calls
    failure := raised (tryBlock op script before)
    escaped := raised (attempt op script before) }

-- One turn of `execute`; a loop that has ended takes no further turn.
def turn (op : Operation) (env : Surroundings C) (s : Loop C T) (script : Script T) :
    Option (Loop C T) :=
  match s.ended with
  | some _ => none
  | none =>
    let result := attempt op script { failed := s.failed, answers := script.pool }
    let s := { s with
      failed := (final result).failed
      log := s.log ++ [record op s.currCluster s.failed script] }
    match result with
    | .ok (.ok r) _ => some { s with ended := some (.returned r) }
    | .ok (.error e) _ => some (logErrorAndThrowExceptionIfNeeded env s e)
    | .error fault _ => some { s with ended := some (.raised fault) }

end HotRod.Operations
