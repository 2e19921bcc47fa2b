import HotRod.Data.SetDifference
import HotRod.Topology.TopologyInfo
import HotRod.Transport.Alone

/-! `TransportFactory`: the server list, the balancer and the pool, and how a new
topology or a cluster switch is put in place.

All of this runs under the factory's lock. The lock is recursive: the answer to a
ping may bring a topology, which is put in place before the ping returns. -/

set_option autoImplicit false

namespace HotRod.Topology

open Semantics.Execution HotRod.Transport

/-- A call of `updateServers`: the list it found, the list it was given, and whether
it returned. -/
structure Update (K : Type) where
  before : List K
  after : List K
  completed : Bool
  deriving DecidableEq, Repr

/-- `initialServers` is also the list that `TopologyInfo` refers to. `updates` is a
record of calls that the code does not keep. -/
structure TransportFactory (N K : Type) [LinearOrder N] [LinearOrder K] where
  connectionPool : ConnectionPool K := {}
  balancer : RoundRobinBalancingStrategy K := {}
  initialServers : List K := []
  topologyInfo : TopologyInfo N (Option K) := {}
  topologyAge : Int := 0
  failedServers : List K := []
  updates : List (Update K) := []

variable {N K : Type} [LinearOrder N] [LinearOrder K] {A : Type}

abbrev FactoryM (N K : Type) [LinearOrder N] [LinearOrder K] :=
  EStateM Fault (TransportFactory N K)

def onPool (call : PoolM K A) : FactoryM N K A := fun s =>
  match call s.connectionPool with
  | .ok a connectionPool => .ok a { s with connectionPool }
  | .error e connectionPool => .error e { s with connectionPool }

-- `catch (const Exception&)` around a call, which then has the given value.
def catching (call : FactoryM N K A) (value : A) : FactoryM N K A :=
  tryCatch call fun
    | .raised e => if e.isException then pure value else throw (.raised e)
    | fault => throw fault

def sort (servers : List K) : List K := servers.insertionSort (· ≤ ·)

def addServers (config : Configuration) : List K → FactoryM N K PUnit
  | [] => pure ()
  | server :: rest => do
    onPool (addObject config server)
    addServers config rest

def removeServers : List K → FactoryM N K PUnit
  | [] => pure ()
  | server :: rest => do
    onPool (clear server)
    removeServers rest

def installServers (config : Configuration) (newServers topoServers : List K) :
    FactoryM N K PUnit := do
  let addedServers := setDifference newServers topoServers
  let failedServers := setDifference topoServers newServers
  if failedServers = [] ∧ newServers = [] then pure ()
  else
    addServers config addedServers
    modify fun s => { s with balancer := s.balancer.setServers newServers }
    removeServers failedServers
    modify fun s => { s with initialServers := newServers }

/-- `makes` is what the pool's factory answers meanwhile. -/
def updateServers (config : Configuration) (makes : List (Option Exn)) (newServers : List K) :
    FactoryM N K PUnit := fun s =>
  let before := s.initialServers
  match installServers config (sort newServers) (sort before)
      { s with connectionPool := { s.connectionPool with makes } } with
  | .ok _ t => .ok () { t with updates := t.updates ++ [⟨before, newServers, true⟩] }
  | .error e t => .error e { t with updates := t.updates ++ [⟨before, newServers, false⟩] }

def getTopologyId (cacheName : N) : FactoryM N K Int := fun s =>
  let (id, topologyInfo) := s.topologyInfo.getTopologyId cacheName
  .ok id { s with topologyInfo }

-- An owner is `none` where the server names an address it has not listed.
def updateHashFunction (segmentOwners : List (List (Option K))) (numSegment : UInt32)
    (hashFunctionVersion : UInt8) (cacheName : N) (topologyId : Int) : FactoryM N K PUnit :=
  modify fun s =>
    let topologyInfo := s.topologyInfo.updateTopology segmentOwners numSegment hashFunctionVersion
      cacheName topologyId
    { s with topologyInfo }

def createAndPreparePool (config : Configuration) (makes : List (Option Exn)) :
    FactoryM N K PUnit := do
  -- the pool that is replaced destroys what it holds; the new one keeps a record of its own
  modify fun s => { s with connectionPool := { makes } }
  addServers config (← get).initialServers

/-- What the ping of one server meets: the answers of the pool's factory to the
borrow, the topology that comes with the answer, the exception of the ping, and
the test of the returned connection. -/
structure Ping (K : Type) where
  first : Turn := ([], [])
  turns : List Turn := []
  view : Option (List K × List (Option Exn)) := none
  raises : Option Exn := none
  verdict : Except Exn Bool := .ok true

/-- The topology that an answer may bring. -/
def takeView (config : Configuration) : Option (List K × List (Option Exn)) → FactoryM N K PUnit
  | some (newServers, makes) => updateServers config makes newServers
  | none => pure ()

def raising : Option Exn → FactoryM N K PUnit
  | some e => throw (.raised e)
  | none => pure ()

def ping (config : Configuration) (answer : Ping K) : FactoryM N K PUnit := do
  takeView config answer.view
  raising answer.raises

-- One turn of `pingServers`; false if the borrow blocks for ever.
def pingServer (config : Configuration) (server : K) (answer : Ping K) : FactoryM N K Bool := do
  match ← catching (some <$> onPool (borrowAlone config server answer.first answer.turns)) none with
  | none => pure true
  | some none => pure false
  | some (some obj) => do
    catching (ping config answer) ()
    -- not inside the `try`
    onPool (returnObject config server obj answer.verdict)
    pure true

def pingServers (config : Configuration) : List K → List (Ping K) → FactoryM N K Bool
  | [], _ => pure true
  | server :: rest, pings => do
    if ← pingServer config server (pings.headD {}) then pingServers config rest pings.tail
    else pure false

def switchTo (config : Configuration) (servers : List K) (makes : List (Option Exn))
    (pings : List (Ping K)) : FactoryM N K Bool := do
  modify fun s => { s with
    topologyAge := 0
    initialServers := servers
    failedServers := []
    balancer := {} }
  createAndPreparePool config makes
  modify fun s => { s with balancer := s.balancer.setServers s.initialServers }
  pingServers config (← get).initialServers pings

end HotRod.Topology
