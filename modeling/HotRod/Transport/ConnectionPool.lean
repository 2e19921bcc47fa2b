import HotRod.Data.SortedMap
import HotRod.Exceptions
import HotRod.Semantics.Execution

/-! `ConnectionPool`, one locked section at a time.

`borrowObject` lets go of the lock while it waits for an idle connection, so a
call of it is a first section, then a pop, the decrement of `totalIdle`, which reads
the counter and writes it, and a section that goes on with the loop. Between sections
a borrower is listed with what it holds. `notifyAll` wakes waiters that find their
queue empty and wait again; it changes no state and is left out. -/

set_option autoImplicit false

namespace HotRod.Transport

open Semantics.Execution

-- Connections are numbered in the order the factory makes them.
abbrev Conn := Nat

abbrev Thread := Nat

inductive ExhaustedAction where
  | EXCEPTION
  | WAIT
  | CREATE_NEW
  deriving DecidableEq, Repr

structure Configuration where
  exhaustedAction : ExhaustedAction := .WAIT
  maxActive : Int := 8
  maxTotal : Int := -1
  minIdle : Int := 0
  testOnBorrow : Bool := false
  testOnReturn : Bool := false
  deriving DecidableEq, Repr

/-- The queue object an idle entry points to. A queue that `clear` has taken off
the map is empty for good; a borrower that still refers to it is told from the
borrowers of its successor by the generation. -/
structure IdleQueue where
  generation : Nat
  items : List Conn
  deriving DecidableEq, Repr

/-- A `borrowObject` call that has let go of the lock. -/
inductive Borrower (K : Type) where
  | waiting (key : K) (generation : Nat)
  | popped (key : K) (generation : Nat) (obj : Conn)
  /-- `read` is the value of `totalIdle` it is going to decrement. -/
  | loaded (key : K) (generation : Nat) (obj : Conn) (read : Int)
  | counted (key : K) (generation : Nat) (obj : Conn)
  deriving DecidableEq, Repr

/-- The pool with its factory: the connections made and destroyed, and what
`makeObject` is going to do (`none` for a connection, also when the list has
run out). -/
structure ConnectionPool (K : Type) [LinearOrder K] where
  idle : SortedMap K (Option IdleQueue) := SortedMap.empty
  busy : SortedMap K (List Conn) := SortedMap.empty
  allocationQueue : List K := []
  closed : Bool := false
  totalIdle : Int := 0
  totalActive : Int := 0
  generations : Nat := 0
  made : Nat := 0
  destroyed : List Conn := []
  makes : List (Option Exn) := []

variable {K : Type} [LinearOrder K]

abbrev PoolM (K : Type) [LinearOrder K] := EStateM Fault (ConnectionPool K)

namespace ConnectionPool

def queueItems (s : ConnectionPool K) (key : K) (generation : Nat) : List Conn :=
  match s.idle.get? key with
  | some (some q) => if q.generation = generation then q.items else []
  | _ => []

def busyItems (s : ConnectionPool K) (key : K) : List Conn := (s.busy.get? key).getD []

def hasReachedMaxTotal (config : Configuration) (s : ConnectionPool K) : Bool :=
  config.maxTotal > 0 && config.maxTotal ≤ s.totalActive + s.totalIdle

end ConnectionPool

open ConnectionPool

def makeObject : PoolM K Conn := do
  let s ← get
  modify fun s => { s with makes := s.makes.tail }
  match s.makes.head?.join with
  | some e => throw (.raised e)
  | none => do
    modify fun s => { s with made := s.made + 1 }
    pure s.made

def destroyObject (obj : Conn) : PoolM K PUnit :=
  modify fun s => { s with destroyed := s.destroyed ++ [obj] }

-- `idle[key]->push(obj)`; the subscript of a missing key inserts a null pointer.
def pushIdle (key : K) (obj : Conn) : PoolM K PUnit := do
  match (← get).idle.get? key with
  | some (some q) =>
    modify fun s => { s with idle := s.idle.insert key (some { q with items := q.items ++ [obj] }) }
  | _ => do
    modify fun s => { s with idle := s.idle.insert key none }
    throw .nullDereference

def calculateMinIdleGrow (config : Configuration) (s : ConnectionPool K) (key : K) : Int :=
  let size := match s.idle.get? key with
    | some (some q) => q.items.length
    | _ => 0
  let grown := config.minIdle - size
  if config.maxTotal > 0 then min grown (max 0 (config.maxTotal - s.totalIdle - s.totalActive))
    else grown

-- `idle[key]->push(&factory->makeObject(key))` and the increment of `totalIdle`.
def makeIdle (key : K) : PoolM K PUnit := do
  let obj ← makeObject
  pushIdle key obj
  modify fun s => { s with totalIdle := s.totalIdle + 1 }

def growIdle (key : K) : Nat → PoolM K PUnit
  | 0 => pure ()
  | grown + 1 => do
    makeIdle key
    growIdle key grown

def ensureMinIdle (config : Configuration) (key : K) : PoolM K PUnit := do
  growIdle key (calculateMinIdleGrow config (← get) key).toNat

-- The two queues of a new key; an existing busy queue stays.
def openQueues (key : K) (s : ConnectionPool K) : ConnectionPool K :=
  { s with
    idle := s.idle.insert key (some ⟨s.generations, []⟩)
    generations := s.generations + 1
    busy := if key ∈ s.busy then s.busy else s.busy.insert key [] }

def addObject (config : Configuration) (key : K) : PoolM K PUnit := do
  if key ∈ (← get).idle then pure ()
  else
    modify (openQueues key)
    ensureMinIdle config key

-- The scan of `tryRemoveIdle`: the first queue above `minIdle`, else the first of the longest.
def keyToRemove (config : Configuration) (best : Option K) (longer : Nat) :
    List (K × Option IdleQueue) → Except Fault (Option K)
  | [] => .ok best
  | (_, none) :: _ => .error .nullDereference
  | (key, some q) :: rest =>
    -- the scan stops here, also before a longer queue
    if config.minIdle > 0 ∧ (q.items.length : Int) > config.minIdle then .ok (some key)
    else if q.items.length > longer then keyToRemove config (some key) q.items.length rest
    else keyToRemove config best longer rest

-- `idleQ->poll(obj)` on the queue of the key.
def pollIdle (key : K) : PoolM K (Option Conn) := do
  match (← get).idle.get? key with
  | some (some { generation, items := obj :: rest }) => do
    modify fun s => { s with idle := s.idle.insert key (some ⟨generation, rest⟩) }
    pure (some obj)
  | _ => pure none

def removeFrom (key : K) : PoolM K Bool := do
  match ← pollIdle key with
  | some obj => do
    destroyObject obj
    modify fun s => { s with totalIdle := s.totalIdle - 1 }
    pure true
  -- the chosen queue has an item, and no other section runs
  | none => pure false

def tryRemoveIdle (config : Configuration) : PoolM K Bool := do
  match keyToRemove config none 0 (← get).idle.entries with
  | .error fault => throw fault
  | .ok none => pure false
  | .ok (some key) => removeFrom key

def tryRemoveIdleOrAskAllocate (config : Configuration) (key : K) : PoolM K Bool := do
  if !(← tryRemoveIdle config) then
    modify fun s => { s with allocationQueue := s.allocationQueue ++ [key] }
    pure false
  else pure true

def canCreate (config : Configuration) (key : K) (generation : Nat) : PoolM K Bool := do
  let s ← get
  if s.queueItems key generation = [] ∧
      (config.maxActive < 0 ∨ (s.busyItems key).length < config.maxActive.toNat) then
    if !s.hasReachedMaxTotal config then pure true else tryRemoveIdleOrAskAllocate config key
  else pure false

/-- The body of the borrow loop under the lock: a new connection, or none to be had. -/
def createObject (config : Configuration) (key : K) (generation : Nat) : PoolM K (Option Conn) := do
  if ← canCreate config key generation then
    let obj ← makeObject
    pure (some obj)
  else pure none

inductive Borrowed where
  | object (obj : Conn)
  | wait (generation : Nat)
  deriving DecidableEq, Repr

def register (key : K) (obj : Conn) : PoolM K Borrowed := do
  modify fun s => { s with
    busy := s.busy.insert key (s.busyItems key ++ [obj])
    totalActive := s.totalActive + 1 }
  pure (.object obj)

/-- The borrow loop from its test on, with a connection in hand. `validates` is
what `validateObject` is going to return; it accepts once the list has run out. -/
def testLoop (config : Configuration) (key : K) (generation : Nat) :
    List (Except Exn Bool) → Conn → PoolM K Borrowed
  | [], obj => register key obj
  | verdict :: validates, obj =>
    if config.testOnBorrow then
      match verdict with
      | .error e => throw (.raised e)
      | .ok true => register key obj
      | .ok false => do
        destroyObject obj
        match ← createObject config key generation with
        | some obj => testLoop config key generation validates obj
        | none => pure (.wait generation)
    else register key obj

def borrowFrom (config : Configuration) (key : K) (generation : Nat)
    (validates : List (Except Exn Bool)) :
    PoolM K Borrowed := do
  match ← pollIdle key with
  | some obj => do
    modify fun s => { s with totalIdle := s.totalIdle - 1 }
    testLoop config key generation validates obj
  | none =>
    match ← createObject config key generation with
    | some obj => testLoop config key generation validates obj
    | none => pure (.wait generation)

/-- `borrowObject` up to the moment it has a connection or lets go of the lock. -/
def borrowObject (config : Configuration) (key : K) (validates : List (Except Exn Bool)) :
    PoolM K Borrowed := do
  let s ← get
  if s.closed then throw (.raised (.hotRodClient "Pool is closed"))
  else if key ∉ s.idle ∨ key ∉ s.busy then
    throw (.raised (.hotRodClient "Pool has no idle or no busy transports."))
  else
    match s.idle.get? key with
    | some (some q) => borrowFrom config key q.generation validates
    | _ => throw .nullDereference

/-- A released slot serves the first pending allocation; the value tells whether it did. -/
def allocatePending (maxTotalReached : Bool) : PoolM K Bool := do
  match maxTotalReached, (← get).allocationQueue with
  | true, keyToAllocate :: rest => do
    modify fun s => { s with allocationQueue := rest }
    makeIdle keyToAllocate
    pure true
  | _, _ => pure false

-- `busyQ->remove(obj)` and the decrement of `totalActive`.
def unregister (key : K) (obj : Conn) : PoolM K PUnit :=
  modify fun s => { s with
    busy := s.busy.insert key ((s.busyItems key).filter (· ≠ obj))
    totalActive := s.totalActive - 1 }

-- The look at the idle queue when the busy queue has become empty.
def checkDrained (key : K) : PoolM K PUnit := do
  let s ← get
  if s.busyItems key = [] then
    match s.idle.get? key with
    | none => throw (.raised (.hotRodClient "No idle queue for address!"))
    | some none => throw .nullDereference
    | some (some _) => pure ()
  else pure ()

def invalidateObject (config : Configuration) (key : K) (val : Option Conn) : PoolM K PUnit := do
  let s ← get
  match val with
  | none => pure ()
  | some obj =>
    if key ∉ s.busy then throw (.raised (.hotRodClient "No busy queue for address!"))
    else
      unregister key obj
      -- what is raised from here on leaves the connection to nobody
      checkDrained key
      let _ ← allocatePending (s.hasReachedMaxTotal config)
      destroyObject obj

-- `verdict` is what `validateObject` does if it is called.
def validateReturned (config : Configuration) (verdict : Except Exn Bool) : PoolM K Bool := do
  if (← get).closed then pure false
  else if config.testOnReturn then
    match verdict with
    | .error e => throw (.raised e)
    | .ok valid => pure valid
  else pure true

/-- After an allocation was served, `returnObject` looks at `idle[key]` to wake
its waiters; a missing or null queue is dereferenced. -/
def probeIdle (key : K) (served : Bool) : PoolM K PUnit := do
  if served then
    match (← get).idle.get? key with
    | some (some _) => pure ()
    | _ => do
      modify fun s => { s with idle := s.idle.insert key none }
      throw .nullDereference
  else pure ()

/-- The end of `returnObject`: the idle queue takes the connection or it is destroyed. -/
def offerOrDestroy (key : K) (obj : Conn) (ok : Bool) : PoolM K PUnit := do
  if ok = true ∧ key ∈ (← get).idle then
    pushIdle key obj
    modify fun s => { s with totalIdle := s.totalIdle + 1 }
  else destroyObject obj

def returnObject (config : Configuration) (key : K) (obj : Conn) (verdict : Except Exn Bool) :
    PoolM K PUnit := do
  let s ← get
  if key ∈ s.busy then unregister key obj
  let valid ← validateReturned config verdict
  -- the total is the one before the connection left the busy queue
  let served ← allocatePending (s.hasReachedMaxTotal config)
  probeIdle key served
  offerOrDestroy key obj (valid && !served)

-- `clear(key)`; the subscript of a missing key inserts a null pointer.
def clear (key : K) : PoolM K PUnit := do
  match (← get).idle.get? key with
  | some (some q) =>
    modify fun s => { s with
      totalIdle := s.totalIdle - q.items.length
      destroyed := s.destroyed ++ q.items
      idle := s.idle.erase key }
  | _ => modify fun s => { s with idle := s.idle.insert key none }

-- `clear()`: all connections go, also those that are borrowed.
def ConnectionPool.clearAll (s : ConnectionPool K) : ConnectionPool K :=
  { s with
    idle := SortedMap.empty
    busy := SortedMap.empty
    totalIdle := 0
    totalActive := 0
    destroyed := s.destroyed ++ s.idle.entries.flatMap (fun e => e.2.elim [] IdleQueue.items) ++
      s.busy.entries.flatMap Prod.snd }

def ConnectionPool.close (s : ConnectionPool K) : ConnectionPool K :=
  { s.clearAll with closed := true }

/-- The pool and the threads that are inside `borrowObject` without the lock. -/
structure System (K : Type) [LinearOrder K] where
  pool : ConnectionPool K := {}
  borrowers : SortedMap Thread (Borrower K) := SortedMap.empty

/-- A step of the pool under any number of threads. A caller hands back what a
busy queue lists for it, under the key of that queue. Each section comes with
the answers of the factory during it. -/
inductive Action (K : Type) where
  | add (key : K) (makes : List (Option Exn))
  | borrow (thread : Thread) (key : K) (makes : List (Option Exn))
    (validates : List (Except Exn Bool))
  | pop (thread : Thread)
  | load (thread : Thread)
  /-- `lost`: a section that had read `totalIdle` before writes it after this. -/
  | store (thread : Thread) (lost : Bool)
  | resume (thread : Thread) (makes : List (Option Exn)) (validates : List (Except Exn Bool))
  | giveBack (key : K) (obj : Conn) (makes : List (Option Exn)) (verdict : Except Exn Bool)
  | invalidate (key : K) (obj : Conn) (makes : List (Option Exn))
  | clear (key : K)

-- The borrower after a section: gone with its connection or its exception, or waiting.
def settle (borrowers : SortedMap Thread (Borrower K)) (thread : Thread) (key : K) :
    EStateM.Result Fault (ConnectionPool K) Borrowed → System K
  | .ok (.object _) pool => { pool, borrowers := borrowers.erase thread }
  | .ok (.wait generation) pool =>
    { pool, borrowers := borrowers.insert thread (.waiting key generation) }
  | .error _ pool => { pool, borrowers := borrowers.erase thread }

-- `idleQ->pop()` or `popOrThrow()`, outside the lock.
def popIdle (config : Configuration) (s : System K) (thread : Thread) (key : K) (generation : Nat) :
    Option (System K) :=
  match s.pool.queueItems key generation with
  | obj :: rest => some {
      pool := { s.pool with idle := s.pool.idle.insert key (some ⟨generation, rest⟩) }
      borrowers := s.borrowers.insert thread (.popped key generation obj) }
  | [] =>
    if config.exhaustedAction = .EXCEPTION then some
      { s with borrowers := s.borrowers.erase thread } else none

def step (config : Configuration) (s : System K) : Action K → Option (System K)
  | .add key makes => some { s with pool := final (addObject config key { s.pool with makes }) }
  | .borrow thread key makes validates =>
    if thread ∈ s.borrowers then none
    else some (settle s.borrowers thread key (borrowObject config key validates
      { s.pool with makes }))
  | .pop thread =>
    match s.borrowers.get? thread with
    | some (.waiting key generation) => popIdle config s thread key generation
    | _ => none
  -- `totalIdle--`, not under the lock, and not with the pop
  | .load thread =>
    match s.borrowers.get? thread with
    | some (.popped key generation obj) => some { s with
        borrowers := s.borrowers.insert thread
          (.loaded key generation obj s.pool.totalIdle) }
    | _ => none
  | .store thread lost =>
    match s.borrowers.get? thread with
    | some (.loaded key generation obj read) => some {
        pool := { s.pool with totalIdle := if lost then s.pool.totalIdle else read - 1 }
        borrowers := s.borrowers.insert thread (.counted key generation obj) }
    | _ => none
  | .resume thread makes validates =>
    match s.borrowers.get? thread with
    | some (.counted key generation obj) =>
      some (settle s.borrowers thread key (testLoop config key generation validates obj
        { s.pool with makes }))
    | _ => none
  | .giveBack key obj makes verdict =>
    if obj ∈ s.pool.busyItems key then
      some { s with pool := final (returnObject config key obj verdict { s.pool with makes }) }
    else none
  | .invalidate key obj makes =>
    if obj ∈ s.pool.busyItems key then
      some { s with pool := final (invalidateObject config key (some obj) { s.pool with makes }) }
    else none
  | .clear key => some { s with pool := final (Transport.clear key s.pool) }

end HotRod.Transport
