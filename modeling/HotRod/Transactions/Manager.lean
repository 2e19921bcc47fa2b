import HotRod.Semantics.Execution
import HotRod.Semantics.Rounds
import HotRod.Transactions.Context

/-! `TransactionManager`: `begin`, `commit` and `rollback` of the calling
thread, with the three loops of remote calls behind them.

Each remote call takes its answer from `Servers`: a status code, or what goes wrong
before or after the request was sent. The log records what was sent, and is read by
no code. -/

set_option autoImplicit false

namespace HotRod.Transactions

open Semantics.Execution Semantics.Rounds

structure XID where
  globalTransactionId : Bytes
  branchQualifier : Bytes
  deriving DecidableEq, Repr

namespace TransactionRemoteStatus

def XA_OK : UInt32 := 0x00
def XA_RDONLY : UInt32 := 0x03
def XA_HEURCOM : UInt32 := 0x07
def XAER_NOTA : UInt32 := 0xFFFFFFFC
def XA_HEURMIX : UInt32 := 0x05
def XA_HEURHAZ : UInt32 := 0x08
def XA_HEURRB : UInt32 := 0x06
def XA_RBROLLBACK : UInt32 := 0x64

end TransactionRemoteStatus

open TransactionRemoteStatus

inductive Phase where
  | prepare
  | commit
  | rollback
  deriving DecidableEq, Repr

structure Exchange (C : Type) where
  phase : Phase
  xid : XID
  cache : C
  reply : Option UInt32
  deriving DecidableEq, Repr

/-- How every cache answers in every phase of one call. -/
abbrev Servers (C : Type) := Phase → C → Answer Fault UInt32

/-- The process the manager runs in: what lies behind its literals, and whether the
deleters that `TransactionContext::clear` runs find objects of their own. -/
structure Process (X : Type) where
  image : Image
  clears : X → Bool

/-- `Transaction` with its `SynchronizationAdapter`; `C` are the cache handles and
`X` their contexts. A prepared cache points to its registered context. -/
structure Transaction (C X : Type) [LinearOrder C] where
  status : TransactionStatus := .NO_TRANSACTION
  xid : XID
  registeredCache : SortedMap C X := SortedMap.empty
  preparedCache : SortedMap C Unit := SortedMap.empty

/-- The calling thread's slot of `currentTransactions`, and the requests sent so far. -/
structure Session (C X : Type) [LinearOrder C] where
  current : Option (Transaction C X) := none
  log : List (Exchange C) := []

variable {C X : Type} [LinearOrder C]

abbrev ManagerM (C X : Type) [LinearOrder C] := EStateM Fault (Session C X)

-- `fresh` is the identifier the constructor of a new transaction draws.
def getCurrentTransaction (fresh : XID) : ManagerM C X (Transaction C X) := do
  match (← get).current with
  | some t => pure t
  | none => do
    modify fun s => { s with current := some { xid := fresh } }
    pure { xid := fresh }

def updateTransaction (f : Transaction C X → Transaction C X) : ManagerM C X PUnit :=
  modify fun s => { s with current := s.current.map f }

def setStatus (status : TransactionStatus) : ManagerM C X PUnit :=
  updateTransaction fun t => { t with status }

/-- Every context of the transaction can be cleared. -/
def Transaction.clears (process : Process X) (t : Transaction C X) : Bool :=
  t.registeredCache.entries.all fun e => process.clears e.2

def clearAdapter (process : Process X) : ManagerM C X PUnit := do
  if (← get).current.all (Transaction.clears process) then
    updateTransaction fun t =>
      { t with registeredCache := SortedMap.empty, preparedCache := SortedMap.empty }
  else throw .foreignDelete

def cleanUpCurrentTransaction (process : Process X) : ManagerM C X PUnit := do
  if (← get).current.isSome then
    clearAdapter process
    modify fun s => { s with current := none }

/-- The context behind the reference of `SynchronizationAdapter::getTransactionContext`,
as a call on the cache leaves it. -/
def useCache (cache : C) (context : X) : ManagerM C X PUnit :=
  updateTransaction fun t => { t with registeredCache := t.registeredCache.insert cache context }

def beginTransaction (fresh : XID) : ManagerM C X PUnit := do
  let t ← getCurrentTransaction fresh
  if t.status.canBegin then setStatus .ACTIVE
  else throw (.raised (.txState t.status.statusToString "begin()"))

def send (phase : Phase) (xid : XID) (cache : C) (reply : Option UInt32) : ManagerM C X PUnit :=
  modify fun s => { s with log := s.log ++ [{ phase, xid, cache, reply }] }

def call (servers : Servers C) (phase : Phase) (xid : XID) (cache : C) : ManagerM C X UInt32 :=
  match servers phase cache with
  | .replied code => do
    send phase xid cache (some code)
    pure code
  | .failed delivered e => do
    if delivered then send phase xid cache none
    throw e

def basePrepareCommit (servers : Servers C) (xid : XID) (cache : C) : ManagerM C X UInt32 :=
  call servers .prepare xid cache

def baseCommit (servers : Servers C) (xid : XID) (cache : C) : ManagerM C X UInt32 :=
  call servers .commit xid cache

-- `RollbackOperation` reads the code of the response and returns 0.
def baseRollback (servers : Servers C) (xid : XID) (cache : C) : ManagerM C X UInt32 := do
  let _ ← call servers .rollback xid cache
  pure 0

def setPrepared (cache : C) : ManagerM C X PUnit :=
  updateTransaction fun t => { t with preparedCache := t.preparedCache.insert cache () }

-- The loop of `remotePrepareCommit`; returns `readOnly`.
def prepareLoop (process : Process X) (servers : Servers C) (xid : XID) (readOnly : Bool) :
    List C → ManagerM C X Bool
  | [] => pure readOnly
  | cache :: rest => do
    let ret ← basePrepareCommit servers xid cache
    if ret = XA_OK then
      setPrepared cache
      prepareLoop process servers xid false rest
    else if ret = XA_RDONLY then prepareLoop process servers xid readOnly rest
    else
      -- a cache that refuses is listed as prepared, so the rollback reaches it
      setPrepared cache
      throw (txRemoteStateException process.image ret)

def remotePrepareCommit (process : Process X) (servers : Servers C) (t : Transaction C X) :
    ManagerM C X UInt32 := do
  let readOnly ← prepareLoop process servers t.xid true t.registeredCache.keys
  pure (if readOnly then XA_RDONLY else XA_OK)

structure Tally where
  hasCommit : Bool := false
  hasRollback : Bool := false
  alreadyForgot : Bool := false
  unknown : Bool := false
  unknownErrorCode : UInt32 := 0
  deriving DecidableEq, Repr

-- The `switch` of `remoteCommit`.
def Tally.countCommit (tally : Tally) (ret : UInt32) : Tally :=
  if ret = XA_OK ∨ ret = XA_RDONLY ∨ ret = XA_HEURCOM then { tally with hasCommit := true }
  else if ret = XAER_NOTA then { tally with alreadyForgot := true }
  else if ret = XA_HEURMIX ∨ ret = XA_HEURHAZ then
    { tally with hasCommit := true, hasRollback := true }
  else if ret = XA_HEURRB then { tally with hasRollback := true }
  else { tally with unknown := true, unknownErrorCode := ret }

-- The `switch` of `remoteRollback`.
def Tally.countRollback (tally : Tally) (ret : UInt32) : Tally :=
  if ret = XA_OK ∨ ret = XA_RDONLY ∨ ret = XA_HEURRB then { tally with hasRollback := true }
  else if ret = XAER_NOTA then { tally with alreadyForgot := true }
  else if ret = XA_HEURMIX ∨ ret = XA_HEURHAZ then
    { tally with hasCommit := true, hasRollback := true }
  else if ret = XA_HEURCOM then { tally with hasCommit := true }
  else { tally with unknown := true, unknownErrorCode := ret }

/-- The code `remoteCommit` raises at its end; `none` for commits only. -/
def Tally.commitVerdict (tally : Tally) : Option UInt32 :=
  if !tally.hasCommit && !tally.hasRollback then
    if tally.alreadyForgot then some XAER_NOTA
    else if tally.unknown then some tally.unknownErrorCode
    else none
  else if tally.hasCommit && tally.hasRollback then some XA_HEURMIX
  else if tally.hasRollback then some XA_HEURRB
  else none

/-- The code `remoteRollback` raises at its end; `none` for rollbacks only. -/
def Tally.rollbackVerdict (tally : Tally) : Option UInt32 :=
  if !tally.hasCommit && !tally.hasRollback then
    if tally.alreadyForgot then some XAER_NOTA
    else if tally.unknown then some tally.unknownErrorCode
    else none
  else if tally.hasCommit && tally.hasRollback then some XA_HEURMIX
  else if tally.hasCommit then some XA_HEURCOM
  else none

-- One loop over the caches that calls each and counts its code.
def decisionLoop (request : C → ManagerM C X UInt32) (count : Tally → UInt32 → Tally)
    (tally : Tally) : List C → ManagerM C X Tally
  | [] => pure tally
  | cache :: rest => do
    let ret ← request cache
    decisionLoop request count (count tally ret) rest

def raiseVerdict (process : Process X) : Option UInt32 → ManagerM C X PUnit
  | none => pure ()
  | some code => throw (txRemoteStateException process.image code)

def remoteCommit (process : Process X) (servers : Servers C) (t : Transaction C X) :
    ManagerM C X PUnit := do
  -- over `registeredCache`, whatever the caches have voted
  let tally ← decisionLoop (baseCommit servers t.xid) Tally.countCommit {} t.registeredCache.keys
  raiseVerdict process tally.commitVerdict

-- `preparedCache` is read when the loop starts, after the PREPARE phase has filled it.
def remoteRollback (process : Process X) (servers : Servers C) (xid : XID) :
    ManagerM C X PUnit := do
  let prepared := ((← get).current.map fun t => t.preparedCache.keys).getD []
  let tally ← decisionLoop (baseRollback servers xid) Tally.countRollback {} prepared
  raiseVerdict process tally.rollbackVerdict

-- Both `catch` clauses of `commit`; the value is `exCode`.
def handleCommitFailure (process : Process X) (servers : Servers C) (xid : XID) (fault : Fault) :
    ManagerM C X UInt32 :=
  match fault with
  | .raised (.txRemoteState status) => do
    remoteRollback process servers xid
    setStatus .ROLLEDBACK
    pure status
  | fault =>
    if fault.isHotRodClient then do
      remoteRollback process servers xid
      setStatus .ROLLEDBACK
      pure XA_RBROLLBACK
    else throw fault

-- The `try` block of `commit`.
def attemptCommit (process : Process X) (servers : Servers C) (t : Transaction C X) :
    ManagerM C X UInt32 := do
  let ret ← remotePrepareCommit process servers t
  -- XA_RDONLY skips the second phase; no other code is returned
  if ret = XA_OK then remoteCommit process servers t
  setStatus .COMMITTED
  pure XA_RBROLLBACK

-- What follows the two branches of `commit`.
def finishCommit (process : Process X) (exCode : UInt32) : ManagerM C X PUnit := do
  -- read before the clean-up destroys the transaction
  let txStatus := (← get).current.map Transaction.status
  clearAdapter process
  cleanUpCurrentTransaction process
  if txStatus = some .ROLLEDBACK then throw (.raised (.rollback exCode))

def commit (process : Process X) (servers : Servers C) (fresh : XID) : ManagerM C X PUnit := do
  let t ← getCurrentTransaction fresh
  if t.status.canCommit then
    let exCode ←
      -- canCommit already excludes MARKED_ROLLBACK, so the first branch is never taken
      if t.status.needsRollback then do
        remoteRollback process servers t.xid
        setStatus .ROLLEDBACK
        pure XA_RBROLLBACK
      else tryCatch (attemptCommit process servers t) (handleCommitFailure process servers t.xid)
    finishCommit process exCode
  else throw (.raised (.txState t.status.statusToString "commit()"))

def rollback (process : Process X) (servers : Servers C) (fresh : XID) : ManagerM C X PUnit := do
  let t ← getCurrentTransaction fresh
  if t.status.canRollback then
    -- no handler here: what the round raises leaves the transaction active
    remoteRollback process servers t.xid
    setStatus .ROLLEDBACK
    cleanUpCurrentTransaction process
  else throw (.raised (.txState t.status.statusToString "rollback()"))

end HotRod.Transactions
