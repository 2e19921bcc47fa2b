import HotRod.Semantics.Execution
import HotRod.Transactions.Context

/-! The transactional half of `RemoteCacheBase`: reads and writes that go
through the context of the current transaction.

A call is given the pointer that is going to be stored: `put` one to the copy that
`valueCopyConstructor` has made, `replace` the pointer of its caller. -/

set_option autoImplicit false

namespace HotRod.Transactions

open Semantics.Execution TransactionContext

variable {K V : Type} [LinearOrder K]

-- What `getWithMetadata` finds on the servers, for every key.
abbrev Remote (K V : Type) := K → Option (V × MetadataValue)

structure Handle (V : Type) where
  forceReturnValue : Bool
  valueMarshaller : V → Except Exn Bytes
  valueDestructor : V → Bool

abbrev CacheM (K V : Type) [LinearOrder K] := EStateM Fault (TransactionContext K V)

/-- A mutator of the context that may run a deleter. -/
def mutate (mutator : TransactionContext K V → Except Fault (TransactionContext K V)) :
    CacheM K V PUnit := fun tc =>
  match mutator tc with
  | .ok tc' => .ok () tc'
  | .error fault => .error fault tc

-- `int64_t` to `int32_t`, the type of `MetadataValue::lifespan`.
def narrow (seconds : Int) : Int := seconds.bmod (2 ^ 32)

def transactionalBaseGet (cache : Handle V) (status : TransactionStatus) (remote : Remote K V)
    (key : K) : CacheM K V (Option V) := do
  if !status.acceptRead then throw (.raised (.txState status.statusToString "get"))
  let tc ← get
  let value ←
    -- only a key without an entry is looked up on the servers
    if !hasValue tc key then do
      let value := (remote key).map Prod.fst
      let metadata := ((remote key).map Prod.snd).getD {}
      modify fun tc => addValue tc key value metadata (some cache.valueDestructor)
        (some cache.valueMarshaller)
        (if value.isSome then ControlBit.NONE else ControlBit.NON_EXISTING)
      pure value
    else do
      modify fun tc => (getValue tc key).2
      pure (getValue tc key).1
  pure value

def transactionalBasePut (cache : Handle V) (status : TransactionStatus) (remote : Remote K V)
    (key : K) (val : V) (life idle : Int) (forceRV : Bool) : CacheM K V (Option V) := do
  if !status.acceptRW then throw (.raised (.txState status.statusToString "put"))
  let retVal ← if forceRV then transactionalBaseGet cache status remote key else pure none
  let metadata : MetadataValue := { lifespan := narrow life, maxIdle := narrow idle }
  -- with forceRV the read has made an entry, and the second branch is not taken
  mutate fun tc =>
    if hasValue tc key then
      setValue tc key (some val) metadata (some cache.valueDestructor) (some cache.valueMarshaller)
    else .ok (addValue tc key (some val) metadata (some cache.valueDestructor)
      (some cache.valueMarshaller) ControlBit.NOT_READ)
  pure retVal

-- `base_putIfAbsent` returns null whether or not it stored the value.
def basePutIfAbsent (cache : Handle V) (status : TransactionStatus) (remote : Remote K V) (key : K)
    (val : V) (life idle : Int) : CacheM K V (Option V) := do
  let retVal ← transactionalBaseGet cache status remote key
  if retVal.isNone then
    let _ ← transactionalBasePut cache status remote key val life idle false
  pure none

def baseReplace (cache : Handle V) (status : TransactionStatus) (remote : Remote K V) (key : K)
    (val : V) (life idle : Int) : CacheM K V (Option V) := do
  if !status.acceptRW then throw (.raised (.txState status.statusToString "replace"))
  let retVal ← transactionalBaseGet cache status remote key
  if retVal.isSome then
    -- no copy is made: the context now holds the caller's pointer, and a deleter for it
    mutate fun tc => setValue tc key (some val) { lifespan := narrow life, maxIdle := narrow idle }
      (some cache.valueDestructor) (some cache.valueMarshaller)
    if cache.forceReturnValue then pure retVal else pure none
  else pure none

def baseRemove (cache : Handle V) (status : TransactionStatus) (remote : Remote K V) (key : K) :
    CacheM K V (Option V) := do
  if !status.acceptRW then throw (.raised (.txState status.statusToString "remove"))
  let retVal ←
    if cache.forceReturnValue then transactionalBaseGet cache status remote key else pure none
  -- on a key that was never read the subscript makes the entry, without a marshaller
  mutate fun tc => setValueAsDeleted tc key
  pure retVal

inductive Op (K V : Type) where
  | get (key : K)
  | put (key : K) (val : V) (life idle : Int)
  | putIfAbsent (key : K) (val : V) (life idle : Int)
  | replace (key : K) (val : V) (life idle : Int)
  | remove (key : K)
  deriving Repr

def Op.key : Op K V → K
  | .get key | .put key .. | .putIfAbsent key .. | .replace key .. | .remove key => key

def Op.run (cache : Handle V) (status : TransactionStatus) (remote : Remote K V) :
    Op K V → CacheM K V (Option V)
  | .get key => transactionalBaseGet cache status remote key
  | .put key val life idle =>
    transactionalBasePut cache status remote key val life idle cache.forceReturnValue
  | .putIfAbsent key val life idle => basePutIfAbsent cache status remote key val life idle
  | .replace key val life idle => baseReplace cache status remote key val life idle
  | .remove key => baseRemove cache status remote key

/-- A transaction's calls in order, each with the remote content of its moment. -/
def runOps (cache : Handle V) (status : TransactionStatus) :
    List (Remote K V × Op K V) → CacheM K V (List (Option V))
  | [] => pure []
  | (remote, op) :: rest => do
    let result ← op.run cache status remote
    let results ← runOps cache status rest
    pure (result :: results)

end HotRod.Transactions
