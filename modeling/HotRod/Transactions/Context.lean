import HotRod.Data.SortedMap
import HotRod.Exceptions

/-! Transaction statuses and the transaction context of one cache, from
`Transactions.h`, with the context's mutators from `TransactionManager.cpp`.

`V` are the pointers a context may hold, with `none` for `nullptr`. A deleter is
modelled by what it can be run on: it says of a pointer whether the object behind it
is one to be deleted. Any other object ends the process. -/

set_option autoImplicit false

namespace HotRod.Transactions

abbrev Bytes := List UInt8

structure MetadataValue where
  version : Int := 0
  created : Int := -1
  lifespan : Int := -1
  lastUsed : Int := -1
  maxIdle : Int := -1
  deriving DecidableEq, Repr

inductive TransactionStatus where
  | ACTIVE | MARKED_ROLLBACK | PREPARED | COMMITTED | ROLLEDBACK
  | UNKNOWN | NO_TRANSACTION | PREPARING | COMMITTING | ROLLING_BACK
  deriving DecidableEq, Repr

namespace TransactionStatus

def statusToString : TransactionStatus → String
  | ACTIVE => "ACTIVE" | MARKED_ROLLBACK => "MARKED_ROLLBACK" | PREPARED => "PREPARED"
  | COMMITTED => "COMMITTED" | ROLLEDBACK => "ROLLEDBACK" | UNKNOWN => "UNKNOWN"
  | NO_TRANSACTION => "NO_TRANSACTION" | PREPARING => "PREPARING" | COMMITTING => "COMMITTING"
  | ROLLING_BACK => "ROLLING_BACK"

def canBegin (status : TransactionStatus) : Bool := status == NO_TRANSACTION || status == COMMITTED
def canCommit (status : TransactionStatus) : Bool := status == ACTIVE
def canRollback (status : TransactionStatus) : Bool := status == ACTIVE
def needsRollback (status : TransactionStatus) : Bool := status == MARKED_ROLLBACK
def acceptRW (status : TransactionStatus) : Bool := status == ACTIVE || status == MARKED_ROLLBACK
def acceptRead (status : TransactionStatus) : Bool := status != COMMITTED && status != ROLLEDBACK

end TransactionStatus

inductive Action where
  | set
  | deleted
  deriving DecidableEq, Repr

namespace ControlBit

def NONE : UInt8 := 0x00
def NOT_READ : UInt8 := 0x01
def NON_EXISTING : UInt8 := 0x02
def REMOVE_OP : UInt8 := 0x04

end ControlBit

structure ContextEntry (V : Type) where
  -- `ContextEntry`; an unset `std::function` is `none`.
  action : Action := .set
  value : Option V := none
  origMeta : MetadataValue := {}
  metadata : MetadataValue := {}
  changed : Bool := false
  deleter : Option (V → Bool) := none
  valueMarshaller : Option (V → Except Exn Bytes) := none
  controlByte : UInt8 := ControlBit.NONE

/-- `if (ce.value && ce.deleter) ce.deleter(ce.value)` finds an object to delete, or has
nothing to do. -/
def ContextEntry.deletable {V : Type} (ce : ContextEntry V) : Bool :=
  match ce.value, ce.deleter with
  | some value, some deleter => deleter value
  | _, _ => true

variable {K V : Type} [LinearOrder K]

/-- `std::map<const std::vector<char>, ContextEntry>`, keyed by marshalled keys. -/
abbrev TransactionContext (K V : Type) [LinearOrder K] := SortedMap K (ContextEntry V)

namespace TransactionContext

def hasValue (tc : TransactionContext K V) (key : K) : Bool := (tc.get? key).isSome

def entry (tc : TransactionContext K V) (key : K) : ContextEntry V := (tc.get? key).getD {}

def visible (ce : ContextEntry V) : Option V :=
  match ce.action with
  | .deleted => none
  | .set => ce.value

-- `getValue`: the subscript inserts a default entry for a missing key.
def getValue (tc : TransactionContext K V) (key : K) : Option V × TransactionContext K V :=
  (visible (entry tc key), tc.insert key (entry tc key))

def setValue (tc : TransactionContext K V) (key : K) (value : Option V) (metadata : MetadataValue)
    (deleter : Option (V → Bool)) (valueMarshaller : Option (V → Except Exn Bytes)) :
    Except Fault (TransactionContext K V) :=
  let ce := entry tc key
  if ce.deletable then
    -- each write counts from the original version, not from the last one
    .ok (tc.insert key { ce with
      action := .set
      metadata := { metadata with version := ce.origMeta.version + 1 }
      changed := true
      deleter := deleter
      valueMarshaller := valueMarshaller
      value := value })
  else .error .foreignDelete

-- `addValue`: a fresh entry, so `changed` is false even for a first write.
def addValue (tc : TransactionContext K V) (key : K) (value : Option V) (metadata : MetadataValue)
    (deleter : Option (V → Bool)) (valueMarshaller : Option (V → Except Exn Bytes)) (cb : UInt8) :
    TransactionContext K V :=
  tc.insert key {
    action := .set
    value := value
    origMeta := metadata
    metadata := metadata
    changed := false
    deleter := deleter
    valueMarshaller := valueMarshaller
    controlByte := ControlBit.NONE ||| cb }

-- `setValueAsDeleted` leaves the control byte and the marshaller as they are.
def setValueAsDeleted (tc : TransactionContext K V) (key : K) :
    Except Fault (TransactionContext K V) :=
  let ce := entry tc key
  if ce.deletable then
    .ok (tc.insert key { ce with
      action := .deleted
      metadata := { version := ce.origMeta.version + 1 }
      changed := true
      value := none
      deleter := none })
  else .error .foreignDelete

def clears (tc : TransactionContext K V) : Bool := tc.entries.all fun e => e.2.deletable

theorem entry_of_get? {tc : TransactionContext K V} {key : K} {ce : ContextEntry V}
    (found : tc.get? key = some ce) : entry tc key = ce := by
  rw [entry, found, Option.getD_some]

end TransactionContext
end HotRod.Transactions
