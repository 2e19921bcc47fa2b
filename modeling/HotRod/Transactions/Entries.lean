import HotRod.Transactions.Cache

/-! What one call does to a context: it rewrites the entry of its key and no other,
unless the deleter of the entry meets an object of the caller's.

`Op.run_eq` says so for every context, and is the only place that evaluates the code
of the calls; what follows about transactions works on entries. -/

set_option autoImplicit false

namespace HotRod.Transactions

open Semantics.Execution TransactionContext

variable {K V : Type}

/-! ### Entries -/

def readEntry (cache : Handle V) (found : Option (V × MetadataValue)) : ContextEntry V where
  action := .set
  value := found.map Prod.fst
  origMeta := (found.map Prod.snd).getD {}
  metadata := (found.map Prod.snd).getD {}
  changed := false
  deleter := some cache.valueDestructor
  valueMarshaller := some cache.valueMarshaller
  controlByte := ControlBit.NONE |||
    (if (found.map Prod.fst).isSome then ControlBit.NONE else ControlBit.NON_EXISTING)

-- The entry of a key after a read: what was there, or what the servers hold.
def observed (cache : Handle V) (found : Option (V × MetadataValue))
    (held : Option (ContextEntry V)) : ContextEntry V := held.getD (readEntry cache found)

def setEntry (cache : Handle V) (ce : ContextEntry V) (val : V) (life idle : Int) :
    ContextEntry V :=
  { ce with
    action := .set
    metadata :=
      { lifespan := narrow life, maxIdle := narrow idle, version := ce.origMeta.version + 1 }
    changed := true
    deleter := some cache.valueDestructor
    valueMarshaller := some cache.valueMarshaller
    value := some val }

-- The entry of a write to a key that has none.
def blindEntry (cache : Handle V) (val : V) (life idle : Int) : ContextEntry V where
  action := .set
  value := some val
  origMeta := { lifespan := narrow life, maxIdle := narrow idle }
  metadata := { lifespan := narrow life, maxIdle := narrow idle }
  changed := false
  deleter := some cache.valueDestructor
  valueMarshaller := some cache.valueMarshaller
  controlByte := ControlBit.NONE ||| ControlBit.NOT_READ

def deletedEntry (ce : ContextEntry V) : ContextEntry V :=
  { ce with
    action := .deleted
    metadata := { version := ce.origMeta.version + 1 }
    changed := true
    value := none
    deleter := none }

def storeEntry (cache : Handle V) (val : V) (life idle : Int) :
    Option (ContextEntry V) → ContextEntry V
  | some ce => setEntry cache ce val life idle
  | none => blindEntry cache val life idle

def Op.entryAfter (cache : Handle V) (found : Option (V × MetadataValue)) (op : Op K V)
    (held : Option (ContextEntry V)) : ContextEntry V :=
  let seen := observed cache found held
  match op with
  | .get _ => seen
  | .put _ val life idle =>
    storeEntry cache val life idle (if cache.forceReturnValue then some seen else held)
  | .putIfAbsent _ val life idle =>
    if (visible seen).isNone then setEntry cache seen val life idle else seen
  | .replace _ val life idle =>
    if (visible seen).isSome then setEntry cache seen val life idle else seen
  | .remove _ => deletedEntry (if cache.forceReturnValue then seen else held.getD {})

/-- The call finds an object to delete where it runs a deleter. -/
def Op.deletes (cache : Handle V) (found : Option (V × MetadataValue)) (op : Op K V)
    (held : Option (ContextEntry V)) : Bool :=
  let seen := observed cache found held
  match op with
  | .get _ => true
  | .put .. => (if cache.forceReturnValue then some seen else held).all ContextEntry.deletable
  | .putIfAbsent .. => (visible seen).isSome || seen.deletable
  | .replace .. => (visible seen).isNone || seen.deletable
  | .remove _ => (if cache.forceReturnValue then seen else held.getD {}).deletable

def Op.reads (force : Bool) : Op K V → Bool
  | .get _ | .putIfAbsent .. | .replace .. => true
  | .put .. | .remove _ => force

/-- What a call returns of the content it sees. `putIfAbsent` returns null whether or
not it stored its value. -/
def Op.answer {W : Type} (force : Bool) (op : Op K V) (seen : Option W) : Option W :=
  match op with
  | .get _ => seen
  | .putIfAbsent .. => none
  | .put .. | .replace .. | .remove _ => if force then seen else none

variable [LinearOrder K] (cache : Handle V) (remote : Remote K V) (tc : TransactionContext K V)

theorem transactionalBaseGet_eq (key : K) :
    transactionalBaseGet cache .ACTIVE remote key tc =
      .ok (visible (observed cache (remote key) (tc.get? key)))
        (tc.insert key (observed cache (remote key) (tc.get? key))) := by
  cases found : tc.get? key with
  | none =>
    have absent : hasValue tc key = false := by simp [hasValue, found]
    simp [transactionalBaseGet, bind_apply, map_apply, absent, TransactionStatus.acceptRead,
      observed, readEntry, addValue, visible]
  | some ce =>
    have present : hasValue tc key = true := by simp [hasValue, found]
    simp [transactionalBaseGet, bind_apply, map_apply, present, TransactionStatus.acceptRead,
      getValue, entry_of_get? found, observed]

theorem store_eq (key : K) (val : V) (life idle : Int) :
    (if hasValue tc key = true then
        setValue tc key (some val) { lifespan := narrow life, maxIdle := narrow idle }
          (some cache.valueDestructor) (some cache.valueMarshaller)
      else .ok (addValue tc key (some val) { lifespan := narrow life, maxIdle := narrow idle }
        (some cache.valueDestructor) (some cache.valueMarshaller) ControlBit.NOT_READ)) =
      if (tc.get? key).all ContextEntry.deletable then
        .ok (tc.insert key (storeEntry cache val life idle (tc.get? key)))
      else .error .foreignDelete := by
  cases found : tc.get? key with
  | none => simp [hasValue, found, addValue, storeEntry, blindEntry]
  | some ce => simp [hasValue, found, setValue, entry_of_get? found, storeEntry, setEntry]

theorem transactionalBasePut_eq (key : K) (val : V) (life idle : Int) (forceRV : Bool) :
    let seen := observed cache (remote key) (tc.get? key)
    let held := if forceRV then some seen else tc.get? key
    transactionalBasePut cache .ACTIVE remote key val life idle forceRV tc =
      if held.all ContextEntry.deletable then
        .ok (if forceRV then visible seen else none)
          (tc.insert key (storeEntry cache val life idle held))
      else .error .foreignDelete (if forceRV then tc.insert key seen else tc) := by
  cases forceRV with
  | false =>
    simp only [transactionalBasePut, TransactionStatus.acceptRW, bind_apply, pure_apply, mutate,
      store_eq, beq_self_eq_true, Bool.true_or, Bool.not_true, Bool.false_eq_true, if_false]
    cases (tc.get? key).all ContextEntry.deletable <;> rfl
  | true =>
    simp only [transactionalBasePut, TransactionStatus.acceptRW, bind_apply, pure_apply, mutate,
      transactionalBaseGet_eq, store_eq, SortedMap.get?_insert_self, SortedMap.insert_insert,
      beq_self_eq_true, Bool.true_or, Bool.not_true, Bool.false_eq_true, if_false, if_true]
    cases (some (observed cache (remote key) (tc.get? key))).all ContextEntry.deletable <;> rfl

theorem Op.run_eq (op : Op K V) :
    op.run cache .ACTIVE remote tc =
      if op.deletes cache (remote op.key) (tc.get? op.key) then
        .ok (op.answer cache.forceReturnValue
            (visible (observed cache (remote op.key) (tc.get? op.key))))
          (tc.insert op.key (op.entryAfter cache (remote op.key) (tc.get? op.key)))
      else .error .foreignDelete (if op.reads cache.forceReturnValue then
        tc.insert op.key (observed cache (remote op.key) (tc.get? op.key)) else tc) := by
  have read := transactionalBaseGet_eq cache remote tc op.key
  cases op with
  | get key => exact read
  | put key val life idle =>
    exact transactionalBasePut_eq cache remote tc key val life idle cache.forceReturnValue
  | putIfAbsent key val life idle =>
    rw [Op.key] at read ⊢
    cases shown : visible (observed cache (remote key) (tc.get? key)) with
    | some v =>
      simp [Op.run, basePutIfAbsent, bind_apply, read, shown, Op.deletes, Op.answer, Op.entryAfter]
    | none =>
      -- the put that stores the value does not read again, whatever the handle's flag
      cases own : (observed cache (remote key) (tc.get? key)).deletable <;>
        simp [Op.run, basePutIfAbsent, bind_apply, map_apply, read, shown, own, Op.deletes,
          Op.answer, Op.entryAfter, Op.reads, transactionalBasePut_eq, storeEntry]
  | replace key val life idle =>
    rw [Op.key] at read ⊢
    cases shown : visible (observed cache (remote key) (tc.get? key)) with
    | none =>
      simp [Op.run, baseReplace, TransactionStatus.acceptRW, bind_apply, read, shown, Op.deletes,
        Op.answer, Op.entryAfter]
    | some v =>
      cases own : (observed cache (remote key) (tc.get? key)).deletable <;>
        cases force : cache.forceReturnValue <;>
          simp [Op.run, baseReplace, TransactionStatus.acceptRW, bind_apply, map_apply, read, shown,
            own, force, mutate, setValue, entry, setEntry, Op.deletes, Op.answer, Op.entryAfter,
            Op.reads]
  | remove key =>
    rw [Op.key] at read ⊢
    cases force : cache.forceReturnValue with
    | true =>
      cases own : (observed cache (remote key) (tc.get? key)).deletable <;>
        simp [Op.run, baseRemove, TransactionStatus.acceptRW, bind_apply, map_apply, read, force,
          own, mutate, setValueAsDeleted, entry, deletedEntry, Op.deletes, Op.answer,
          Op.entryAfter, Op.reads]
    | false =>
      cases own : ((tc.get? key).getD {}).deletable <;>
        simp [Op.run, baseRemove, TransactionStatus.acceptRW, map_apply, force, own, mutate,
          setValueAsDeleted, entry, deletedEntry, Op.deletes, Op.answer, Op.entryAfter, Op.reads]

end HotRod.Transactions
