import HotRod.Transactions.Footprint

/-! The ledger a context stands for.

An entry shows by its action, its change mark and its control byte how its key got
into the context, so the footprint of the key can be read off it. Every call does to
the ledger of any context, reachable or not, what the call means. -/

set_option autoImplicit false

namespace HotRod.Transactions

open Semantics.Execution TransactionContext

variable {K V : Type}

-- A write leaves a change mark, or the mark of a key that was not read before it.
def ContextEntry.written (ce : ContextEntry V) : Bool :=
  ce.changed || ce.controlByte &&& ControlBit.NOT_READ ≠ 0

def ContextEntry.footprint (ce : ContextEntry V) : Footprint V :=
  match ce.action with
  | .deleted => .wrote none
  | .set => if ce.written then .wrote ce.value else .read ce.value

theorem ContextEntry.visible_eq (ce : ContextEntry V) : visible ce = ce.footprint.content := by
  unfold visible ContextEntry.footprint
  cases ce.action with
  | deleted => rfl
  | set => cases ce.written <;> rfl

theorem ContextEntry.touched (ce : ContextEntry V) : ce.footprint ≠ .untouched := by
  unfold ContextEntry.footprint
  cases ce.action with
  | deleted => simp
  | set => cases ce.written <;> simp

def footprintOf : Option (ContextEntry V) → Footprint V
  | none => .untouched
  | some ce => ce.footprint

theorem footprint_readEntry (cache : Handle V) (found : Option (V × MetadataValue)) :
    (readEntry cache found).footprint = .read (found.map Prod.fst) := by
  have unmarked : (readEntry cache found).written = false := by
    simp only [ContextEntry.written, readEntry, Bool.false_or]
    split <;> decide
  rw [ContextEntry.footprint, unmarked]
  rfl

theorem footprint_observed (cache : Handle V) (found : Option (V × MetadataValue))
    (held : Option (ContextEntry V)) :
    (observed cache found held).footprint = (footprintOf held).observe (found.map Prod.fst) := by
  cases held with
  | none => exact footprint_readEntry cache found
  | some ce => exact (observe_of_touched _ ce.touched).symm

theorem footprint_storeEntry (cache : Handle V) (val : V) (life idle : Int)
    (held : Option (ContextEntry V)) :
    (storeEntry cache val life idle held).footprint = .wrote (some val) := by
  cases held with
  | none =>
    have marked : (blindEntry cache val life idle).written = true := by
      simp [ContextEntry.written, blindEntry, ControlBit.NONE, ControlBit.NOT_READ]
    rw [storeEntry, ContextEntry.footprint, marked]
    rfl
  | some ce => rfl

theorem footprint_entryAfter (cache : Handle V) (found : Option (V × MetadataValue)) (op : Op K V)
    (held : Option (ContextEntry V)) :
    (op.entryAfter cache found held).footprint =
      (footprintOf held).after (found.map Prod.fst) op := by
  have read := footprint_observed cache found held
  cases op with
  | get key => exact read
  | put key val life idle => exact footprint_storeEntry cache val life idle _
  | putIfAbsent key val life idle =>
    simp only [Op.entryAfter, Footprint.after, ContextEntry.visible_eq, read]
    split
    · rfl
    · exact read
  | replace key val life idle =>
    simp only [Op.entryAfter, Footprint.after, ContextEntry.visible_eq, read]
    split
    · rfl
    · exact read
  | remove key => rfl

variable [LinearOrder K]

def ledgerOf (tc : TransactionContext K V) : Ledger K V := fun key => footprintOf (tc.get? key)

-- A call that returns has rewritten the entry of its key.
theorem Op.run_eq_ok {cache : Handle V} {remote : Remote K V} {tc tc' : TransactionContext K V}
    {op : Op K V} {result : Option V} (returned : op.run cache .ACTIVE remote tc = .ok result tc') :
    result = op.answer cache.forceReturnValue
        (visible (observed cache (remote op.key) (tc.get? op.key))) ∧
      tc' = tc.insert op.key (op.entryAfter cache (remote op.key) (tc.get? op.key)) := by
  rw [Op.run_eq] at returned
  split at returned
  · injection returned with same left
    exact ⟨same.symm, left.symm⟩
  · cases returned

theorem ledgerOf_run {cache : Handle V} {remote : Remote K V} {tc tc' : TransactionContext K V}
    {op : Op K V} {result : Option V} (returned : op.run cache .ACTIVE remote tc = .ok result tc') :
    ledgerOf tc' = (ledgerOf tc).step remote op := by
  rw [(Op.run_eq_ok returned).2]
  funext key
  by_cases same : key = op.key
  · subst same
    simp [ledgerOf, Ledger.step, footprintOf, footprint_entryAfter]
  · simp [ledgerOf, Ledger.step, SortedMap.get?_insert_of_ne _ _ same, Function.update_of_ne same]

end HotRod.Transactions
