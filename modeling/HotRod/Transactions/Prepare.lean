import HotRod.Transactions.Pointers

/-! The modifications a PREPARE request carries, as the loop of
`PrepareCommitOperation` writes them, against the write set they are meant to
be.

The value marshaller is run on the pointer of an entry while the request is written, so
an object that `replace` has left with the caller is sent as it is then. -/

set_option autoImplicit false

namespace HotRod.Transactions

open Semantics.Execution TransactionContext

variable {K A V H : Type}

structure Payload where
  timeUnits : UInt8
  lifespan : Option Int
  maxIdle : Option Int
  value : Bytes
  deriving DecidableEq, Repr

structure Modification (K : Type) where
  key : K
  controlByte : UInt8
  version : Option Int
  payload : Option Payload
  deriving DecidableEq, Repr

/-- `valueMarshaller(value, buf)`: an empty function object raises, and a typed
cache's marshaller dereferences the pointer it is given. -/
def marshalValue (valueMarshaller : Option (V → Except Exn Bytes)) (value : Option V) :
    Except Fault Bytes :=
  match valueMarshaller, value with
  | none, _ => .error (.raised (.std "bad_function_call"))
  | some _, none => .error .nullDereference
  | some marshal, some v => (marshal v).mapError .raised

def positive (n : Int) : Option Int := if n > 0 then some n else none

def entryModification (key : K) (ce : ContextEntry V) : Except Fault (Modification K) := do
  let version :=
    if ce.controlByte &&& (ControlBit.NON_EXISTING ||| ControlBit.NOT_READ) = 0 then
      some ce.origMeta.version
    else none
  let payload ←
    if ce.controlByte &&& ControlBit.REMOVE_OP = 0 then do
      -- 0x77 announces the default unit for both times, whether or not they follow
      let value ← marshalValue ce.valueMarshaller ce.value
      pure (some { timeUnits := 0x77, lifespan := positive ce.metadata.lifespan
                   maxIdle := positive ce.metadata.maxIdle, value })
    else pure none
  pure { key, controlByte := ce.controlByte, version, payload }

/-- The list of modifications of `PrepareCommitOperation::executeOperation`. -/
def prepareModifications [LinearOrder K] (tc : TransactionContext K V) :
    Except Fault (List (Modification K)) :=
  tc.entries.mapM fun e => entryModification e.1 e.2

/-- The request carries the write set of the ledger: one entry for each written
key, with its final value or as a removal, and nothing for the other keys. -/
def CarriesWriteSet (expected : H → Except Exn Bytes) (ledger : Ledger K H)
    (request : Except Fault (List (Modification K))) : Prop :=
  ∃ mods, request = .ok mods ∧ (mods.map Modification.key).Nodup ∧ ∀ key, match ledger key with
    | .wrote (some h) => ∃ m ∈ mods, m.key = key ∧ m.controlByte &&& ControlBit.REMOVE_OP = 0 ∧
        ∃ payload, m.payload = some payload ∧ expected h = .ok payload.value
    | .wrote none =>
      ∃ m ∈ mods, m.key = key ∧ m.controlByte &&& ControlBit.REMOVE_OP ≠ 0 ∧ m.payload = none
    | .read _ | .untouched => ∀ m ∈ mods, m.key ≠ key

/-- The key was not touched, or was written last with a value whose marshalled form is
still the expected one when it is sent. -/
def Footprint.EndsSet (expected sent : H → Except Exn Bytes) : Footprint H → Prop
  | .untouched => True
  | .read _ => False
  | .wrote none => False
  | .wrote (some h) => ∃ bytes, expected h = .ok bytes ∧ sent h = .ok bytes

-- The original version goes along for a key that was read and found.
def sentVersion (ce : ContextEntry V) : Option Int :=
  if ce.controlByte &&& (ControlBit.NON_EXISTING ||| ControlBit.NOT_READ) = 0 then
    some ce.origMeta.version
  else none

def sentPayload (ce : ContextEntry V) (value : Bytes) : Payload where
  timeUnits := 0x77
  lifespan := positive ce.metadata.lifespan
  maxIdle := positive ce.metadata.maxIdle
  value := value

theorem entryModification_stored (key : K) {ce : ContextEntry V}
    (bit : ce.controlByte &&& ControlBit.REMOVE_OP = 0) :
    entryModification key ce = (marshalValue ce.valueMarshaller ce.value).map fun value =>
      { key, controlByte := ce.controlByte, version := sentVersion ce
        payload := some (sentPayload ce value) } := by
  simp only [entryModification, if_pos bit]
  cases marshalValue ce.valueMarshaller ce.value <;> rfl

theorem entryModification_bare (key : K) {ce : ContextEntry V}
    (bit : ce.controlByte &&& ControlBit.REMOVE_OP ≠ 0) :
    entryModification key ce =
      .ok { key, controlByte := ce.controlByte, version := sentVersion ce, payload := none } := by
  simp only [entryModification, if_neg bit]
  rfl

theorem marshalValue_eq_ok {valueMarshaller : Option (V → Except Exn Bytes)} {value : Option V}
    {bytes : Bytes} : marshalValue valueMarshaller value = .ok bytes ↔
      ∃ marshal v, valueMarshaller = some marshal ∧ value = some v ∧ marshal v = .ok bytes := by
  cases valueMarshaller with
  | none => simp [marshalValue]
  | some marshal =>
    cases value with
    | none => simp [marshalValue]
    | some v => cases called : marshal v <;> simp [marshalValue, called, Except.mapError]

theorem entryModification_eq_ok {key : K} {ce : ContextEntry V}
    (bit : ce.controlByte &&& ControlBit.REMOVE_OP = 0) {m : Modification K}
    (sent : entryModification key ce = .ok m) : m.key = key ∧ m.controlByte = ce.controlByte ∧
      ∃ marshal v payload, ce.valueMarshaller = some marshal ∧ ce.value = some v ∧
        m.payload = some payload ∧ marshal v = .ok payload.value := by
  rw [entryModification_stored key bit] at sent
  cases marshalled : marshalValue ce.valueMarshaller ce.value with
  | error fault =>
    rw [marshalled] at sent
    cases sent
  | ok value =>
    rw [marshalled] at sent
    cases sent
    obtain ⟨marshal, v, sender, held, called⟩ := marshalValue_eq_ok.mp marshalled
    exact ⟨rfl, rfl, marshal, v, _, sender, held, rfl, called⟩

theorem entryModification_of_set {key : K} {ce : ContextEntry V}
    (bit : ce.controlByte &&& ControlBit.REMOVE_OP = 0) {marshal : V → Except Exn Bytes} {v : V}
    {bytes : Bytes} (marshaller : ce.valueMarshaller = some marshal) (value : ce.value = some v)
    (marshalled : marshal v = .ok bytes) : ∃ m, entryModification key ce = .ok m := by
  have called := marshalValue_eq_ok.mpr ⟨marshal, v, marshaller, value, marshalled⟩
  rw [entryModification_stored key bit, called]
  exact ⟨_, rfl⟩

variable [LinearOrder K] {cache : Handle V} {tc : TransactionContext K V}

theorem prepareModifications_keys {ledger : Ledger K V} (refines : Refines cache ledger tc)
    {mods : List (Modification K)} (sent : prepareModifications tc = .ok mods) :
    mods.map Modification.key = tc.keys := by
  refine map_eq_of_mapM sent ?_
  rintro ⟨key, ce⟩ member m call
  have bit := (refines key).bit
  rw [tc.get?_eq_some.mpr member, Option.getD_some] at bit
  exact (entryModification_eq_ok bit call).1

theorem exists_modification {mods : List (Modification K)}
    (sent : prepareModifications tc = .ok mods) {key : K} {ce : ContextEntry V}
    (found : tc.get? key = some ce) : ∃ m ∈ mods, entryModification key ce = .ok m :=
  exists_mem_of_mapM sent (tc.get?_eq_some.mp found)

-- What the request says of a key written last with a value: the value as the object reads now.
theorem exists_modification_of_set {key : K} {v : V}
    (tracks : Tracks cache (.wrote (some v)) (tc.get? key)) {mods : List (Modification K)}
    (sent : prepareModifications tc = .ok mods) :
    ∃ m ∈ mods, m.key = key ∧ m.controlByte &&& ControlBit.REMOVE_OP = 0 ∧
      ∃ payload, m.payload = some payload ∧ cache.valueMarshaller v = .ok payload.value := by
  obtain ⟨ce, found, -, value, -, marshaller, bit⟩ := tracks
  obtain ⟨m, member, call⟩ := exists_modification sent found
  obtain ⟨named, byte, marshal, w, payload, sender, held, body, marshalled⟩ :=
    entryModification_eq_ok bit call
  rw [marshaller, Option.some.injEq] at sender
  rw [value, Option.some.injEq] at held
  subst sender held
  exact ⟨m, member, named, byte ▸ bit, payload, body, marshalled⟩

section WriteSet

variable {ledger : Ledger K H} {pointer : H → V} {expected : H → Except Exn Bytes}

theorem exists_prepareModifications
    (refines : Refines cache (fun key => (ledger key).map pointer) tc)
    (set : ∀ key, (ledger key).EndsSet expected fun h => cache.valueMarshaller (pointer h)) :
    ∃ mods, prepareModifications tc = .ok mods := by
  refine exists_mapM_eq_ok.mpr ?_
  rintro ⟨key, ce⟩ member
  have tracks : Tracks cache ((ledger key).map pointer) (tc.get? key) := refines key
  have ends := set key
  rw [tc.get?_eq_some.mpr member] at tracks
  cases footprint : ledger key with
  | untouched => rw [footprint] at tracks; cases tracks
  | read content => rw [footprint] at ends; exact ends.elim
  | wrote content =>
    rw [footprint] at tracks ends
    cases content with
    | none => exact ends.elim
    | some h =>
      obtain ⟨bytes, -, marshalled⟩ := ends
      obtain ⟨_, ⟨⟩, -, value, -, marshaller, bit⟩ := tracks
      exact entryModification_of_set bit marshaller value marshalled

-- A request over a context that refines the ledger carries the write set exactly when every touched
-- key ends set.
theorem carriesWriteSet_iff (refines : Refines cache (fun key => (ledger key).map pointer) tc) :
    CarriesWriteSet expected ledger (prepareModifications tc) ↔
      ∀ key, (ledger key).EndsSet expected fun h => cache.valueMarshaller (pointer h) := by
  constructor
  · rintro ⟨mods, sent, nodup, carried⟩ key
    have here := carried key
    have tracks : Tracks cache ((ledger key).map pointer) (tc.get? key) := refines key
    cases footprint : ledger key with
    | untouched => trivial
    | read content =>
      -- an entry that was only read is sent like the others
      rw [footprint] at tracks here
      obtain ⟨ce, found, -, -, -, -, bit⟩ := tracks
      obtain ⟨m, member, call⟩ := exists_modification sent found
      exact here m member (entryModification_eq_ok bit call).1
    | wrote content =>
      rw [footprint] at tracks here
      cases content with
      | none =>
        -- without the removal bit the entry needs a value, and it has lost it
        obtain ⟨ce, found, -, value, bit⟩ := tracks
        obtain ⟨m, -, call⟩ := exists_modification sent found
        obtain ⟨-, -, -, v, -, -, present, -⟩ := entryModification_eq_ok bit call
        rw [value] at present
        cases present
      | some h =>
        obtain ⟨m, member, named, -, payload, body, marshalled⟩ :=
          exists_modification_of_set tracks sent
        -- a key has one entry in the request
        obtain ⟨m', member', named', -, payload', body', wanted⟩ := here
        rw [List.inj_on_of_nodup_map nodup member' member (named'.trans named.symm), body,
          Option.some.injEq] at body'
        rw [← body'] at wanted
        exact ⟨_, wanted, marshalled⟩
  · intro set
    obtain ⟨mods, sent⟩ := exists_prepareModifications refines set
    have keys := prepareModifications_keys refines sent
    refine ⟨mods, sent, keys ▸ tc.keys_nodup, fun key => ?_⟩
    have tracks : Tracks cache ((ledger key).map pointer) (tc.get? key) := refines key
    have ends := set key
    cases footprint : ledger key with
    | untouched =>
      rw [footprint] at tracks
      rintro m member rfl
      have named : m.key ∈ tc.keys := keys ▸ List.mem_map_of_mem member
      exact tc.get?_eq_none.mp tracks named
    | read content => rw [footprint] at ends; exact ends.elim
    | wrote content =>
      rw [footprint] at tracks ends
      cases content with
      | none => exact ends.elim
      | some h =>
        obtain ⟨bytes, wanted, sends⟩ := ends
        obtain ⟨m, member, named, bit, payload, body, marshalled⟩ :=
          exists_modification_of_set tracks sent
        have same : bytes = payload.value := Except.ok.inj (sends.symm.trans marshalled)
        exact ⟨m, member, named, bit, payload, body, same ▸ wanted⟩

end WriteSet

def transact (cache : Handle (Pointer A V)) (calls : List (Call K A V)) :
    Except Fault (List (Modification K)) :=
  match runCalls cache .ACTIVE calls SortedMap.empty with
  | .ok _ tc => prepareModifications tc
  | .error fault _ => .error fault

/-- PREPARE carries the write set of a transaction exactly when the transaction has
written every key it touched, and last with a value, has written over no object of the
caller's, and the objects of the caller's it still holds are marshalled as before. -/
theorem prepare_carries_write_set_iff (force : Bool) (marshal : V → Except Exn Bytes)
    (atPrepare : A → V) (calls : List (Call K A V)) :
    CarriesWriteSet (fun held => marshal held.value) (Ledger.fresh.afterCalls calls)
        (transact (pointerHandle force marshal atPrepare) calls) ↔
      Ledger.fresh.Spared calls ∧ ∀ key, (Ledger.fresh.afterCalls calls key).EndsSet
        (fun held => marshal held.value) fun held => marshal (held.pointer.read atPrepare) := by
  have fresh := refines_fresh (K := K) (pointerHandle force marshal atPrepare)
  by_cases spared : Ledger.fresh.Spared calls
  · obtain ⟨results, tc, returned, refines⟩ := runCalls_refines fresh spared
    rw [transact, returned, and_iff_right spared]
    exact carriesWriteSet_iff refines
  · obtain ⟨tc, raise⟩ := runCalls_foreign fresh spared
    rw [transact, raise]
    refine iff_of_false ?_ fun both => spared both.1
    rintro ⟨mods, sent, -⟩
    cases sent

def removal : List (Call Nat Unit Bytes) :=
  [{ remote := fun _ => none, memory := fun _ => [], op := .remove 0 }]

/-- PREPARE cannot be built. -/
theorem prepare_fails_on_remove :
    ¬ CarriesWriteSet (fun held => .ok held.value) (Ledger.fresh.afterCalls removal)
      (transact (pointerHandle false .ok fun _ => []) removal) := by
  rintro ⟨mods, sent, -⟩
  cases sent

end HotRod.Transactions
