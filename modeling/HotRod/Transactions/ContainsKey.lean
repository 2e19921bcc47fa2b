import HotRod.Transactions.Abstraction
import HotRod.Transactions.Prepare

/-! `containsKey` among the other calls of a transaction.

It reads the context through `getValue`, which makes an entry for a key that has
none, and where it finds no value it asks the servers. On a key that an earlier call
has touched it changes nothing, so it can be erased from a run. -/

set_option autoImplicit false

namespace HotRod.Transactions

open Semantics.Execution TransactionContext

variable {K V : Type}

inductive CacheCall (K V : Type) where
  | op (op : Op K V)
  | containsKey (key : K)
  deriving Repr

inductive Reply (V : Type) where
  | value (v : Option V)
  | found (b : Bool)
  deriving DecidableEq, Repr

variable [LinearOrder K]

def baseContainsKey (status : TransactionStatus) (remote : Remote K V) (key : K) :
    CacheM K V Bool := do
  if !status.acceptRead then throw (.raised (.txState status.statusToString "containsKey"))
  let tc ← get
  modify fun tc => (getValue tc key).2
  if (getValue tc key).1.isSome then pure true
  else pure (remote key).isSome

def CacheCall.run (cache : Handle V) (status : TransactionStatus) (remote : Remote K V) :
    CacheCall K V → CacheM K V (Reply V)
  | .op o => do
    let result ← o.run cache status remote
    pure (.value result)
  | .containsKey key => do
    let b ← baseContainsKey status remote key
    pure (.found b)

def values (replies : List (Reply V)) : List (Option V) :=
  replies.filterMap fun reply => match reply with
    | .value v => some v
    | .found _ => none

/-- An earlier call has touched the key, and what it has left agrees with the servers
where there is nothing. -/
def Settles (ledger : Ledger K V) (remote : Remote K V) (key : K) : Prop :=
  ledger key ≠ .untouched ∧ ((ledger key).content.isSome = true ∨ remote key = none)

theorem baseContainsKey_eq (remote : Remote K V) (tc : TransactionContext K V) (key : K) :
    baseContainsKey .ACTIVE remote key tc =
      .ok ((visible (entry tc key)).isSome || (remote key).isSome)
        (tc.insert key (entry tc key)) := by
  cases shown : (visible (entry tc key)).isSome <;>
    simp [baseContainsKey, bind_apply, TransactionStatus.acceptRead, getValue, shown]

/-- What a transaction gets of the calls that are no questions, and its PREPARE. -/
def outcome {A : Type} (replies : A → List (Option V)) :
    EStateM.Result Fault (TransactionContext K V) A →
      Except Fault (List (Option V) × Except Fault (List (Modification K)))
  | .ok a tc => .ok (replies a, prepareModifications tc)
  | .error fault _ => .error fault

end HotRod.Transactions
