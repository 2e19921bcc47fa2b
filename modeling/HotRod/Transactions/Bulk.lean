import HotRod.Transactions.Abstraction

/-! `getBulk` inside a transaction.

The context's entries come first, then those of two requests to the servers: one for
the rest, and the one a call outside a transaction makes. The result is a map keyed
by freshly allocated pointers, so nothing in it is ever overwritten; it is a list of
keys and values here. -/

set_option autoImplicit false

namespace HotRod.Transactions

open Semantics.Execution TransactionContext

variable {K V : Type}

variable [LinearOrder K]

-- `TransactionContext::getBulk`, which does not look at the size it is given.
def TransactionContext.getBulk (tc : TransactionContext K V) : List (K × V) :=
  tc.entries.filterMap fun e => (visible e.2).map fun value => (e.1, value)

structure BulkServer (remote : SortedMap K V) where
  answer : UInt32 → List (K × V)
  held : ∀ count, (answer count).Sublist remote.entries
  size : ∀ count, (answer count).length =
    if count = 0 then remote.entries.length else min count.toNat remote.entries.length

-- `int` to the `uint32_t` of a VInt; the subtraction before it wraps the same way.
def entryCount (n : Int) : UInt32 := UInt32.ofNat (n % 2 ^ 32).toNat

/-- The last request is made inside a transaction too: the branch does not return. -/
def baseGetBulk (status : TransactionStatus) (first second : UInt32 → List (K × V))
    (size : Int32) : CacheM K V (List (K × V)) := do
  let mbuf ←
    if status ≠ .NO_TRANSACTION then do
      if !status.acceptRead then throw (.raised (.txState status.statusToString "getBulk"))
      let ctxEntries := (← get).getBulk
      let remoteEntries := first (entryCount (size.toInt - ctxEntries.length))
      pure (ctxEntries ++ remoteEntries)
    else pure []
  pure (mbuf ++ second (entryCount size.toInt))

theorem baseGetBulk_eq (first second : UInt32 → List (K × V)) (size : Int32)
    (tc : TransactionContext K V) :
    baseGetBulk .ACTIVE first second size tc =
      .ok (tc.getBulk ++ first (entryCount (size.toInt - tc.getBulk.length)) ++
        second (entryCount size.toInt)) tc := by
  simp [baseGetBulk, map_apply, TransactionStatus.acceptRead]

theorem mem_getBulk {tc : TransactionContext K V} {key : K} {v : V} :
    (key, v) ∈ tc.getBulk ↔ (ledgerOf tc key).content = some v := by
  simp only [TransactionContext.getBulk, List.mem_filterMap, Option.map_eq_some_iff, Prod.mk.injEq]
  constructor
  · rintro ⟨⟨k, ce⟩, member, value, shown, rfl, rfl⟩
    rw [ledgerOf, tc.get?_eq_some.mpr member, footprintOf, ← ContextEntry.visible_eq]
    exact shown
  · intro shown
    cases found : tc.get? key with
    | none => simp [ledgerOf, found, footprintOf, Footprint.content] at shown
    | some ce =>
      rw [ledgerOf, found, footprintOf, ← ContextEntry.visible_eq] at shown
      exact ⟨(key, ce), tc.get?_eq_some.mp found, v, shown, rfl, rfl⟩

theorem getBulk_nodup (tc : TransactionContext K V) : (tc.getBulk.map Prod.fst).Nodup := by
  have sorted : tc.getBulk.Pairwise fun a b => a.1 < b.1 := by
    apply List.Pairwise.filterMap _ _ tc.sorted
    intro a b below x fromA y fromB
    obtain ⟨-, -, rfl⟩ := Option.map_eq_some_iff.mp fromA
    obtain ⟨-, -, rfl⟩ := Option.map_eq_some_iff.mp fromB
    exact below
  exact (List.pairwise_map.mpr sorted).imp ne_of_lt

/-- What the caller is to get: every key once, the transaction's own values, nothing it
has removed, what the servers hold otherwise, and no more than was asked for. -/
structure BulkOfTransaction (ledger : Ledger K V) (remote : SortedMap K V) (size : Int32)
    (entries : List (K × V)) : Prop where
  once : (entries.map Prod.fst).Nodup
  set : ∀ key v, ledger key = .wrote (some v) → ∀ w, (key, w) ∈ entries ↔ w = v
  removed : ∀ key, ledger key = .wrote none → ∀ w, (key, w) ∉ entries
  other : ∀ key w, (key, w) ∈ entries → (∀ content, ledger key ≠ .wrote content) →
    (key, w) ∈ remote.entries
  limit : 0 < size.toInt → entries.length ≤ size.toInt

theorem entryCount_toNat {size : Int32} (natural : 0 ≤ size.toInt) :
    (entryCount size.toInt).toNat = size.toInt.toNat := by
  have bound := size.toInt_lt
  have small : size.toInt % 2 ^ 32 = size.toInt := Int.emod_eq_of_lt natural (by omega)
  have fits : size.toInt.toNat < UInt32.size := by
    have width : UInt32.size = 2 ^ 32 := rfl
    omega
  rw [entryCount, small]
  exact UInt32.toNat_ofNat_of_lt' fits

variable {remote : SortedMap K V}

theorem BulkServer.answer_ne_nil (server : BulkServer remote) (filled : remote.entries ≠ [])
    (count : UInt32) : server.answer count ≠ [] := by
  have some_held := List.length_pos_iff.mpr filled
  apply List.length_pos_iff.mp
  rw [server.size]
  split
  · exact some_held
  · rename_i asked
    have positive : 0 < count.toNat :=
      Nat.pos_of_ne_zero fun zero => asked (UInt32.toNat_inj.mp zero)
    omega

theorem BulkServer.answer_of_empty (server : BulkServer remote) (empty : remote.entries = [])
    (count : UInt32) : server.answer count = [] := by
  have held := server.held count
  rw [empty] at held
  exact List.sublist_nil.mp held

-- Two answers of servers that hold anything repeat a key or exceed the size: the second alone has
-- all there is, or as many entries as were asked for.
theorem exceeds_of_filled (first second : BulkServer remote) (filled : remote.entries ≠ [])
    {size : Int32} (natural : 0 ≤ size.toInt) (count : UInt32) {own : List (K × V)}
    (once : ((own ++ first.answer count ++ second.answer (entryCount size.toInt)).map
      Prod.fst).Nodup) :
    0 < size.toInt ∧ size.toInt <
      (own ++ first.answer count ++ second.answer (entryCount size.toInt)).length := by
  obtain ⟨e, member⟩ := List.exists_mem_of_ne_nil _ (first.answer_ne_nil filled count)
  -- the whole map would repeat an entry of the first answer
  have short : (second.answer (entryCount size.toInt)).length ≠ remote.entries.length := by
    intro all
    have whole := (second.held (entryCount size.toInt)).eq_of_length all
    have again : e ∈ second.answer (entryCount size.toInt) := by
      rw [whole]
      exact (first.held count).subset member
    rw [List.map_append, List.nodup_append] at once
    exact once.2.2 e.1 (List.mem_map_of_mem (List.mem_append_right _ member)) e.1
      (List.mem_map_of_mem again) rfl
  have answered := second.size (entryCount size.toInt)
  have asked := entryCount_toNat natural
  have one := List.length_pos_of_mem member
  split at answered
  · exact absurd answered short
  · -- so the second answer is as long as the size, and the first is not empty
    rename_i nonzero
    have positive : size.toInt ≠ 0 := by
      intro zero
      rw [zero] at nonzero
      exact nonzero rfl
    simp only [List.length_append]
    omega

/-- The servers hold nothing, the transaction's own entries are few enough, and none of
them was only read. -/
def BulkKept (remote : SortedMap K V) (tc : TransactionContext K V) (size : Int32) : Prop :=
  remote.entries = [] ∧ (0 < size.toInt → tc.getBulk.length ≤ size.toInt) ∧
    ∀ key v, ledgerOf tc key ≠ .read (some v)

/-- `getBulk` keeps its promise inside a transaction only over empty servers. -/
theorem getBulk_of_transaction_iff (first second : BulkServer remote) {size : Int32}
    (natural : 0 ≤ size.toInt) (tc : TransactionContext K V) :
    ∃ entries, baseGetBulk .ACTIVE first.answer second.answer size tc = .ok entries tc ∧
      (BulkOfTransaction (ledgerOf tc) remote size entries ↔ BulkKept remote tc size) := by
  refine ⟨_, baseGetBulk_eq first.answer second.answer size tc, ?_⟩
  constructor
  · intro bulk
    have empty : remote.entries = [] := by
      by_contra filled
      obtain ⟨positive, exceeds⟩ := exceeds_of_filled first second filled natural _ bulk.once
      have limit := bulk.limit positive
      omega
    simp only [first.answer_of_empty empty, second.answer_of_empty empty, List.append_nil] at bulk
    refine ⟨empty, bulk.limit, ?_⟩
    intro key v read
    have shown : (key, v) ∈ tc.getBulk := mem_getBulk.mpr (by rw [read, Footprint.content])
    have held := bulk.other key v shown (by simp [read])
    rw [empty] at held
    cases held
  · rintro ⟨empty, limit, unread⟩
    simp only [first.answer_of_empty empty, second.answer_of_empty empty, List.append_nil]
    constructor
    · exact getBulk_nodup tc
    · intro key v set w
      rw [mem_getBulk, set, Footprint.content, Option.some.injEq, eq_comm]
    · intro key removed w
      simp [mem_getBulk, removed, Footprint.content]
    · intro key w shown unwritten
      rw [mem_getBulk] at shown
      cases seen : ledgerOf tc key with
      | untouched => simp [seen, Footprint.content] at shown
      | wrote content => exact absurd seen (unwritten content)
      | read content =>
        rw [seen, Footprint.content] at shown
        exact absurd (shown ▸ seen) (unread key w)
    · exact limit

def oneEntry : SortedMap Nat Nat := SortedMap.empty.insert 1 10

def oneEntryServer : BulkServer oneEntry where
  answer _ := oneEntry.entries
  held _ := List.Sublist.refl _
  size count := by
    have size : oneEntry.entries.length = 1 := rfl
    split
    · rfl
    · rename_i asked
      have positive : count.toNat ≠ 0 := fun zero => asked (UInt32.toNat_inj.mp zero)
      omega

/-- An empty transaction gets the only remote entry twice. -/
theorem getBulk_repeats_entry :
    ∃ entries, baseGetBulk .ACTIVE oneEntryServer.answer oneEntryServer.answer 5
        (SortedMap.empty : TransactionContext Nat Nat) = .ok entries SortedMap.empty ∧
      ¬ BulkOfTransaction Ledger.fresh oneEntry 5 entries := by
  refine ⟨[(1, 10), (1, 10)], rfl, ?_⟩
  intro bulk
  have once := bulk.once
  revert once
  decide

theorem getBulk_of_transaction_oneEntry :
    ∃ entries, baseGetBulk .ACTIVE oneEntryServer.answer oneEntryServer.answer 5
        (SortedMap.empty : TransactionContext Nat Nat) = .ok entries SortedMap.empty ∧
      (BulkOfTransaction (ledgerOf SortedMap.empty) oneEntry 5 entries ↔
        BulkKept oneEntry SortedMap.empty 5) :=
  getBulk_of_transaction_iff oneEntryServer oneEntryServer (by decide) SortedMap.empty

end HotRod.Transactions
