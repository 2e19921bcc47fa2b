import HotRod.Data.FiniteMap
import HotRod.Operations.Exchanges
import Mathlib.Data.List.Dedup
import Mathlib.Data.List.Perm.Basic

/-! Reading many entries at once.

`get` unmarshalls a value with the marshaller of the values. `getBulk` goes through
`ValueUnmarshallerFtor`, and `getAll` through the cache template; both of them use the
marshaller of the keys for the values as well, and take its pointers for pointers to
values. -/

set_option autoImplicit false

namespace HotRod.Operations.BulkReads

open Semantics.Execution
open Protocol HotRodConstants
open WireFormat (Bytes)

variable {K V R G : Type}

/-! ### Marshallers -/

/-- A marshaller that reads back what it writes. What it returns is a pointer. -/
structure Marshaller (T : Type) where
  marshall : T → List UInt8
  unmarshall : List UInt8 → Except Exn (Option T)
  unmarshall_marshall : ∀ x, unmarshall (marshall x) = .ok (some x)

theorem Marshaller.marshall_injective {T : Type} (m : Marshaller T) :
    Function.Injective m.marshall := by
  intro x y same
  have read := m.unmarshall_marshall x
  rw [same, m.unmarshall_marshall y] at read
  injection read with read
  exact (Option.some.inj read).symm

/-- The marshallers of a cache; `cast` is `(V*)` applied to a pointer to a key. -/
structure RemoteCache (K V : Type) where
  keyMarshaller : Marshaller K
  valueMarshaller : Marshaller V
  cast : Option K → Option V

def RemoteCacheBase.baseKeyUnmarshall (cache : RemoteCache K V) (buf : List UInt8) :
    Except Exn (Option K) :=
  cache.keyMarshaller.unmarshall buf

def KeyUnmarshallerFtor (cache : RemoteCache K V) (bytes : List UInt8) : Except Exn (Option K) :=
  RemoteCacheBase.baseKeyUnmarshall cache bytes

def ValueUnmarshallerFtor (cache : RemoteCache K V) (bytes : List UInt8) : Except Exn (Option K) :=
  RemoteCacheBase.baseKeyUnmarshall cache bytes

/-! ### The calls -/

abbrev ByteMap := FiniteMap (List UInt8) (List UInt8)

def execute (operation : ConnectionM R) (s : Connection) : Except Exn R :=
  match operation s with
  | .ok r _ => .ok r
  | .error e _ => .error e

-- `map[key(first)] = value(second)`; the pointers are new ones every time.
def unmarshallPair {A B : Type} (key : List UInt8 → Except Exn A) (value : List UInt8 → Except Exn B)
    (item : List UInt8 × List UInt8) : Except Exn (A × B) := do
  let k ← key item.1
  let v ← value item.2
  pure (k, v)

def RemoteCacheImpl.getBulk (cache : RemoteCache K V) (o : HotRodOperation) (isize : UInt32)
    (transport : Connection) : Except Exn (List (Option K × Option K)) := do
  let received ← execute (BulkGetOperation.executeOperation o isize) transport
  let res : ByteMap := FiniteMap.assign ∅ received
  res.pairs.mapM (unmarshallPair (KeyUnmarshallerFtor cache) (ValueUnmarshallerFtor cache))

def RemoteCache.getBulk (cache : RemoteCache K V) (o : HotRodOperation) (transport : Connection) :
    Except Exn (List (Option K × Option V)) := do
  let mbuf ← RemoteCacheImpl.getBulk cache o 0 transport
  pure (mbuf.map fun item => (item.1, cache.cast item.2))

section GetAll

variable (newGetAllOperation : List (List UInt8) → HotRodOperation)
  (transport : List (List UInt8) → Connection)

-- The loop over the groups; `insert` keeps what the result has.
def RemoteCacheImpl.executeAll :
    List (G × List (List UInt8)) → ByteMap → Except Exn ByteMap
  | [], result => pure result
  | item :: splittedKeySet, result => do
    let received ← execute
      (GetAllOperation.executeOperation (newGetAllOperation item.2) item.2) (transport item.2)
    let splittedResult : ByteMap := FiniteMap.assign ∅ received
    executeAll splittedKeySet (result ∪ splittedResult)

/-- `getHashAwareServer` stands for what the topology makes of a key. -/
def RemoteCacheImpl.getAll [DecidableEq G] (getHashAwareServer : List UInt8 → G)
    (keySet : List (List UInt8)) : Except Exn ByteMap :=
  executeAll newGetAllOperation transport (FiniteMap.groupBy getHashAwareServer keySet).pairs ∅

def RemoteCache.getAll [DecidableEq G] (cache : RemoteCache K V)
    (getHashAwareServer : List UInt8 → G) (keySet : List K) :
    Except Exn (List (Option K × Option V)) := do
  let keySetMarshalled := (keySet.map cache.keyMarshaller.marshall).dedup
  let marshalledResult ←
    RemoteCacheImpl.getAll newGetAllOperation transport getHashAwareServer keySetMarshalled
  marshalledResult.pairs.mapM
    (unmarshallPair cache.keyMarshaller.unmarshall
      fun second => cache.cast <$> cache.keyMarshaller.unmarshall second)

end GetAll

/-! ### What the server has and says -/

def raw (pair : Bytes × Bytes) : List UInt8 × List UInt8 := (pair.1.1, pair.2.1)

structure Stored (cache : RemoteCache K V) where
  entries : List (K × V)
  distinct : (entries.map Prod.fst).Nodup
  pairs : List (Bytes × Bytes)
  marshalled : pairs.map raw =
    entries.map fun e => (cache.keyMarshaller.marshall e.1, cache.valueMarshaller.marshall e.2)

structure Success (o : HotRodOperation) where
  -- A status for success, and a topology that can be taken over.
  compatible : Bool
  topology : Option TopologyUpdate
  quiet : topologyRaises o.factory 0 topology = none

namespace Success

variable {o : HotRodOperation} (success : Success o)

def status : UInt8 := if success.compatible then noErrorStatusCompat else noErrorStatus

def asked (opCode : OpCode) (body : List UInt8) (s : Connection) : Connection :=
  let bytes := header o.messageId opCode.toOpRespCode success.status success.topology ++ body
  { s with
    unread := []
    inTime := 0
    output := []
    coming := some { bytes, arrivals := some (bytes.length, []) } }

theorem awaiting_asked (opCode : OpCode) (body : List UInt8) (s : Connection) :
    Awaiting (success.asked opCode body s)
      (header o.messageId opCode.toOpRespCode success.status success.topology ++ body)
      (some ((header o.messageId opCode.toOpRespCode success.status success.topology
        ++ body).length, [])) :=
  ⟨rfl, rfl, rfl, rfl⟩

variable {opCode : OpCode} {body part rest : List UInt8} {r : R}

theorem receive_returns {finish : UInt8 → ConnectionM R} (reads : Consumes (finish success.status)
    part r) (whole : body = part ++ rest) (s : Connection) :
    ∃ t, o.receive opCode finish (answered (success.asked opCode body s)
      (header o.messageId opCode.toOpRespCode success.status success.topology ++ body)
      (header o.messageId opCode.toOpRespCode success.status success.topology ++ body).length
      []) = .ok r t := by
  subst whole
  exact Operations.receive_returns o reads rfl (Nat.le_refl _) success.quiet

theorem exchange_returns {finish : UInt8 → ConnectionM R} (reads : Consumes (finish success.status)
    part r) (whole : body = part ++ rest) (request : List UInt8) (s : Connection) :
    ∃ t, o.exchange opCode request finish (success.asked opCode body s) = .ok r t := by
  rw [exchange_sent o opCode finish (success.awaiting_asked opCode body s)]
  exact success.receive_returns reads whole s

theorem getAll_returns {listed : List (List UInt8 × List UInt8)} (reads : Consumes
      (if success.status = noErrorStatus then GetAllOperation.readResult else pure []) part listed)
    (whole : body = part ++ rest) {keys : List (List UInt8)} (nonempty : keys ≠ [])
    (s : Connection) :
    ∃ t, GetAllOperation.executeOperation o keys (success.asked .getAll body s) =
      .ok listed t := by
  obtain ⟨item, keySet, rfl⟩ := List.exists_cons_of_ne_nil nonempty
  rw [getAll_sent o (success.awaiting_asked .getAll body s)]
  apply success.receive_returns _ whole s
  exact reads

end Success

/-- All entries, in the order of the server. -/
structure Listing {cache : RemoteCache K V} (stored : Stored cache) (o : HotRodOperation) extends
    Success o where
  listed : List (Bytes × Bytes)
  listed_perm : listed.Perm stored.pairs

def Listing.body {cache : RemoteCache K V} {stored : Stored cache} {o : HotRodOperation}
    (listing : Listing stored o) : List UInt8 :=
  listing.listed.flatMap (fun pair => 1 :: encodePair pair) ++ [0]

/-- For each request the entries that it asks for; their number is sent in 32 bits. -/
structure Selection {cache : RemoteCache K V} (stored : Stored cache)
    (newGetAllOperation : List (List UInt8) → HotRodOperation) where
  success : ∀ keys, Success (newGetAllOperation keys)
  compatible : Bool
  same_server : ∀ keys, (success keys).compatible = compatible
  selected : List (List UInt8) → List (Bytes × Bytes)
  selected_perm : ∀ keys, (selected keys).Perm (stored.pairs.filter fun pair => pair.1.1 ∈ keys)
  countable : ∀ keys, (selected keys).length < 2 ^ 32

namespace Selection

variable {cache : RemoteCache K V} {stored : Stored cache}
  {newGetAllOperation : List (List UInt8) → HotRodOperation}

def body (selection : Selection stored newGetAllOperation) (keys : List (List UInt8)) : List UInt8 :=
  WireFormat.vInt.encode (UInt32.ofNat (selection.selected keys).length)
    ++ (selection.selected keys).flatMap encodePair

def asked (selection : Selection stored newGetAllOperation) (s : List (List UInt8) → Connection)
    (keys : List (List UInt8)) : Connection :=
  (selection.success keys).asked .getAll (selection.body keys) (s keys)

end Selection

/-! ### What is stored -/

namespace Stored

variable {cache : RemoteCache K V} (stored : Stored cache)

def bytes : List (List UInt8 × List UInt8) := stored.pairs.map raw

theorem bytes_distinct : (stored.bytes.map Prod.fst).Nodup := by
  rw [bytes, stored.marshalled, List.map_map]
  have keys : (stored.entries.map fun e => cache.keyMarshaller.marshall e.1) =
      (stored.entries.map Prod.fst).map cache.keyMarshaller.marshall := by
    rw [List.map_map]
    rfl
  change (stored.entries.map fun e => cache.keyMarshaller.marshall e.1).Nodup
  rw [keys]
  exact stored.distinct.map cache.keyMarshaller.marshall_injective

/-- The marshaller of the keys reads the stored values as they are, and its pointer is as
good as one to the value. -/
def ReadAsKeys : Prop :=
  ∀ e ∈ stored.entries, cache.cast <$>
    cache.keyMarshaller.unmarshall (cache.valueMarshaller.marshall e.2) = .ok (some e.2)

/-- The entries themselves are returned, in any order. -/
def Exact (returned : Except Exn (List (Option K × Option V))) : Prop :=
  ∃ items, returned = .ok items ∧ items.Perm (stored.entries.map fun e => (some e.1, some e.2))

theorem exists_order {items : List (List UInt8 × List UInt8)} (ordered : items.Perm stored.bytes) :
    ∃ es : List (K × V), es.Perm stored.entries ∧ items = es.map fun e =>
      (cache.keyMarshaller.marshall e.1, cache.valueMarshaller.marshall e.2) := by
  rw [bytes, stored.marshalled] at ordered
  have composed := List.eq_map_comp_perm fun e : K × V =>
    (cache.keyMarshaller.marshall e.1, cache.valueMarshaller.marshall e.2)
  have found := (congrFun (congrFun composed items) stored.entries).mpr ordered
  obtain ⟨es, same, perm⟩ := found
  exact ⟨es, perm, same⟩

theorem unmarshallPair_marshalled (value : List UInt8 → Except Exn (Option V)) (e : K × V) :
    unmarshallPair cache.keyMarshaller.unmarshall value
        (cache.keyMarshaller.marshall e.1, cache.valueMarshaller.marshall e.2) =
      (fun x => (some e.1, x)) <$> value (cache.valueMarshaller.marshall e.2) := by
  rw [unmarshallPair, cache.keyMarshaller.unmarshall_marshall]
  cases value (cache.valueMarshaller.marshall e.2) with
  | ok x => rfl
  | error raised => rfl

theorem unmarshalled_iff {items : List (List UInt8 × List UInt8)}
    (ordered : items.Perm stored.bytes) (value : List UInt8 → Except Exn (Option V)) :
    stored.Exact (items.mapM (unmarshallPair cache.keyMarshaller.unmarshall value)) ↔
      ∀ e ∈ stored.entries, value (cache.valueMarshaller.marshall e.2) = .ok (some e.2) := by
  obtain ⟨es, perm, rfl⟩ := stored.exists_order ordered
  rw [List.mapM_map]
  constructor
  · intro exact e member
    obtain ⟨out, mapped, same⟩ := exact
    obtain ⟨y, listed, one⟩ := exists_mem_of_mapM mapped (perm.mem_iff.mpr member)
    rw [Function.comp_apply, unmarshallPair_marshalled] at one
    cases read : value (cache.valueMarshaller.marshall e.2) with
    | error raised =>
      rw [read] at one
      cases one
    | ok x =>
      rw [read] at one
      cases one
      -- the entry with the same key can only be this one
      obtain ⟨other, stays, pair⟩ := List.mem_map.mp (same.mem_iff.mp listed)
      injection pair with keys values
      have key : other.1 = e.1 := Option.some.inj keys
      have self : other = e := List.inj_on_of_nodup_map stored.distinct stays member key
      rw [← values, self]
  · intro all
    have one : ∀ e ∈ es, (unmarshallPair cache.keyMarshaller.unmarshall value ∘
        fun e : K × V => (cache.keyMarshaller.marshall e.1, cache.valueMarshaller.marshall e.2)) e =
          .ok (some e.1, some e.2) := by
      intro e member
      rw [Function.comp_apply, unmarshallPair_marshalled, all e (perm.mem_iff.mp member)]
      rfl
    obtain ⟨out, mapped⟩ := exists_mapM_eq_ok.mpr fun e member => ⟨_, one e member⟩
    have copied : out.map id = es.map fun e => (some e.1, some e.2) := by
      apply map_eq_of_mapM mapped
      intro e member y returned
      exact Except.ok.inj (returned.symm.trans (one e member))
    rw [List.map_id] at copied
    exact ⟨out, mapped, copied ▸ perm.map _⟩

end Stored

/-! ### What the operations return -/

theorem execute_of_ok {operation : ConnectionM R} {s t : Connection} {r : R}
    (returned : operation s = .ok r t) : execute operation s = .ok r := by
  rw [execute, returned]

section Returned

variable {cache : RemoteCache K V} {stored : Stored cache}

theorem Listing.executes {o : HotRodOperation} (listing : Listing stored o) (isize : UInt32)
    (s : Connection) :
    execute (BulkGetOperation.executeOperation o isize) (listing.asked .bulkGet listing.body s) =
      .ok (listing.listed.map raw) := by
  have reads : Consumes (readWhileMarked readPair) listing.body (listing.listed.map raw) :=
    consumes_readWhileMarked consumes_readPair (by decide)
  have executed : ∃ t, BulkGetOperation.executeOperation o isize
      (listing.asked .bulkGet listing.body s) = .ok (listing.listed.map raw) t := by
    apply listing.exchange_returns _ (List.append_nil _).symm
    exact reads
  obtain ⟨t, returned⟩ := executed
  exact execute_of_ok returned

theorem consumes_readResult {listed : List (Bytes × Bytes)} (countable : listed.length < 2 ^ 32) :
    Consumes GetAllOperation.readResult
      (WireFormat.vInt.encode (UInt32.ofNat listed.length) ++ listed.flatMap encodePair)
      (listed.map raw) := by
  refine (consumes_read WireFormat.vInt (UInt32.ofNat listed.length)).bind ?_
  rw [UInt32.toNat_ofNat_of_lt' countable]
  exact consumes_readMany fun pair _ => consumes_readPair pair

-- Only one of the two statuses of success is taken for an answer.
theorem Success.getAll_executes {o : HotRodOperation} (success : Success o)
    {listed : List (Bytes × Bytes)} (countable : listed.length < 2 ^ 32)
    {keys : List (List UInt8)} (nonempty : keys ≠ []) (s : Connection) :
    execute (GetAllOperation.executeOperation o keys) (success.asked .getAll
        (WireFormat.vInt.encode (UInt32.ofNat listed.length) ++ listed.flatMap encodePair) s) =
      .ok (if success.compatible then [] else listed.map raw) := by
  have executed : ∃ t, GetAllOperation.executeOperation o keys (success.asked .getAll
      (WireFormat.vInt.encode (UInt32.ofNat listed.length) ++ listed.flatMap encodePair) s) =
        .ok (if success.compatible then [] else listed.map raw) t := by
    cases compatible : success.compatible with
    | false =>
      have status : success.status = noErrorStatus := by
        rw [Success.status, compatible]
        rfl
      apply success.getAll_returns _ (List.append_nil _).symm nonempty
      rw [if_pos status]
      exact consumes_readResult countable
    | true =>
      -- the body is there, and nothing of it is read
      have status : success.status ≠ noErrorStatus := by
        rw [Success.status, compatible]
        decide
      apply success.getAll_returns _ (List.nil_append _).symm nonempty
      rw [if_neg status]
      exact consumes_pure []
  obtain ⟨t, returned⟩ := executed
  exact execute_of_ok returned

structure Lists (whole listed : List (List UInt8 × List UInt8)) (keys : List (List UInt8)) :
    Prop where
  distinct : (listed.map Prod.fst).Nodup
  mem_iff : ∀ k v, (k, v) ∈ listed ↔ (k, v) ∈ whole ∧ k ∈ keys

namespace Lists

variable {whole listed : List (List UInt8 × List UInt8)} {keys : List (List UInt8)}

theorem of_perm {pairs selected : List (Bytes × Bytes)}
    (distinct : ((pairs.map raw).map Prod.fst).Nodup)
    (perm : selected.Perm (pairs.filter fun pair => pair.1.1 ∈ keys)) :
    Lists (pairs.map raw) (selected.map raw) keys where
  distinct := by
    have picked := (perm.map raw).map Prod.fst
    refine picked.nodup_iff.mpr (distinct.sublist ?_)
    exact (List.filter_sublist.map raw).map Prod.fst
  mem_iff k v := by
    have picked := (perm.map raw).mem_iff (a := (k, v))
    simp only [List.mem_map, List.mem_filter, decide_eq_true_eq] at picked
    simp only [List.mem_map]
    rw [picked]
    constructor
    · intro found
      obtain ⟨pair, ⟨member, wanted⟩, same⟩ := found
      cases same
      exact ⟨⟨pair, member, rfl⟩, wanted⟩
    · intro found
      obtain ⟨⟨pair, member, same⟩, wanted⟩ := found
      cases same
      exact ⟨pair, ⟨member, wanted⟩, rfl⟩

theorem nil (keys : List (List UInt8)) : Lists [] [] keys where
  distinct := List.nodup_nil
  mem_iff k v := by simp

theorem mem_lookup (lists : Lists whole listed keys) (k v : List UInt8) :
    v ∈ (FiniteMap.assign (∅ : ByteMap) listed).lookup k ↔ (k, v) ∈ whole ∧ k ∈ keys :=
  (FiniteMap.holds_assign lists.distinct k v).trans (lists.mem_iff k v)

theorem length_le (lists : Lists whole listed keys) : listed.length ≤ keys.length := by
  have asked : listed.map Prod.fst ⊆ keys := by
    intro k member
    obtain ⟨pair, listed, rfl⟩ := List.mem_map.mp member
    exact ((lists.mem_iff pair.1 pair.2).mp listed).2
  have shorter := (List.subperm_of_subset lists.distinct asked).length_le
  rwa [List.length_map] at shorter

end Lists

theorem executeAll_returns {newGetAllOperation : List (List UInt8) → HotRodOperation}
    {transport : List (List UInt8) → Connection} {whole : List (List UInt8 × List UInt8)}
    (distinct : (whole.map Prod.fst).Nodup) (items : List (G × List (List UInt8)))
    (executed : ∀ item ∈ items, ∃ listed, execute (GetAllOperation.executeOperation
        (newGetAllOperation item.2) item.2) (transport item.2) = .ok listed ∧
      Lists whole listed item.2)
    (result : ByteMap) (within : result.Within whole) :
    ∃ merged, RemoteCacheImpl.executeAll newGetAllOperation transport items result = .ok merged ∧
      ∀ k v, v ∈ merged.lookup k ↔
        v ∈ result.lookup k ∨ (k, v) ∈ whole ∧ ∃ item ∈ items, k ∈ item.2 := by
  induction items generalizing result with
  | nil => exact ⟨result, rfl, by simp⟩
  | cons item items ih =>
    obtain ⟨listed, returned, lists⟩ := executed item List.mem_cons_self
    -- every answer is part of what there is, so that no union overwrites anything
    have part : FiniteMap.Within (FiniteMap.assign ∅ listed) whole :=
      fun k v found => ((lists.mem_lookup k v).mp found).1
    obtain ⟨merged, ran, finds⟩ := ih (fun other member => executed other (.tail _ member))
      (result ∪ FiniteMap.assign ∅ listed) (within.union distinct part)
    refine ⟨merged, ?_, ?_⟩
    · rw [RemoteCacheImpl.executeAll, returned]
      exact ran
    · intro k v
      rw [finds, FiniteMap.mem_lookup_union distinct within part, lists.mem_lookup]
      simp only [List.mem_cons, exists_eq_or_imp]
      tauto

theorem getAll_lists [DecidableEq G] {newGetAllOperation : List (List UInt8) → HotRodOperation}
    {transport : List (List UInt8) → Connection} {whole : List (List UInt8 × List UInt8)}
    (distinct : (whole.map Prod.fst).Nodup) (getHashAwareServer : List UInt8 → G)
    (keySet : List (List UInt8))
    (executed : ∀ item ∈ (FiniteMap.groupBy getHashAwareServer keySet).pairs, ∃ listed,
      execute (GetAllOperation.executeOperation (newGetAllOperation item.2) item.2)
        (transport item.2) = .ok listed ∧ Lists whole listed item.2) :
    ∃ merged, RemoteCacheImpl.getAll newGetAllOperation transport getHashAwareServer keySet =
        .ok merged ∧ ∀ k v, v ∈ merged.lookup k ↔ (k, v) ∈ whole ∧ k ∈ keySet := by
  obtain ⟨merged, ran, finds⟩ := executeAll_returns distinct _ executed ∅ FiniteMap.within_empty
  refine ⟨merged, ran, ?_⟩
  intro k v
  rw [finds, AList.lookup_empty, ← FiniteMap.exists_group_iff getHashAwareServer]
  simp

namespace Selection

variable {newGetAllOperation : List (List UInt8) → HotRodOperation}
  (selection : Selection stored newGetAllOperation)

def taken (keys : List (List UInt8)) : List (List UInt8 × List UInt8) :=
  if selection.compatible then [] else (selection.selected keys).map raw

theorem executes {keys : List (List UInt8)} (nonempty : keys ≠ [])
    (s : List (List UInt8) → Connection) :
    execute (GetAllOperation.executeOperation (newGetAllOperation keys) keys)
      (selection.asked s keys) = .ok (selection.taken keys) := by
  rw [taken, ← selection.same_server keys]
  exact (selection.success keys).getAll_executes (selection.countable keys) nonempty (s keys)

theorem taken_lists (keys : List (List UInt8)) :
    Lists (if selection.compatible then [] else stored.bytes) (selection.taken keys) keys := by
  rw [taken]
  split
  · exact .nil keys
  · exact .of_perm stored.bytes_distinct (selection.selected_perm keys)

theorem getAll_returns [DecidableEq G] (getHashAwareServer : List UInt8 → G)
    (s : List (List UInt8) → Connection) {keySet : List (List UInt8)}
    (all : ∀ pair ∈ stored.bytes, pair.1 ∈ keySet) :
    ∃ merged, RemoteCacheImpl.getAll newGetAllOperation (selection.asked s) getHashAwareServer
        keySet = .ok merged ∧
      merged.Holds (if selection.compatible then [] else stored.bytes) := by
  have distinct : ((if selection.compatible then [] else stored.bytes).map Prod.fst).Nodup := by
    split
    · exact List.nodup_nil
    · exact stored.bytes_distinct
  obtain ⟨merged, ran, finds⟩ := getAll_lists distinct getHashAwareServer keySet
    fun item member => ⟨_, selection.executes (FiniteMap.group_ne_nil getHashAwareServer member) s,
      selection.taken_lists item.2⟩
  refine ⟨merged, ran, ?_⟩
  intro k v
  rw [finds, and_iff_left_iff_imp]
  intro member
  split at member
  · cases member
  · exact all (k, v) member

end Selection

end Returned

/-! ### The calls are exact -/

section Exactness

variable {cache : RemoteCache K V} {stored : Stored cache}

theorem mapM_cast (items : List (List UInt8 × List UInt8)) :
    (fun mbuf => mbuf.map fun item => (item.1, cache.cast item.2)) <$>
        items.mapM (unmarshallPair (KeyUnmarshallerFtor cache) (ValueUnmarshallerFtor cache)) =
      items.mapM (unmarshallPair cache.keyMarshaller.unmarshall
        fun second => cache.cast <$> cache.keyMarshaller.unmarshall second) := by
  induction items with
  | nil => rfl
  | cons item items ih =>
    rw [List.mapM_cons, List.mapM_cons, ← ih]
    simp only [unmarshallPair, KeyUnmarshallerFtor, ValueUnmarshallerFtor,
      RemoteCacheBase.baseKeyUnmarshall]
    cases cache.keyMarshaller.unmarshall item.1 with
    | error raised => rfl
    | ok k =>
      cases cache.keyMarshaller.unmarshall item.2 with
      | error raised => rfl
      | ok v =>
        cases items.mapM (unmarshallPair (KeyUnmarshallerFtor cache)
          (ValueUnmarshallerFtor cache)) with
        | error raised => rfl
        | ok out => rfl

theorem Listing.getBulk_exact_iff {o : HotRodOperation} (listing : Listing stored o)
    (s : Connection) :
    stored.Exact (RemoteCache.getBulk cache o (listing.asked .bulkGet listing.body s)) ↔
      stored.ReadAsKeys := by
  have ordered : (listing.listed.map raw).Perm stored.bytes := listing.listed_perm.map raw
  have distinct : ((listing.listed.map raw).map Prod.fst).Nodup :=
    (ordered.map Prod.fst).nodup_iff.mpr stored.bytes_distinct
  have assigned := (FiniteMap.holds_assign distinct).pairs_perm distinct
  have called : RemoteCache.getBulk cache o (listing.asked .bulkGet listing.body s) =
      (FiniteMap.assign (∅ : ByteMap) (listing.listed.map raw)).pairs.mapM
        (unmarshallPair cache.keyMarshaller.unmarshall
          fun second => cache.cast <$> cache.keyMarshaller.unmarshall second) := by
    rw [RemoteCache.getBulk, RemoteCacheImpl.getBulk, listing.executes, ← mapM_cast]
    rfl
  rw [called]
  exact stored.unmarshalled_iff (assigned.trans ordered) _

theorem Selection.getAll_exact_iff [DecidableEq G]
    {newGetAllOperation : List (List UInt8) → HotRodOperation}
    (selection : Selection stored newGetAllOperation) (getHashAwareServer : List UInt8 → G)
    (s : List (List UInt8) → Connection) :
    stored.Exact (RemoteCache.getAll newGetAllOperation (selection.asked s) cache
        getHashAwareServer (stored.entries.map Prod.fst)) ↔
      stored.ReadAsKeys ∧ (selection.compatible = true → stored.entries = []) := by
  have all : ∀ pair ∈ stored.bytes, pair.1 ∈
      ((stored.entries.map Prod.fst).map cache.keyMarshaller.marshall).dedup := by
    intro pair member
    rw [Stored.bytes, stored.marshalled] at member
    obtain ⟨e, listed, rfl⟩ := List.mem_map.mp member
    exact List.mem_dedup.mpr (List.mem_map_of_mem (List.mem_map_of_mem listed))
  obtain ⟨merged, ran, holds⟩ := selection.getAll_returns getHashAwareServer s all
  have called : RemoteCache.getAll newGetAllOperation (selection.asked s) cache
      getHashAwareServer (stored.entries.map Prod.fst) =
        merged.pairs.mapM (unmarshallPair cache.keyMarshaller.unmarshall
          fun second => cache.cast <$> cache.keyMarshaller.unmarshall second) := by
    rw [RemoteCache.getAll, ran]
    rfl
  rw [called]
  cases compatible : selection.compatible with
  | false =>
    rw [compatible] at holds
    rw [stored.unmarshalled_iff (holds.pairs_perm stored.bytes_distinct)]
    exact (and_iff_left fun absurd => by cases absurd).symm
  | true =>
    -- the result is empty, which is right for an empty map
    rw [compatible] at holds
    have empty : merged.pairs = [] := (holds.pairs_perm List.nodup_nil).eq_nil
    rw [empty]
    constructor
    · intro exact
      obtain ⟨out, returned, same⟩ := exact
      cases returned
      have none : stored.entries = [] := List.map_eq_nil_iff.mp same.symm.eq_nil
      exact ⟨fun e member => by simp [none] at member, fun _ => none⟩
    · intro held
      exact ⟨[], rfl, by rw [held.2 rfl]; exact List.Perm.nil⟩

/-- `getBulk` and `getAll` return the entries of the map exactly if the marshaller of the keys
reads all of its values as they are, and no answer to `getAll` is one of compatibility mode. -/
theorem bulk_exact_iff [DecidableEq G] {o : HotRodOperation} (listing : Listing stored o)
    {newGetAllOperation : List (List UInt8) → HotRodOperation}
    (selection : Selection stored newGetAllOperation) (getHashAwareServer : List UInt8 → G)
    (s : Connection) (ss : List (List UInt8) → Connection) :
    (stored.Exact (RemoteCache.getBulk cache o (listing.asked .bulkGet listing.body s)) ∧
      stored.Exact (RemoteCache.getAll newGetAllOperation (selection.asked ss) cache
        getHashAwareServer (stored.entries.map Prod.fst))) ↔
      stored.ReadAsKeys ∧ (selection.compatible = true → stored.entries = []) := by
  rw [listing.getBulk_exact_iff s, selection.getAll_exact_iff getHashAwareServer ss]
  constructor
  · exact And.right
  · intro held
    exact ⟨held.1, held⟩

end Exactness

/-! ### A marshaller that marks its values -/

def marked : Marshaller (List UInt8) where
  marshall x := 1 :: x
  unmarshall
    | 1 :: x => .ok (some x)
    | _ => .error (.hotRodClient "not marked")
  unmarshall_marshall _ := rfl

def unmarked : Marshaller (List UInt8) where
  marshall x := x
  unmarshall x := .ok (some x)
  unmarshall_marshall _ := rfl

def unmarkedCache : RemoteCache (List UInt8) (List UInt8) where
  keyMarshaller := unmarked
  valueMarshaller := unmarked
  cast := id

def oneEntry : Stored unmarkedCache where
  entries := [([0x6B], [0x76])]
  distinct := List.nodup_singleton _
  pairs := [(.one 0x6B, .one 0x76)]
  marshalled := rfl

theorem bulk_exact_unmarked :
    ∃ (listing : Listing oneEntry .plain) (selection : Selection oneEntry fun _ => .plain),
      oneEntry.Exact (RemoteCache.getBulk unmarkedCache .plain
          (listing.asked .bulkGet listing.body { hostname := "localhost", port := 11222 })) ∧
        oneEntry.Exact (RemoteCache.getAll (fun _ => .plain)
          (selection.asked fun _ => { hostname := "localhost", port := 11222 }) unmarkedCache
          (fun _ => 0) (oneEntry.entries.map Prod.fst)) := by
  let listing : Listing oneEntry .plain := {
    compatible := false
    topology := none
    quiet := rfl
    listed := oneEntry.pairs
    listed_perm := .refl _ }
  let selection : Selection oneEntry fun _ => .plain := {
    success := fun _ => { compatible := false, topology := none, quiet := rfl }
    compatible := false
    same_server := fun _ => rfl
    selected := fun keys => oneEntry.pairs.filter fun pair => pair.1.1 ∈ keys
    selected_perm := fun _ => .refl _
    countable := fun _ => (List.length_filter_le _ _).trans_lt (by decide) }
  refine ⟨listing, selection, (bulk_exact_iff listing selection (fun _ => 0) _ _).mpr ⟨?_, ?_⟩⟩
  · intro e member
    rw [List.mem_singleton.mp member]
    rfl
  · exact Bool.noConfusion

/-- Values of the type of the keys, so that the cast does nothing, come back with the mark. -/
theorem not_exact_of_marked :
    ¬ ∀ (keyMarshaller valueMarshaller : Marshaller (List UInt8))
        (stored : Stored { keyMarshaller, valueMarshaller, cast := id }) (o : HotRodOperation)
        (listing : Listing stored o) (s : Connection),
      stored.Exact (RemoteCache.getBulk { keyMarshaller, valueMarshaller, cast := id } o
        (listing.asked .bulkGet listing.body s)) := by
  intro all
  let pairs : List (Bytes × Bytes) := [(⟨[0x6B], by decide⟩, ⟨[1, 0x76], by decide⟩)]
  let stored : Stored { keyMarshaller := unmarked, valueMarshaller := marked, cast := id } :=
    { entries := [([0x6B], [0x76])]
      distinct := List.nodup_singleton _
      pairs
      marshalled := rfl }
  let listing : Listing stored .plain :=
    { compatible := false
      topology := none
      quiet := rfl
      listed := pairs
      listed_perm := .refl _ }
  have exact := all unmarked marked stored .plain listing { hostname := "localhost", port := 11222 }
  have read := (listing.getBulk_exact_iff _).mp exact ([0x6B], [0x76]) List.mem_cons_self
  cases read

end HotRod.Operations.BulkReads
