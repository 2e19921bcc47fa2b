import HotRod.Operations.BulkReads

/-! `getAll` with its keys split over the servers.

A server answers a request that it can read: as many keys as are announced, and nothing behind
them. An operation goes to the server of its first key, so there is none without any keys. -/

set_option autoImplicit false

namespace HotRod.Operations.BulkReads

open Semantics.Execution
open Protocol HotRodConstants
open WireFormat (Bytes Counted)

variable {G : Type}

/-! ### Requests -/

def request (keySet : List (List UInt8)) : List UInt8 :=
  writeVInt (UInt32.ofNat keySet.length) ++ keySet.flatMap writeArray

/-- The keys that a server reads in the request. -/
def announced (keySet : List (List UInt8)) : Option (Counted Bytes) :=
  match WireFormat.array.counted.decode (request keySet) with
  | some (keys, []) => some keys
  | _ => none

def requested (keySet : List (List UInt8)) : List (List UInt8) :=
  match announced keySet with
  | some keys => keys.1.map Subtype.val
  | none => []

structure Sendable (keySet : List (List UInt8)) : Prop where
  -- The number of keys and the lengths of all of them fit 32 bits.
  few : keySet.length < 2 ^ 32
  short : ∀ key ∈ keySet, key.length < 2 ^ 32

theorem exists_bytes {keySet : List (List UInt8)} (short : ∀ key ∈ keySet, key.length < 2 ^ 32) :
    ∃ keys : List Bytes, keys.map Subtype.val = keySet := by
  induction keySet with
  | nil => exact ⟨[], rfl⟩
  | cons key rest ih =>
    obtain ⟨keys, same⟩ := ih fun other member => short other (List.mem_cons_of_mem _ member)
    exact ⟨⟨key, short key List.mem_cons_self⟩ :: keys, congrArg (key :: ·) same⟩

theorem decode_request (keys : List Bytes) :
    ∃ read : Counted Bytes, read.1 = keys.take (UInt32.ofNat keys.length).toNat ∧
      WireFormat.array.counted.decode (request (keys.map Subtype.val)) =
        some (read, (keys.drop (UInt32.ofNat keys.length).toNat).flatMap
          WireFormat.array.encode) := by
  have written : request (keys.map Subtype.val) =
      WireFormat.vInt.encode (UInt32.ofNat keys.length) ++
        ((keys.take (UInt32.ofNat keys.length).toNat).flatMap WireFormat.array.encode ++
          (keys.drop (UInt32.ofNat keys.length).toNat).flatMap WireFormat.array.encode) := by
    rw [← List.flatMap_append, List.take_append_drop, request, List.length_map,
      List.flatMap_map]
    rfl
  have taken : (keys.take (UInt32.ofNat keys.length).toNat).length =
      (UInt32.ofNat keys.length).toNat := by
    rw [List.length_take, UInt32.toNat_ofNat']
    exact Nat.min_eq_left (Nat.mod_le _ _)
  refine ⟨⟨_, taken.trans_lt (UInt32.ofNat keys.length).toNat_lt⟩, rfl, ?_⟩
  rw [written]
  simp only [WireFormat.counted, WireFormat.decode_encode_append, Option.bind_some,
    WireFormat.decodeMany_encode _ _ taken, Option.map_some]

theorem announced_of_few {keys : List Bytes} (few : keys.length < 2 ^ 32) :
    ∃ read, announced (keys.map Subtype.val) = some read ∧ read.1 = keys := by
  obtain ⟨read, same, decoded⟩ := decode_request keys
  rw [UInt32.toNat_ofNat_of_lt' few] at same decoded
  rw [List.drop_length, List.flatMap_nil] at decoded
  rw [List.take_length] at same
  refine ⟨read, ?_, same⟩
  rw [announced, decoded]

-- Where the number does not fit, keys stay behind.
theorem few_of_announced {keys : List Bytes} {read : Counted Bytes}
    (came : announced (keys.map Subtype.val) = some read) : keys.length < 2 ^ 32 := by
  obtain ⟨first, -, decoded⟩ := decode_request keys
  rw [announced, decoded] at came
  have all : keys.drop (UInt32.ofNat keys.length).toNat = [] := by
    cases behind : keys.drop (UInt32.ofNat keys.length).toNat with
    | nil => rfl
    | cons key later =>
      rw [behind, List.flatMap_cons] at came
      split at came
      · next whole =>
        have both := congrArg Prod.snd (Option.some.inj whole)
        exact absurd (List.append_eq_nil_iff.mp both).1 (array_encode_ne_nil key)
      · cases came
  exact (List.drop_eq_nil_iff.mp all).trans_lt (UInt32.ofNat keys.length).toNat_lt

theorem Sendable.announced {keySet : List (List UInt8)} (sendable : Sendable keySet) :
    ∃ read, announced keySet = some read ∧ read.1.map Subtype.val = keySet := by
  obtain ⟨keys, rfl⟩ := exists_bytes sendable.short
  have few : keys.length < 2 ^ 32 := by
    have number := sendable.few
    rwa [List.length_map] at number
  obtain ⟨read, came, same⟩ := announced_of_few few
  exact ⟨read, came, congrArg _ same⟩

theorem Sendable.requested {keySet : List (List UInt8)} (sendable : Sendable keySet) :
    requested keySet = keySet := by
  obtain ⟨read, came, same⟩ := sendable.announced
  rw [BulkReads.requested, came]
  exact same

theorem Sendable.group [DecidableEq G] {keySet : List (List UInt8)} (sendable : Sendable keySet)
    (getHashAwareServer : List UInt8 → G) {item : G × List (List UInt8)}
    (member : item ∈ (FiniteMap.groupBy getHashAwareServer keySet).pairs) : Sendable item.2 where
  few := by
    have all := (FiniteMap.groupBy_perm getHashAwareServer keySet).length_eq
    obtain ⟨before, behind, whole⟩ := List.append_of_mem member
    rw [whole, List.flatMap_append, List.flatMap_cons, List.length_append,
      List.length_append] at all
    have number := sendable.few
    omega
  short key inside :=
    sendable.short key ((FiniteMap.exists_group_iff getHashAwareServer).mp ⟨item, member, inside⟩)

/-! ### Servers -/

/-- What the servers of the cluster have, and how they answer. -/
structure Server (newGetAllOperation : List (List UInt8) → HotRodOperation) where
  content : List (Bytes × Bytes)
  distinct : ((content.map raw).map Prod.fst).Nodup
  success : ∀ keys, Success (newGetAllOperation keys)
  compatible : Bool
  same_server : ∀ keys, (success keys).compatible = compatible
  selected : List (List UInt8) → List (Bytes × Bytes)
  selected_perm : ∀ keys, (selected keys).Perm (content.filter fun pair => pair.1.1 ∈ keys)

namespace Server

variable {newGetAllOperation : List (List UInt8) → HotRodOperation}
  (server : Server newGetAllOperation)

def body (keys : List (List UInt8)) : List UInt8 :=
  WireFormat.vInt.encode (UInt32.ofNat (server.selected keys).length)
    ++ (server.selected keys).flatMap encodePair

def asked (s : List (List UInt8) → Connection) (keySet : List (List UInt8)) : Connection :=
  match announced keySet with
  | some keys => (server.success keySet).asked .getAll (server.body (keys.1.map Subtype.val))
      (s keySet)
  | none => { s keySet with unread := [], inTime := 0, output := [], coming := none }

def restricted (keySet : List (List UInt8)) : List (List UInt8 × List UInt8) :=
  (server.content.map raw).filter fun pair => pair.1 ∈ keySet

end Server

/-- One operation for all keys, if it has a first key: `getTransport` looks at
`*keySet.begin()`. -/
def getAllAtOnce (newGetAllOperation : List (List UInt8) → HotRodOperation)
    (transport : List (List UInt8) → Connection) (keySet : List (List UInt8)) :
    Option (Except Exn ByteMap) :=
  keySet.head?.map fun _ => do
    let received ← execute
      (GetAllOperation.executeOperation (newGetAllOperation keySet) keySet) (transport keySet)
    pure (FiniteMap.assign ∅ received)

/-- The requests together ask for every key once, and what is merged is the content of the
keys, and what one operation returns. -/
structure SplitExact [DecidableEq G] {newGetAllOperation : List (List UInt8) → HotRodOperation}
    (server : Server newGetAllOperation) (s : List (List UInt8) → Connection)
    (getHashAwareServer : List UInt8 → G) (keySet : List (List UInt8)) : Prop where
  once : ((FiniteMap.groupBy getHashAwareServer keySet).pairs.flatMap fun item =>
    requested item.2).Perm keySet
  same : ∃ merged,
    RemoteCacheImpl.getAll newGetAllOperation (server.asked s) getHashAwareServer keySet =
        .ok merged ∧
      merged.Holds (server.restricted keySet) ∧
      ∀ result, getAllAtOnce newGetAllOperation (server.asked s) keySet = some result →
        ∃ single, result = .ok single ∧ ∀ k, merged.lookup k = single.lookup k

section Exactness

variable [DecidableEq G] {newGetAllOperation : List (List UInt8) → HotRodOperation}
  {server : Server newGetAllOperation} {s : List (List UInt8) → Connection}
  {getHashAwareServer : List UInt8 → G} {keySet : List (List UInt8)}

/-! ### One request -/

-- What the client takes from an answer.
def Server.visible (server : Server newGetAllOperation) : List (List UInt8 × List UInt8) :=
  if server.compatible then [] else server.content.map raw

theorem Server.visible_distinct (server : Server newGetAllOperation) :
    (server.visible.map Prod.fst).Nodup := by
  rw [visible]
  split
  · exact List.nodup_nil
  · exact server.distinct

theorem Server.executes (server : Server newGetAllOperation)
    (s : List (List UInt8) → Connection) (sendable : Sendable keySet) (nonempty : keySet ≠ []) :
    ∃ listed, execute (GetAllOperation.executeOperation (newGetAllOperation keySet) keySet)
        (server.asked s keySet) = .ok listed ∧ Lists server.visible listed keySet := by
  obtain ⟨read, came, same⟩ := sendable.announced
  have lists := Lists.of_perm server.distinct (server.selected_perm keySet)
  have countable : (server.selected keySet).length < 2 ^ 32 := by
    have number := lists.length_le
    rw [List.length_map] at number
    exact number.trans_lt sendable.few
  have returned := (server.success keySet).getAll_executes countable nonempty (s keySet)
  have answers : server.asked s keySet =
      (server.success keySet).asked .getAll (server.body keySet) (s keySet) := by
    rw [asked, came]
    simp only [same]
  rw [answers]
  refine ⟨_, returned, ?_⟩
  rw [server.same_server, visible]
  split
  · exact .nil keySet
  · exact lists

theorem writeKeys_unanswered (keys : List (List UInt8)) {t : Connection} (unread : t.unread = [])
    (silent : t.coming = none) :
    ∃ u, GetAllOperation.writeKeys keys t = .ok () u ∧ u.unread = [] := by
  induction keys generalizing t with
  | nil => exact ⟨t, rfl, unread⟩
  | cons key rest ih =>
    have flushed : flush (t.filled (writeArray key)) =
        .ok () { t.filled (writeArray key) with output := [] } := by
      rw [flush, bind_of_ok (get_apply _)]
      simp only [Connection.filled, silent]
      rfl
    rw [GetAllOperation.writeKeys, bind_of_ok (write_apply _ _), bind_of_ok flushed]
    exact ih unread silent

theorem Server.not_executes (unread : announced keySet = none)
    (listed : List (List UInt8 × List UInt8)) :
    execute (GetAllOperation.executeOperation (newGetAllOperation keySet) keySet)
      (server.asked s keySet) ≠ .ok listed := by
  intro returned
  have idle : server.asked s keySet =
      { s keySet with unread := [], inTime := 0, output := [], coming := none } := by
    rw [asked, unread]
  have starts : (server.asked s keySet).unread = [] := by rw [idle]
  have silent : (server.asked s keySet).coming = none := by rw [idle]
  obtain ⟨written, header⟩ :=
    writeHeader_eq (newGetAllOperation keySet) .getAll (server.asked s keySet)
  obtain ⟨u, wrote, empty⟩ := writeKeys_unanswered keySet
    (t := ((server.asked s keySet).filled (requestMagic :: written)).filled
      (writeVInt (UInt32.ofNat keySet.length))) starts silent
  rw [execute, GetAllOperation.executeOperation, bind_of_ok header, bind_of_ok (write_apply _ _),
    bind_of_ok wrote, receive_starved _ empty] at returned
  cases returned

/-! ### All of them -/

theorem Server.getAll_returns (server : Server newGetAllOperation)
    (s : List (List UInt8) → Connection) (getHashAwareServer : List UInt8 → G)
    (sendable : Sendable keySet) :
    ∃ merged, RemoteCacheImpl.getAll newGetAllOperation (server.asked s) getHashAwareServer
        keySet = .ok merged ∧
      ∀ k v, v ∈ merged.lookup k ↔ (k, v) ∈ server.visible ∧ k ∈ keySet :=
  getAll_lists server.visible_distinct getHashAwareServer keySet fun _ member =>
    server.executes s (sendable.group getHashAwareServer member)
      (FiniteMap.group_ne_nil getHashAwareServer member)

theorem requested_once (sendable : Sendable keySet) (getHashAwareServer : List UInt8 → G) :
    ((FiniteMap.groupBy getHashAwareServer keySet).pairs.flatMap fun item =>
      requested item.2).Perm keySet := by
  have whole : ((FiniteMap.groupBy getHashAwareServer keySet).pairs.flatMap fun item =>
      requested item.2) = (FiniteMap.groupBy getHashAwareServer keySet).pairs.flatMap Prod.snd :=
    List.flatMap_congr fun _ member => (sendable.group getHashAwareServer member).requested
  rw [whole]
  exact FiniteMap.groupBy_perm getHashAwareServer keySet

theorem mem_restricted {k v : List UInt8} :
    (k, v) ∈ server.restricted keySet ↔ (k, v) ∈ server.content.map raw ∧ k ∈ keySet := by
  rw [Server.restricted, List.mem_filter, decide_eq_true_eq]

theorem announced_of_splitExact (exact_split : SplitExact server s getHashAwareServer keySet)
    {key : List UInt8} (member : key ∈ keySet) : announced keySet ≠ none := by
  intro unread
  obtain ⟨merged, -, -, agrees⟩ := exact_split.same
  obtain ⟨first, head⟩ : ∃ first, keySet.head? = some first :=
    Option.ne_none_iff_exists'.mp (List.head?_eq_none_iff.not.mpr (List.ne_nil_of_mem member))
  have called : ∃ result, getAllAtOnce newGetAllOperation (server.asked s) keySet = some result := by
    rw [getAllAtOnce, head]
    exact ⟨_, rfl⟩
  obtain ⟨result, called⟩ := called
  obtain ⟨single, rfl, -⟩ := agrees result called
  rw [getAllAtOnce, head, Option.map_some, Option.some.injEq] at called
  cases received : execute (GetAllOperation.executeOperation (newGetAllOperation keySet) keySet)
    (server.asked s keySet) with
  | ok listed => exact Server.not_executes unread listed received
  | error e =>
    rw [received] at called
    cases called

theorem sendable_of_splitExact (exact_split : SplitExact server s getHashAwareServer keySet) :
    Sendable keySet := by
  have short : ∀ key ∈ keySet, key.length < 2 ^ 32 := by
    intro key member
    -- the key is one of those that a server reads
    obtain ⟨item, -, inside⟩ := List.mem_flatMap.mp (exact_split.once.mem_iff.mpr member)
    rw [requested] at inside
    split at inside
    · obtain ⟨bytes, -, rfl⟩ := List.mem_map.mp inside
      exact bytes.2
    · cases inside
  refine ⟨?_, short⟩
  cases keySet with
  | nil => exact Nat.two_pow_pos 32
  | cons first rest =>
    have read := announced_of_splitExact exact_split List.mem_cons_self
    obtain ⟨counted, came⟩ := Option.ne_none_iff_exists'.mp read
    obtain ⟨keys, same⟩ := exists_bytes short
    rw [← same] at came ⊢
    rw [List.length_map]
    exact few_of_announced came

/-- `getAll` is as good as one operation, and returns the content of the keys, exactly if the
keys can be sent and the servers do not answer in compatibility mode what would not be empty. -/
theorem split_exact_iff (server : Server newGetAllOperation) (s : List (List UInt8) → Connection)
    (getHashAwareServer : List UInt8 → G) (keySet : List (List UInt8)) :
    SplitExact server s getHashAwareServer keySet ↔
      Sendable keySet ∧ (server.compatible = true → server.restricted keySet = []) := by
  constructor
  · intro exact_split
    have sendable := sendable_of_splitExact exact_split
    refine ⟨sendable, ?_⟩
    intro compatible
    obtain ⟨merged, ran, holds, -⟩ := exact_split.same
    obtain ⟨other, ran', finds⟩ := server.getAll_returns s getHashAwareServer sendable
    rw [ran] at ran'
    cases ran'
    rw [List.eq_nil_iff_forall_not_mem]
    intro pair member
    have found := (finds pair.1 pair.2).mp ((holds pair.1 pair.2).mpr member)
    rw [Server.visible, if_pos compatible] at found
    cases found.1
  · intro held
    obtain ⟨sendable, empty⟩ := held
    obtain ⟨merged, ran, finds⟩ := server.getAll_returns s getHashAwareServer sendable
    refine ⟨requested_once sendable getHashAwareServer, merged, ran, ?_, ?_⟩
    · intro k v
      rw [finds, Server.visible]
      split
      · next compatible =>
        rw [empty compatible]
        simp
      · exact mem_restricted.symm
    · intro result called
      obtain ⟨first, head, rfl⟩ := Option.map_eq_some_iff.mp called
      have nonempty : keySet ≠ [] := List.ne_nil_of_mem (List.mem_of_head? head)
      obtain ⟨listed, returned, lists⟩ := server.executes s sendable nonempty
      refine ⟨FiniteMap.assign ∅ listed, by rw [returned]; rfl, fun k => ?_⟩
      apply Option.ext
      intro v
      rw [← Option.mem_def, ← Option.mem_def, finds, lists.mem_lookup]

def compatibleServer : Server fun _ => .plain where
  content := [(.one 1, .one 2)]
  distinct := by decide
  success := fun _ => { compatible := true, topology := none, quiet := rfl }
  compatible := true
  same_server := fun _ => rfl
  selected := fun keys => [(Bytes.one 1, Bytes.one 2)].filter fun pair => pair.1.1 ∈ keys
  selected_perm := fun _ => .refl _

/-- Its answer has a status of success that the operation does not know. -/
theorem not_split_exact_of_compatible :
    ¬ SplitExact compatibleServer (fun _ => { hostname := "localhost", port := 11222 })
      (fun _ => 0) [[1]] := by
  intro exact_split
  have sendable := sendable_of_splitExact exact_split
  obtain ⟨merged, ran, holds, -⟩ := exact_split.same
  obtain ⟨other, ran', finds⟩ := compatibleServer.getAll_returns _ (fun _ => 0) sendable
  rw [ran] at ran'
  cases ran'
  have there : [2] ∈ merged.lookup [1] := (holds [1] [2]).mpr (by decide)
  cases ((finds [1] [2]).mp there).1

end Exactness

end HotRod.Operations.BulkReads
