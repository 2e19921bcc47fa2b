import HotRod.Operations.Exchanges

/-! PREPARE on the wire, against the grammar of the protocol.

The decoder reads the body of the request as a Hot Rod 2.x server does: the two
nibbles of the unit byte say whether a lifespan and a max-idle follow, which is
also how `Codec22::writeExpirationParams` writes them. -/

set_option autoImplicit false

namespace HotRod.Operations

open Semantics.Execution
open Protocol HotRodConstants

namespace TimeUnit

def SECONDS : UInt8 := 0x00
def DEFAULT : UInt8 := 0x07
def INFINITUM : UInt8 := 0x08

end TimeUnit

/-! ### The grammar -/

abbrev Duration := Option (UInt8 × UInt64)

structure StoredValue where
  lifespan : Duration
  maxIdle : Duration
  value : List UInt8
  deriving DecidableEq, Repr

structure PreparedWrite where
  key : List UInt8
  controlByte : UInt8
  version : Option UInt64
  stored : Option StoredValue
  deriving DecidableEq, Repr

structure PrepareRequest where
  formatId : UInt32
  globalTransactionId : List UInt8
  branchQualifier : List UInt8
  onePhase : UInt8
  writes : List PreparedWrite
  deriving DecidableEq, Repr

def decodeArray (bytes : List UInt8) : Option (List UInt8 × List UInt8) := do
  let (array, bytes) ← WireFormat.array.decode bytes
  some (array.1, bytes)

-- A signed integer as a VInt: the lowest bit is the sign.
def decodeSignedInt (bytes : List UInt8) : Option (UInt32 × List UInt8) := do
  let (n, bytes) ← WireFormat.vInt.decode bytes
  some ((n >>> 1) ^^^ (0 - (n &&& 1)), bytes)

-- The unit decides whether an amount follows.
def decodeDuration (unit : UInt8) (bytes : List UInt8) : Option (Duration × List UInt8) :=
  if unit = TimeUnit.DEFAULT ∨ unit = TimeUnit.INFINITUM then some (none, bytes)
  else do
    let (amount, bytes) ← WireFormat.vLong.decode bytes
    some (some (unit, amount), bytes)

def decodeStored (bytes : List UInt8) : Option (StoredValue × List UInt8) := do
  let (units, bytes) ← WireFormat.byte.decode bytes
  let (lifespan, bytes) ← decodeDuration (units >>> 4) bytes
  let (maxIdle, bytes) ← decodeDuration (units &&& 0x0F) bytes
  let (value, bytes) ← decodeArray bytes
  some ({ lifespan, maxIdle, value }, bytes)

def decodeWhen {R : Type} (present : Bool) (decode : List UInt8 → Option (R × List UInt8))
    (bytes : List UInt8) : Option (Option R × List UInt8) :=
  if present then do
    let (r, bytes) ← decode bytes
    some (some r, bytes)
  else some (none, bytes)

def decodeWrite (bytes : List UInt8) : Option (PreparedWrite × List UInt8) := do
  let (key, bytes) ← decodeArray bytes
  let (controlByte, bytes) ← WireFormat.byte.decode bytes
  let (version, bytes) ← decodeWhen (controlByte &&& 0x03 = 0) WireFormat.long.decode bytes
  let (stored, bytes) ← decodeWhen (controlByte &&& 0x04 = 0) decodeStored bytes
  some ({ key, controlByte, version, stored }, bytes)

def decodeWrites : Nat → List UInt8 → Option (List PreparedWrite × List UInt8)
  | 0, bytes => some ([], bytes)
  | count + 1, bytes => do
    let (write, bytes) ← decodeWrite bytes
    let (writes, bytes) ← decodeWrites count bytes
    some (write :: writes, bytes)

def decodePrepare (bytes : List UInt8) : Option (PrepareRequest × List UInt8) := do
  let (formatId, bytes) ← decodeSignedInt bytes
  let (globalTransactionId, bytes) ← decodeArray bytes
  let (branchQualifier, bytes) ← decodeArray bytes
  let (onePhase, bytes) ← WireFormat.byte.decode bytes
  let (count, bytes) ← WireFormat.vInt.decode bytes
  let (writes, bytes) ← decodeWrites count.toNat bytes
  some ({ formatId, globalTransactionId, branchQualifier, onePhase, writes }, bytes)

/-! ### What the operation writes -/

def formatId : UInt32 := 0x48525458

namespace PrepareCommitOperation

def writeBody (xid : XID) (context : List PreparedEntry) : ConnectionM PUnit := do
  write (writeXID xid ++ writeByte 0 ++ writeVInt (UInt32.ofNat context.length))
  writeEntries context

theorem executeOperation_eq (o : HotRodOperation) (xid : XID) (context : List PreparedEntry) :
    executeOperation o xid context =
      (o.writeHeader .prepare >>= fun _ => writeBody xid context >>= fun _ => flush >>= fun _ =>
        o.receive .prepare fun _ => read4ByteInt) := by
  simp only [executeOperation, writeBody, bind_assoc]

end PrepareCommitOperation

/-- The bytes of the marshalled value; `carries` below says that there are any. -/
def PreparedEntry.value (e : PreparedEntry) : List UInt8 :=
  match e.marshalled with
  | .ok value => value
  | .error _ => []

def PreparedEntry.Carries (e : PreparedEntry) : Prop := ∃ value, e.marshalled = .ok value

namespace PrepareCommitOperation

def storedBytes (e : PreparedEntry) : List UInt8 :=
  writeByte 0x77 ++ writeTime e.lifespan ++ writeTime e.maxIdle ++ writeArray e.value

def entryBytes (e : PreparedEntry) : List UInt8 :=
  writeArray e.key ++ writeByte e.controlByte
    ++ (if e.controlByte &&& 0x03 = 0 then writeLong e.version else [])
    ++ (if e.controlByte &&& 0x04 = 0 then storedBytes e else [])

theorem writeEntry_of_carries {e : PreparedEntry} (carries : e.Carries) (s : Connection) :
    writeEntry e s = .ok () (s.filled (entryBytes e)) := by
  obtain ⟨value, marshalled⟩ := carries
  rw [writeEntry, bind_of_ok (write_apply _ s), entryBytes]
  by_cases stored : e.controlByte &&& 0x04 = 0
  · rw [if_pos stored, if_pos stored, bind_of_ok (write_apply _ _), filled_filled, marshalled]
    simp only [write_apply, filled_filled, storedBytes, PreparedEntry.value, marshalled,
      List.append_assoc]
  · rw [if_neg stored, if_neg stored, pure_apply, List.append_nil]

theorem writeEntries_of_carries {context : List PreparedEntry}
    (carries : ∀ e ∈ context, e.Carries) (s : Connection) :
    writeEntries context s = .ok () (s.filled (context.flatMap entryBytes)) := by
  induction context generalizing s with
  | nil => simp [writeEntries, Connection.filled]
  | cons e context ih =>
    obtain ⟨first, rest⟩ := List.forall_mem_cons.mp carries
    rw [writeEntries, bind_of_ok (writeEntry_of_carries first s), ih rest, filled_filled,
      List.flatMap_cons]

def bodyBytes (xid : XID) (context : List PreparedEntry) : List UInt8 :=
  writeXID xid ++ writeByte 0 ++ writeVInt (UInt32.ofNat context.length)
    ++ context.flatMap entryBytes

theorem writeBody_of_carries (xid : XID) {context : List PreparedEntry}
    (carries : ∀ e ∈ context, e.Carries) (s : Connection) :
    writeBody xid context s = .ok () (s.filled (bodyBytes xid context)) := by
  rw [writeBody, bind_of_ok (write_apply _ s), writeEntries_of_carries carries, filled_filled,
    bodyBytes]

end PrepareCommitOperation

/-! ### The request the caller means -/

-- A duration in seconds; the context keeps zero and negative ones for none.
def duration (time : Int) : Duration :=
  if 0 < time then some (TimeUnit.SECONDS, UInt64.ofNat time.toNat) else none

def PreparedEntry.write (e : PreparedEntry) : PreparedWrite where
  key := e.key
  controlByte := e.controlByte
  version := if e.controlByte &&& 0x03 = 0 then some e.version else none
  stored :=
    if e.controlByte &&& 0x04 = 0 then
      some { lifespan := duration e.lifespan, maxIdle := duration e.maxIdle, value := e.value }
    else none

def PrepareRequest.of (xid : XID) (context : List PreparedEntry) : PrepareRequest where
  formatId := xid.formatId
  globalTransactionId := xid.globalTransactionId
  branchQualifier := xid.branchQualifier
  onePhase := 0
  writes := context.map PreparedEntry.write

/-- The entry has no expiration, unless it is a removal, and its arrays have a length
that can be sent. -/
def PreparedEntry.Plain (e : PreparedEntry) : Prop :=
  e.key.length < 2 ^ 32 ∧
    (e.controlByte &&& 0x04 = 0 → e.lifespan ≤ 0 ∧ e.maxIdle ≤ 0 ∧ e.value.length < 2 ^ 32)

/-! ### Decoding it -/

theorem decodeArray_writeArray {array : List UInt8} (fits : array.length < 2 ^ 32)
    (rest : List UInt8) : decodeArray (writeArray array ++ rest) = some (array, rest) := by
  have encoded : writeArray array = WireFormat.array.encode ⟨array, fits⟩ := rfl
  simp [decodeArray, encoded]

theorem decodeArray_length {bytes array rest : List UInt8}
    (decoded : decodeArray bytes = some (array, rest)) : array.length < 2 ^ 32 := by
  unfold decodeArray at decoded
  cases read : WireFormat.array.decode bytes with
  | none => simp [read] at decoded
  | some result =>
    simp only [read, Option.bind_eq_bind, Option.bind_some, Option.some.injEq,
      Prod.mk.injEq] at decoded
    rw [← decoded.1]
    exact result.1.2

theorem duration_eq_none {time : Int} : duration time = none ↔ time ≤ 0 := by
  unfold duration
  split <;> simp <;> omega

theorem writeTime_of_le {time : Int} (none : time ≤ 0) :
    PrepareCommitOperation.writeTime time = [] :=
  if_neg (by omega)

theorem decodeStored_units (rest : List UInt8) :
    decodeStored (writeByte 0x77 ++ rest) = (decodeArray rest).bind fun array =>
      some ({ lifespan := none, maxIdle := none, value := array.1 }, array.2) := by
  have read : WireFormat.byte.decode (writeByte 0x77 ++ rest) = some (0x77, rest) :=
    WireFormat.byte.decode_encode 0x77 rest
  have first : ∀ bytes, decodeDuration ((0x77 : UInt8) >>> 4) bytes = some (none, bytes) :=
    fun bytes => if_pos (.inl rfl)
  have second : ∀ bytes, decodeDuration ((0x77 : UInt8) &&& 0x0F) bytes = some (none, bytes) :=
    fun bytes => if_pos (.inl rfl)
  simp only [decodeStored, read, first, second, Option.bind_eq_bind, Option.bind_some]

theorem decodeWrite_entryBytes {e : PreparedEntry} (fits : e.key.length < 2 ^ 32)
    (rest : List UInt8) :
    decodeWrite (PrepareCommitOperation.entryBytes e ++ rest) =
      (decodeWhen (e.controlByte &&& 0x04 = 0) decodeStored
        ((if e.controlByte &&& 0x04 = 0 then PrepareCommitOperation.storedBytes e else []) ++
          rest)).bind fun stored =>
        some ({ e.write with stored := stored.1 }, stored.2) := by
  have control : ∀ bytes, WireFormat.byte.decode (writeByte e.controlByte ++ bytes) =
      some (e.controlByte, bytes) := WireFormat.byte.decode_encode e.controlByte
  have version : ∀ bytes, decodeWhen (e.controlByte &&& 0x03 = 0) WireFormat.long.decode
      ((if e.controlByte &&& 0x03 = 0 then writeLong e.version else []) ++ bytes) =
        some (if e.controlByte &&& 0x03 = 0 then some e.version else none, bytes) := by
    intro bytes
    by_cases read : e.controlByte &&& 0x03 = 0
    · have long : WireFormat.long.decode (writeLong e.version ++ bytes) = some (e.version, bytes) :=
        WireFormat.long.decode_encode e.version bytes
      simp [decodeWhen, read, long]
    · simp [decodeWhen, read]
  simp only [decodeWrite, PrepareCommitOperation.entryBytes, List.append_assoc,
    decodeArray_writeArray fits, control, version, Option.bind_eq_bind, Option.bind_some]
  rfl

theorem decodeWrite_of_plain {e : PreparedEntry} (plain : e.Plain) (rest : List UInt8) :
    decodeWrite (PrepareCommitOperation.entryBytes e ++ rest) = some (e.write, rest) := by
  rw [decodeWrite_entryBytes plain.1]
  by_cases stored : e.controlByte &&& 0x04 = 0
  · obtain ⟨lifespan, maxIdle, value⟩ := plain.2 stored
    simp [decodeWhen, stored, PrepareCommitOperation.storedBytes, writeTime_of_le lifespan,
      writeTime_of_le maxIdle, decodeStored_units, decodeArray_writeArray value,
      PreparedEntry.write, duration_eq_none.mpr lifespan, duration_eq_none.mpr maxIdle]
  · simp [decodeWhen, stored, PreparedEntry.write]

theorem decodeWrite_key_length {bytes left : List UInt8} {w : PreparedWrite}
    (decoded : decodeWrite bytes = some (w, left)) : w.key.length < 2 ^ 32 := by
  simp only [decodeWrite, Option.bind_eq_bind, Option.bind_eq_some_iff] at decoded
  obtain ⟨⟨key, b⟩, array, ⟨control, b⟩, -, ⟨version, b⟩, -, ⟨stored, b⟩, -, same⟩ := decoded
  cases same
  exact decodeArray_length array

theorem plain_of_decodeWrite {e : PreparedEntry} {rest left : List UInt8}
    (decoded : decodeWrite (PrepareCommitOperation.entryBytes e ++ rest) = some (e.write, left)) :
    e.Plain := by
  have fits : e.key.length < 2 ^ 32 := decodeWrite_key_length decoded
  refine ⟨fits, fun written => ?_⟩
  rw [decodeWrite_entryBytes fits, Option.bind_eq_some_iff] at decoded
  obtain ⟨⟨stored, b⟩, read, same⟩ := decoded
  simp only [decodeWhen, written, decide_true, if_true, PrepareCommitOperation.storedBytes,
    List.append_assoc, decodeStored_units, Option.bind_eq_bind, Option.bind_eq_some_iff] at read
  obtain ⟨⟨value, b⟩, ⟨⟨array, b⟩, found, held⟩, whole⟩ := read
  cases held
  cases whole
  simp only [PreparedEntry.write, written, if_true, Option.some.injEq, Prod.mk.injEq,
    PreparedWrite.mk.injEq, StoredValue.mk.injEq, true_and] at same
  obtain ⟨⟨lifespan, maxIdle, rfl⟩, -⟩ := same
  exact ⟨duration_eq_none.mp lifespan.symm, duration_eq_none.mp maxIdle.symm,
    decodeArray_length found⟩

-- The list decodes to what was meant exactly when every entry does: the first one that does not is
-- already read wrong.
theorem decodeWrites_iff (context : List PreparedEntry) :
    decodeWrites context.length (context.flatMap PrepareCommitOperation.entryBytes) =
        some (context.map PreparedEntry.write, []) ↔ ∀ e ∈ context, e.Plain := by
  induction context with
  | nil => simp [decodeWrites]
  | cons e context ih =>
    rw [List.forall_mem_cons, ← ih, List.length_cons, List.flatMap_cons, List.map_cons,
      decodeWrites]
    simp only [Option.bind_eq_bind, Option.bind_eq_some_iff]
    constructor
    · rintro ⟨⟨w, b⟩, first, ⟨ws, c⟩, later, same⟩
      simp only [Option.some.injEq, Prod.mk.injEq, List.cons.injEq] at same
      obtain ⟨⟨rfl, rfl⟩, rfl⟩ := same
      -- being plain, the entry is read to its end, and the rest starts where it should
      have plain := plain_of_decodeWrite first
      rw [decodeWrite_of_plain plain, Option.some.injEq, Prod.mk.injEq] at first
      obtain ⟨-, rfl⟩ := first
      exact ⟨plain, later⟩
    · rintro ⟨plain, later⟩
      exact ⟨_, decodeWrite_of_plain plain _, _, later, rfl⟩

theorem decodeWrites_length {count : Nat} {bytes left : List UInt8} {ws : List PreparedWrite}
    (decoded : decodeWrites count bytes = some (ws, left)) : ws.length = count := by
  induction count generalizing bytes ws with
  | zero =>
    cases decoded
    rfl
  | succ count ih =>
    simp only [decodeWrites, Option.bind_eq_bind, Option.bind_eq_some_iff] at decoded
    obtain ⟨⟨w, b⟩, -, ⟨rest, c⟩, later, same⟩ := decoded
    cases same
    rw [List.length_cons, ih later]

theorem decodePrepare_lengths {bytes left : List UInt8} {request : PrepareRequest}
    (decoded : decodePrepare bytes = some (request, left)) :
    request.globalTransactionId.length < 2 ^ 32 ∧ request.branchQualifier.length < 2 ^ 32 ∧
      request.writes.length < 2 ^ 32 := by
  simp only [decodePrepare, Option.bind_eq_bind, Option.bind_eq_some_iff] at decoded
  obtain ⟨⟨n, b⟩, -, ⟨g, b⟩, global, ⟨q, b⟩, branch, ⟨phase, b⟩, -, ⟨count, b⟩, -, ⟨ws, b⟩, writes,
    same⟩ := decoded
  cases same
  refine ⟨decodeArray_length global, decodeArray_length branch, ?_⟩
  rw [decodeWrites_length writes]
  exact count.toNat_lt

theorem decodeSignedInt_formatId (rest : List UInt8) :
    decodeSignedInt (writeVInt ((formatId <<< 1) ^^^ (formatId >>> 31)) ++ rest) =
      some (formatId, rest) := by
  have read : WireFormat.vInt.decode (writeVInt ((formatId <<< 1) ^^^ (formatId >>> 31)) ++ rest) =
      some ((formatId <<< 1) ^^^ (formatId >>> 31), rest) := WireFormat.vInt.decode_encode _ rest
  simp only [decodeSignedInt, read, Option.bind_eq_bind, Option.bind_some]
  rfl

theorem decodePrepare_bodyBytes {xid : XID} (hotrod : xid.formatId = formatId)
    (global : xid.globalTransactionId.length < 2 ^ 32)
    (branch : xid.branchQualifier.length < 2 ^ 32)
    {context : List PreparedEntry} (size : context.length < 2 ^ 32) :
    decodePrepare (PrepareCommitOperation.bodyBytes xid context) =
      (decodeWrites context.length (context.flatMap PrepareCommitOperation.entryBytes)).bind
        fun writes =>
          some ({ PrepareRequest.of xid context with writes := writes.1 }, writes.2) := by
  have phase : ∀ bytes, WireFormat.byte.decode (writeByte 0 ++ bytes) = some (0, bytes) :=
    WireFormat.byte.decode_encode 0
  have count : ∀ bytes, WireFormat.vInt.decode (writeVInt (UInt32.ofNat context.length) ++ bytes) =
      some (UInt32.ofNat context.length, bytes) := WireFormat.vInt.decode_encode _
  have whole : (UInt32.ofNat context.length).toNat = context.length :=
    UInt32.toNat_ofNat_of_lt' size
  simp only [decodePrepare, PrepareCommitOperation.bodyBytes, writeXID, hotrod, List.append_assoc,
    decodeSignedInt_formatId, decodeArray_writeArray global, decodeArray_writeArray branch, phase,
    count, whole, Option.bind_eq_bind, Option.bind_some, PrepareRequest.of]

/-- The lengths of the request can be sent, and no entry has an expiration. -/
def DecodableAsMeant (xid : XID) (context : List PreparedEntry) : Prop :=
  xid.globalTransactionId.length < 2 ^ 32 ∧ xid.branchQualifier.length < 2 ^ 32 ∧
    context.length < 2 ^ 32 ∧ ∀ e ∈ context, e.Plain

/-- PREPARE decodes to the request that was meant exactly when no entry has an
expiration (and no length overflows): the unit byte denies the durations that follow it. -/
theorem prepare_decodes_iff (globalTransactionId branchQualifier : List UInt8)
    {context : List PreparedEntry} (carries : ∀ e ∈ context, e.Carries) (s : Connection) :
    let xid : XID := { formatId, globalTransactionId, branchQualifier }
    ∃ body, PrepareCommitOperation.writeBody xid context s = .ok () (s.filled body) ∧
      (decodePrepare body = some (PrepareRequest.of xid context, []) ↔
        DecodableAsMeant xid context) := by
  intro xid
  refine ⟨_, PrepareCommitOperation.writeBody_of_carries xid carries s, ?_⟩
  constructor
  · intro decoded
    obtain ⟨global, branch, size⟩ := decodePrepare_lengths decoded
    -- the count is sent modulo 2 ^ 32, and what was decoded has less
    have size : context.length < 2 ^ 32 := by simpa [PrepareRequest.of] using size
    rw [decodePrepare_bodyBytes rfl global branch size, Option.bind_eq_some_iff] at decoded
    obtain ⟨⟨ws, b⟩, writes, same⟩ := decoded
    simp only [PrepareRequest.of, Option.some.injEq, Prod.mk.injEq, PrepareRequest.mk.injEq,
      true_and] at same
    obtain ⟨rfl, rfl⟩ := same
    exact ⟨global, branch, size, (decodeWrites_iff context).mp writes⟩
  · rintro ⟨global, branch, size, plain⟩
    rw [decodePrepare_bodyBytes rfl global branch size, (decodeWrites_iff context).mpr plain]
    rfl

def oneMinute : PreparedEntry where
  key := [1]
  controlByte := 0x01
  version := 0
  lifespan := 60
  maxIdle := 0
  marshalled := .ok [2]

theorem oneMinute_carries : ∀ e ∈ [oneMinute], e.Carries := by
  intro e member
  rw [List.mem_singleton.mp member]
  exact ⟨[2], rfl⟩

def opened : Connection := { hostname := "localhost", port := 11222 }

/-- The lifespan is taken for the length of the value, and the body ends too soon. -/
theorem prepare_misread_with_lifespan :
    ∃ body, PrepareCommitOperation.writeBody ⟨formatId, [1], [2]⟩ [oneMinute] opened =
        .ok () (opened.filled body) ∧
      decodePrepare body ≠ some (PrepareRequest.of ⟨formatId, [1], [2]⟩ [oneMinute], []) := by
  refine ⟨_, PrepareCommitOperation.writeBody_of_carries _ oneMinute_carries opened, ?_⟩
  decide

theorem prepare_decodes_oneMinute :
    ∃ body, PrepareCommitOperation.writeBody ⟨formatId, [1], [2]⟩ [oneMinute] opened =
        .ok () (opened.filled body) ∧
      (decodePrepare body = some (PrepareRequest.of ⟨formatId, [1], [2]⟩ [oneMinute], []) ↔
        DecodableAsMeant ⟨formatId, [1], [2]⟩ [oneMinute]) :=
  prepare_decodes_iff [1] [2] oneMinute_carries opened

end HotRod.Operations
