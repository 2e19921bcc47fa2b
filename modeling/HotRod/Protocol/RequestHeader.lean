import HotRod.Protocol.Codec
import Mathlib.Data.List.Nodup

/-! Request headers of version 2.8 as they are written and as they are read.

`Header28` is the grammar: a header field by field, with every length and every number in
the 32 bits that the protocol has for it. What the codec writes is one of its encodings
exactly if the lengths fit, and the grammar ends where its encodings end. -/

set_option autoImplicit false

namespace HotRod.Protocol

open Semantics.Execution
open HotRodConstants IdsMediaTypes
open WireFormat (Bytes Counted)

/-! ### Headers -/

structure RequestHeader where
  messageId : UInt64
  opCode : UInt8
  cacheName : List UInt8
  flags : UInt32
  topologyId : Int32
  dataFormat : Option EntryMediaTypes

/-- `Codec20::writeHeader` for version 2.8. -/
def RequestHeader.writeHeader20 (h : RequestHeader) : List UInt8 :=
  writeByte requestMagic ++ writeVLong h.messageId ++ writeByte Codec.codec28.protocolVersion
    ++ writeByte h.opCode ++ writeArray h.cacheName ++ writeVInt h.flags
    ++ writeByte clientIntelligenceHashDistributionAware ++ writeVInt h.topologyId.toUInt32

def RequestHeader.writeMediaTypes (h : RequestHeader) : List UInt8 :=
  match h.dataFormat with
  | some format => writeMediaType format.keyMediaType ++ writeMediaType format.valueMediaType
  | none => writeByte 0 ++ writeByte 0

def RequestHeader.written (h : RequestHeader) : List UInt8 := h.writeHeader20 ++ h.writeMediaTypes

def HeaderParams.header (params : HeaderParams) : RequestHeader where
  messageId := params.messageId
  opCode := params.opCode.request
  cacheName := params.cacheName
  flags := params.flags
  topologyId := params.topologyId.toInt32
  dataFormat := params.dataFormat

theorem writeHeader_written (params : HeaderParams) (s : Connection) :
    Codec.codec28.writeHeader params s = .ok () (s.filled params.header.written) := by
  have newest : 28 ≤ Codec.codec28.protocolVersion := by decide
  rw [Codec.writeHeader, bind_of_ok (write_apply _ s), if_pos newest, RequestHeader.written,
    ← filled_filled s params.header.writeHeader20]
  unfold RequestHeader.writeMediaTypes RequestHeader.writeHeader20 HeaderParams.header
  rw [UInt32.toUInt32_toInt32]
  cases params.dataFormat with
  | none => rfl
  | some format => rfl

/-! ### The grammar -/

inductive MediaTypeField where
  | absent
  | predefined (id : UInt32) (params : Counted (Bytes × Bytes))
  | custom (name : Bytes) (params : Counted (Bytes × Bytes))

namespace MediaTypeField

def params : WireFormat (Counted (Bytes × Bytes)) :=
  (WireFormat.array.seq WireFormat.array).counted

def predefinedFields : WireFormat (UInt32 × Counted (Bytes × Bytes)) := WireFormat.vInt.seq params

def customFields : WireFormat (Bytes × Counted (Bytes × Bytes)) := WireFormat.array.seq params

def format : WireFormat MediaTypeField where
  encode
    | absent => WireFormat.byte.encode 0
    | predefined id params => WireFormat.byte.encode 1 ++ predefinedFields.encode (id, params)
    | custom name params => WireFormat.byte.encode 2 ++ customFields.encode (name, params)
  decode bytes := (WireFormat.byte.decode bytes).bind fun (tag, rest) =>
    if tag = 0 then some (absent, rest)
    else if tag = 1 then (predefinedFields.decode rest).map fun (read, rest) =>
      (predefined read.1 read.2, rest)
    else if tag = 2 then (customFields.decode rest).map fun (read, rest) =>
      (custom read.1 read.2, rest)
    else none
  decode_encode field rest := by
    cases field with
    | absent => rfl
    | predefined id params =>
      simp only [List.append_assoc, WireFormat.decode_encode_append, Option.bind_some,
        Option.map_some]
      rfl
    | custom name params =>
      simp only [List.append_assoc, WireFormat.decode_encode_append, Option.bind_some,
        Option.map_some]
      rfl

def pairs (params : Counted (Bytes × Bytes)) : List (List UInt8 × List UInt8) :=
  params.1.map fun pair => (pair.1.1, pair.2.1)

-- What the field stands for; an id has to be a known one.
def mediaType : MediaTypeField → Option (Option MediaType)
  | absent => some none
  | predefined id params =>
    (getById id).map fun name => some { typeSubtype := name, params := pairs params }
  | custom name params => some (some { typeSubtype := name.1, params := pairs params })

end MediaTypeField

/-- The fields of a header in their order: magic, message id, version, opcode, cache name,
flags, client intelligence, topology id and the two media types. -/
abbrev HeaderFields :=
  UInt8 × UInt64 × UInt8 × UInt8 × Bytes × UInt32 × UInt8 × UInt32 × MediaTypeField × MediaTypeField

def headerFields : WireFormat HeaderFields :=
  WireFormat.byte.seq (WireFormat.vLong.seq (WireFormat.byte.seq (WireFormat.byte.seq
    (WireFormat.array.seq (WireFormat.vInt.seq (WireFormat.byte.seq (WireFormat.vInt.seq
      (MediaTypeField.format.seq MediaTypeField.format))))))))

/-- What a server knows after a header. -/
structure ReadHeader where
  messageId : UInt64
  opCode : UInt8
  cacheName : List UInt8
  flags : UInt32
  topologyId : Int32
  keyMediaType : Option MediaType
  valueMediaType : Option MediaType

def readFields : HeaderFields → Option ReadHeader
  | (magic, messageId, version, opCode, cacheName, flags, _, topologyId, key, value) =>
    if magic = requestMagic ∧ version = Codec.codec28.protocolVersion then do
      let keyMediaType ← key.mediaType
      let valueMediaType ← value.mediaType
      pure { messageId, opCode, cacheName := cacheName.1, flags, topologyId := topologyId.toInt32,
             keyMediaType, valueMediaType }
    else none

/-- A header at the front of the bytes, and what follows it. -/
def readRequestHeader (bytes : List UInt8) : Option (ReadHeader × List UInt8) :=
  (headerFields.decode bytes).bind fun (fields, rest) =>
    (readFields fields).map fun header => (header, rest)

/-! ### What a header says -/

-- A media type without a name is none.
def MediaType.said (m : MediaType) : Option MediaType := if m.typeSubtype = [] then none else some m

def RequestHeader.said (h : RequestHeader) : ReadHeader where
  messageId := h.messageId
  opCode := h.opCode
  cacheName := h.cacheName
  flags := h.flags
  topologyId := h.topologyId
  keyMediaType := h.dataFormat.bind fun format => format.keyMediaType.said
  valueMediaType := h.dataFormat.bind fun format => format.valueMediaType.said

/-- The name, the number of parameters and their bytes fit 32 bits. -/
structure MediaType.Fits (m : MediaType) : Prop where
  name : m.typeSubtype.length < 2 ^ 32
  count : m.params.length < 2 ^ 32
  params : ∀ param ∈ m.params, param.1.length < 2 ^ 32 ∧ param.2.length < 2 ^ 32

structure ReadHeader.Fits (h : ReadHeader) : Prop where
  cacheName : h.cacheName.length < 2 ^ 32
  keyMediaType : ∀ m, h.keyMediaType = some m → m.Fits
  valueMediaType : ∀ m, h.valueMediaType = some m → m.Fits

/-! ### Well-known media types -/

theorem ids_distinct : (typesIds.map Prod.snd).Nodup := by decide

theorem length_of_typesIds : ∀ entry ∈ typesIds, entry.1.length < 2 ^ 32 := by decide +kernel

theorem getById_of_getByMediaType {name : List UInt8} {id : UInt32}
    (known : getByMediaType name = some id) : getById id = some name := by
  obtain ⟨entry, found, rfl⟩ := Option.map_eq_some_iff.mp known
  have listed := List.mem_of_find?_eq_some found
  have named : entry.1 = name := by simpa using List.find?_some found
  cases back : typesIds.find? fun other => other.2 = entry.2 with
  | none =>
    have absent := List.find?_eq_none.mp back entry listed
    simp at absent
  | some other =>
    have same : other.2 = entry.2 := by simpa using List.find?_some back
    have equal : other = entry :=
      List.inj_on_of_nodup_map ids_distinct (List.mem_of_find?_eq_some back) listed same
    rw [getById, back, equal, Option.map_some, named]

theorem length_of_getById {name : List UInt8} {id : UInt32} (known : getById id = some name) :
    name.length < 2 ^ 32 := by
  obtain ⟨entry, found, rfl⟩ := Option.map_eq_some_iff.mp known
  exact length_of_typesIds entry (List.mem_of_find?_eq_some found)

/-! ### What is written -/

theorem writeString_eq (bytes : Bytes) : writeString bytes.1 = WireFormat.array.encode bytes := by
  have whole : bytes.1.take bytes.size.toNat = bytes.1 := by
    rw [bytes.size_toNat, List.take_length]
  change writeVInt bytes.size ++ bytes.1.take bytes.size.toNat = _
  rw [whole]
  rfl

theorem exists_pairs {params : List (List UInt8 × List UInt8)}
    (fits : ∀ param ∈ params, param.1.length < 2 ^ 32 ∧ param.2.length < 2 ^ 32) :
    ∃ pairs : List (Bytes × Bytes), pairs.map (fun pair => (pair.1.1, pair.2.1)) = params := by
  induction params with
  | nil => exact ⟨[], rfl⟩
  | cons param params ih =>
    obtain ⟨pairs, same⟩ := ih fun other member => fits other (List.mem_cons_of_mem _ member)
    have here := fits param List.mem_cons_self
    exact ⟨(⟨param.1, here.1⟩, ⟨param.2, here.2⟩) :: pairs, by rw [List.map_cons, same]⟩

namespace MediaType

variable {m : MediaType}

theorem Fits.writeParams (fits : m.Fits) : ∃ params, MediaTypeField.pairs params = m.params ∧
    (writeVInt (UInt32.ofNat m.params.length)
      ++ m.params.flatMap fun (name, value) => writeString name ++ writeString value) =
      MediaTypeField.params.encode params := by
  obtain ⟨typeSubtype, params⟩ := m
  obtain ⟨pairs, rfl⟩ := exists_pairs fits.params
  have count : pairs.length < 2 ^ 32 := by simpa using fits.count
  refine ⟨⟨pairs, count⟩, rfl, ?_⟩
  rw [List.length_map, List.flatMap_map]
  simp only [writeString_eq]
  rfl

theorem exists_field (fits : ∀ said, m.said = some said → said.Fits) :
    ∃ field, writeMediaType m = MediaTypeField.format.encode field ∧
      field.mediaType = some m.said := by
  unfold writeMediaType
  rw [said] at fits ⊢
  by_cases absent : m.typeSubtype = []
  · rw [if_pos absent, if_pos absent]
    exact ⟨.absent, rfl, rfl⟩
  · rw [if_neg absent] at fits
    rw [if_neg absent, if_neg absent]
    have fit : m.Fits := fits m rfl
    obtain ⟨params, same, written⟩ := fit.writeParams
    cases known : getByMediaType m.typeSubtype with
    | some id =>
      -- the name is not sent, and comes back out of the table
      refine ⟨.predefined id params, ?_, ?_⟩
      · rw [List.append_assoc, written, List.append_assoc]
        rfl
      · rw [MediaTypeField.mediaType, getById_of_getByMediaType known, Option.map_some, same]
    | none =>
      refine ⟨.custom ⟨m.typeSubtype, fit.name⟩ params, ?_, ?_⟩
      · have name := writeString_eq ⟨m.typeSubtype, fit.name⟩
        rw [List.append_assoc, written, name, List.append_assoc]
        rfl
      · rw [MediaTypeField.mediaType, same]

end MediaType

theorem RequestHeader.exists_mediaTypes {h : RequestHeader} (fits : h.said.Fits) :
    ∃ key value, h.writeMediaTypes =
        (MediaTypeField.format.seq MediaTypeField.format).encode (key, value) ∧
      key.mediaType = some h.said.keyMediaType ∧ value.mediaType = some h.said.valueMediaType := by
  unfold RequestHeader.writeMediaTypes
  cases given : h.dataFormat with
  | none =>
    refine ⟨.absent, .absent, rfl, ?_, ?_⟩
    · rw [RequestHeader.said, given]
      rfl
    · rw [RequestHeader.said, given]
      rfl
  | some format =>
    have keys : h.said.keyMediaType = format.keyMediaType.said := by
      rw [RequestHeader.said, given]
      rfl
    have values : h.said.valueMediaType = format.valueMediaType.said := by
      rw [RequestHeader.said, given]
      rfl
    have keyFits := fits.keyMediaType
    have valueFits := fits.valueMediaType
    rw [keys] at keyFits
    rw [values] at valueFits
    obtain ⟨key, keyWritten, keySaid⟩ := MediaType.exists_field keyFits
    obtain ⟨value, valueWritten, valueSaid⟩ := MediaType.exists_field valueFits
    refine ⟨key, value, ?_, by rw [keySaid, keys], by rw [valueSaid, values]⟩
    simp only [keyWritten, valueWritten]
    rfl

theorem RequestHeader.exists_fields {h : RequestHeader} (fits : h.said.Fits) :
    ∃ fields, h.written = headerFields.encode fields ∧ readFields fields = some h.said := by
  obtain ⟨key, value, written, keySaid, valueSaid⟩ := exists_mediaTypes fits
  refine ⟨(requestMagic, h.messageId, Codec.codec28.protocolVersion, h.opCode,
    ⟨h.cacheName, fits.cacheName⟩, h.flags, clientIntelligenceHashDistributionAware,
    h.topologyId.toUInt32, key, value), ?_, ?_⟩
  · rw [RequestHeader.written, RequestHeader.writeHeader20, written]
    simp only [List.append_assoc]
    rfl
  · have version : requestMagic = requestMagic ∧
        Codec.codec28.protocolVersion = Codec.codec28.protocolVersion := ⟨rfl, rfl⟩
    rw [readFields, if_pos version, keySaid, valueSaid, Int32.toInt32_toUInt32]
    rfl

/-! ### What is read -/

theorem MediaTypeField.mediaType_fits {field : MediaTypeField} {m : MediaType}
    (said : field.mediaType = some (some m)) : m.Fits := by
  have counted : ∀ params : Counted (Bytes × Bytes), (pairs params).length < 2 ^ 32 := by
    intro params
    rw [pairs, List.length_map]
    exact params.2
  have bounded : ∀ params : Counted (Bytes × Bytes), ∀ param ∈ pairs params,
      param.1.length < 2 ^ 32 ∧ param.2.length < 2 ^ 32 := by
    intro params param member
    obtain ⟨pair, -, rfl⟩ := List.mem_map.mp member
    exact ⟨pair.1.2, pair.2.2⟩
  cases field with
  | absent => cases said
  | predefined id params =>
    obtain ⟨name, known, same⟩ := Option.map_eq_some_iff.mp said
    cases same
    exact ⟨length_of_getById known, counted params, bounded params⟩
  | custom name params =>
    cases said
    exact ⟨name.2, counted params, bounded params⟩

theorem readRequestHeader_fits {bytes rest : List UInt8} {header : ReadHeader}
    (read : readRequestHeader bytes = some (header, rest)) : header.Fits := by
  obtain ⟨⟨fields, after⟩, -, said⟩ := Option.bind_eq_some_iff.mp read
  obtain ⟨said', read, same⟩ := Option.map_eq_some_iff.mp said
  cases same
  obtain ⟨magic, messageId, version, opCode, cacheName, flags, clientIntel, topologyId, key,
    value⟩ := fields
  -- every array and every list has been read with its length, so all of them fit
  obtain ⟨-, known⟩ := Option.ite_none_right_eq_some.mp read
  obtain ⟨keyMediaType, keySaid, known⟩ := Option.bind_eq_some_iff.mp known
  obtain ⟨valueMediaType, valueSaid, known⟩ := Option.bind_eq_some_iff.mp known
  cases known
  constructor
  · exact cacheName.2
  · intro m same
    exact MediaTypeField.mediaType_fits (keySaid.trans (congrArg some same))
  · intro m same
    exact MediaTypeField.mediaType_fits (valueSaid.trans (congrArg some same))

/-! ### Round trip -/

/-- Whatever follows a header, the grammar reads what the header says and stops at its end,
exactly if all lengths that are sent fit 32 bits. -/
theorem request_header_read_iff (h : RequestHeader) (rest : List UInt8) :
    readRequestHeader (h.written ++ rest) = some (h.said, rest) ↔ h.said.Fits := by
  constructor
  · exact readRequestHeader_fits
  · intro fits
    obtain ⟨fields, written, said⟩ := RequestHeader.exists_fields fits
    rw [readRequestHeader, written, headerFields.decode_encode]
    change (readFields fields).map (fun header => (header, rest)) = _
    rw [said]
    rfl

/-- A cache name of 2^32 bytes is sent with the length zero. -/
theorem not_read_of_long_name : ¬ ∀ (h : RequestHeader) (rest : List UInt8),
    readRequestHeader (h.written ++ rest) = some (h.said, rest) := by
  intro all
  let h : RequestHeader :=
    { messageId := 1
      opCode := OpCode.put.request
      cacheName := List.replicate (2 ^ 32) 0x63
      flags := 0
      topologyId := -1
      dataFormat := none }
  have fits := ((request_header_read_iff h []).mp (all h [])).cacheName
  rw [show h.said.cacheName = List.replicate (2 ^ 32) 0x63 from rfl, List.length_replicate] at fits
  exact Nat.lt_irrefl _ fits

end HotRod.Protocol
