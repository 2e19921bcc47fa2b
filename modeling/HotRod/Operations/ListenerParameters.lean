import HotRod.Operations.Commands

/-! The parameters of a listener as they are written and as they are read.

`NamedFactory` is what the grammar has for a filter or a converter: a name and, if it is not
empty, a number of one byte and as many arrays. What the codec writes for a factory is one of
its encodings exactly if the factory is one of its values. -/

set_option autoImplicit false

namespace HotRod.Operations.ListenerParameters

open Protocol
open WireFormat (Bytes)

/-! ### The grammar -/

structure NamedFactory where
  -- There are no parameters without a name, and their number fits a byte.
  name : Bytes
  params : List Bytes
  counted : params.length < 256
  named : name.1 = [] → params = []

namespace NamedFactory

def unnamed (name : Bytes) : NamedFactory := ⟨name, [], by decide, fun _ => rfl⟩

def encodeParams (params : List Bytes) : List UInt8 :=
  WireFormat.byte.encode (UInt8.ofNat params.length) ++ params.flatMap WireFormat.array.encode

def decodeParams (name : Bytes) (filled : name.1 ≠ []) (input : List UInt8) :
    Option (NamedFactory × List UInt8) :=
  (WireFormat.byte.decode input).bind fun (count, rest) =>
    (WireFormat.array.decodeMany count.toNat rest).map fun (params, rest) =>
      (⟨name, params.1, params.2.trans_lt count.toNat_lt, fun empty => absurd empty filled⟩, rest)

theorem decodeParams_encodeParams (factory : NamedFactory) (filled : factory.name.1 ≠ [])
    (rest : List UInt8) :
    decodeParams factory.name filled (encodeParams factory.params ++ rest) =
      some (factory, rest) := by
  have count : factory.params.length = (UInt8.ofNat factory.params.length).toNat :=
    (UInt8.toNat_ofNat_of_lt' factory.counted).symm
  simp only [decodeParams, encodeParams, List.append_assoc, WireFormat.decode_encode_append,
    Option.bind_some, WireFormat.array.decodeMany_encode factory.params count rest,
    Option.map_some]

def format : WireFormat NamedFactory where
  encode factory := WireFormat.array.encode factory.name
    ++ if factory.name.1 = [] then [] else encodeParams factory.params
  decode input := (WireFormat.array.decode input).bind fun (name, rest) =>
    if empty : name.1 = [] then some (unnamed name, rest) else decodeParams name empty rest
  decode_encode factory rest := by
    rw [List.append_assoc, WireFormat.decode_encode_append, Option.bind_some]
    by_cases empty : factory.name.1 = []
    · obtain ⟨name, params, counted, named⟩ := factory
      have none : params = [] := named empty
      subst none
      rw [if_pos empty, List.nil_append]
      exact dif_pos empty
    · rw [if_neg empty]
      exact (dif_neg empty).trans (decodeParams_encodeParams factory empty rest)

end NamedFactory

def format20 : WireFormat (UInt8 × NamedFactory × NamedFactory) :=
  WireFormat.byte.seq (NamedFactory.format.seq NamedFactory.format)

-- With the flag for raw data behind them.
def format21 : WireFormat ((UInt8 × NamedFactory × NamedFactory) × UInt8) :=
  format20.seq WireFormat.byte

/-! ### What is written -/

structure Denotes (factory : NamedFactory) (name : List UInt8) (params : List (List UInt8)) :
    Prop where
  name : factory.name.1 = name
  params : factory.params.map Subtype.val = params

/-- The lengths fit the places they are sent in, and only a named factory has parameters. -/
structure Sendable (name : List UInt8) (params : List (List UInt8)) : Prop where
  shortName : name.length < 2 ^ 32
  shortParams : ∀ param ∈ params, param.length < 2 ^ 32
  counted : params.length < 256
  named : name = [] → params = []

theorem exists_denotes_iff (name : List UInt8) (params : List (List UInt8)) :
    (∃ factory, Denotes factory name params) ↔ Sendable name params := by
  constructor
  · rintro ⟨⟨bytes, listed, counted, named⟩, rfl, rfl⟩
    refine ⟨bytes.2, ?_, ?_, ?_⟩
    · intro param member
      obtain ⟨bytes, -, rfl⟩ := List.mem_map.mp member
      exact bytes.2
    · rw [List.length_map]
      exact counted
    · intro empty
      rw [List.map_eq_nil_iff]
      exact named empty
  · intro sendable
    have listed : (params.attach.map fun param =>
        (⟨param.1, sendable.shortParams param.1 param.2⟩ : Bytes)).map Subtype.val = params := by
      rw [List.map_map]
      exact List.attach_map_subtype_val params
    refine ⟨⟨⟨name, sendable.shortName⟩, _, ?_, ?_⟩, rfl, listed⟩
    · rw [List.length_map, List.length_attach]
      exact sendable.counted
    · intro empty
      rw [← List.map_eq_nil_iff, listed]
      exact sendable.named empty

theorem writeNamedFactory_encode {factory : NamedFactory} {name : List UInt8}
    {params : List (List UInt8)} (denotes : Denotes factory name params) :
    writeNamedFactory name params = NamedFactory.format.encode factory := by
  obtain ⟨rfl, rfl⟩ := denotes
  have arrays : (factory.params.map Subtype.val).flatMap writeArray =
      factory.params.flatMap WireFormat.array.encode := by
    rw [List.flatMap_map]
    rfl
  rw [writeNamedFactory, List.length_map, arrays]
  rfl

def flag (set : Bool) : UInt8 := if set then 1 else 0

/-- The bytes of the parameters are read to their end as the listener's own. -/
def Decodes (codec : Codec) (listener : ClientListener) : Prop :=
  ∃ filter converter,
    Denotes filter listener.filterFactoryName listener.filterFactoryParams ∧
      Denotes converter listener.converterFactoryName listener.converterFactoryParams ∧
      if 21 ≤ codec.protocolVersion then
        format21.decode (writeClientListenerParams codec listener) =
          some (((flag listener.includeCurrentState, filter, converter), flag listener.useRawData),
            [])
      else
        format20.decode (writeClientListenerParams codec listener) =
          some ((flag listener.includeCurrentState, filter, converter), [])

theorem writeClientListenerParams_encode (codec : Codec) {listener : ClientListener}
    {filter converter : NamedFactory}
    (filters : Denotes filter listener.filterFactoryName listener.filterFactoryParams)
    (converts : Denotes converter listener.converterFactoryName listener.converterFactoryParams) :
    writeClientListenerParams codec listener =
      format20.encode (flag listener.includeCurrentState, filter, converter)
        ++ if 21 ≤ codec.protocolVersion then
            WireFormat.byte.encode (flag listener.useRawData) else [] := by
  rw [writeClientListenerParams, writeNamedFactory_encode filters,
    writeNamedFactory_encode converts, List.append_assoc (writeByte _)]
  rfl

/-- The parameters of a listener can be read back exactly if both factories can be sent. -/
theorem listener_params_decode_iff (codec : Codec) (listener : ClientListener) :
    Decodes codec listener ↔
      Sendable listener.filterFactoryName listener.filterFactoryParams ∧
        Sendable listener.converterFactoryName listener.converterFactoryParams := by
  rw [← exists_denotes_iff, ← exists_denotes_iff]
  constructor
  · rintro ⟨filter, converter, filters, converts, -⟩
    exact ⟨⟨filter, filters⟩, converter, converts⟩
  · rintro ⟨⟨filter, filters⟩, converter, converts⟩
    refine ⟨filter, converter, filters, converts, ?_⟩
    rw [writeClientListenerParams_encode codec filters converts]
    split
    · have whole := format21.decode_encode
        ((flag listener.includeCurrentState, filter, converter), flag listener.useRawData) []
      rwa [List.append_nil] at whole
    · exact format20.decode_encode _ []

/-- 256 parameters are announced as none. -/
theorem not_decodes_of_many :
    ¬ ∀ (codec : Codec) (listener : ClientListener), Decodes codec listener := by
  intro all
  let listener : ClientListener :=
    { includeCurrentState := false
      filterFactoryName := [0x66]
      filterFactoryParams := List.replicate 256 []
      converterFactoryName := []
      converterFactoryParams := []
      useRawData := false
      interestFlag := 0
      processEvent := fun _ _ _ => none }
  have sendable := (listener_params_decode_iff .codec20 listener).mp (all .codec20 listener)
  have few : (List.replicate 256 ([] : List UInt8)).length < 256 := sendable.1.counted
  rw [List.length_replicate] at few
  exact Nat.lt_irrefl 256 few

end HotRod.Operations.ListenerParameters
