import HotRod.Counters.Requests
import Mathlib.Tactic.IntervalCases

/-! Configurations of counters as they are written and as they are read.

What is read is what was sent of a configuration. The other way round a configuration is
written as it was read, unless the number of its concurrency level is spread over more bytes
than it needs or is too large for the 32 bits it is kept in. -/

set_option autoImplicit false

namespace HotRod.Counters

open Semantics.Execution
open Operations Protocol
open WireFormat (Minimal Fits)

/-! ### From the configuration to the bytes -/

theorem consumes_sentFields (c : CounterConfiguration) :
    Consumes (readCounterFields c.persistent c.type) (writeCounterFields c) (sent c) := by
  obtain ⟨initialValue, lowerBound, upperBound, concurrencyLevel, type, persistent⟩ := c
  have last := consumes_read WireFormat.long initialValue
  cases type with
  | weak => exact (consumes_read WireFormat.vInt concurrencyLevel).bind (last.map _)
  | boundedStrong =>
    apply (consumes_read WireFormat.long lowerBound).bind
    exact (consumes_read WireFormat.long upperBound).bind (last.map _)
  | unboundedStrong => exact last.map _

theorem persistent_counterFlags (type : CounterType) (persistent : Bool) :
    (counterFlags type persistent &&& 0x04 != 0) = persistent := by
  cases type <;> cases persistent <;> decide

theorem consumes_sentConfiguration (c : CounterConfiguration) :
    Consumes readConfiguration (writeConfiguration c) (sent c) := by
  apply (consumes_read WireFormat.byte (counterFlags c.type c.persistent)).bind
  rw [counterType_counterFlags, persistent_counterFlags]
  exact consumes_sentFields c

/-! ### From the bytes to the configuration -/

/-- No bit is set but those for the type and for the storage. -/
def Defined (flags : UInt8) : Prop := flags &&& 0xF8 = 0

def levelBytes : List UInt8 → List UInt8
  | [] => []
  | flags :: fields => if counterType flags = some .weak then fields else []

theorem toNat_lt_of_masked : ∀ flags : BitVec 8, flags &&& 0xF8#8 = 0#8 → flags.toNat < 8 := by
  decide

theorem counterFlags_of_defined {flags : UInt8} {type : CounterType} (defined : Defined flags)
    (known : counterType flags = some type) :
    counterFlags type (flags &&& 0x04 != 0) = flags := by
  have small : flags.toNat < 8 :=
    toNat_lt_of_masked flags.toBitVec (congrArg UInt8.toBitVec defined)
  have numbered : flags = UInt8.ofNat flags.toNat := UInt8.ofNat_toNat.symm
  rw [numbered] at known ⊢
  generalize flags.toNat = n at small known ⊢
  interval_cases n <;> cases type <;> revert known <;> decide

theorem writeCounterFields_read {persistent : Bool} {type : CounterType} {s t : Connection}
    {c : CounterConfiguration} (returned : readCounterFields persistent type s = .ok c t) :
    c.type = type ∧ c.persistent = persistent ∧
      (type ≠ .weak → s.unread = writeCounterFields c ++ t.unread) ∧
      (type = .weak → Minimal s.unread →
        (s.unread = writeCounterFields c ++ t.unread ↔ Fits s.unread)) := by
  cases type with
  | weak =>
    obtain ⟨level, m, first, returned⟩ := exists_of_bind returned
    obtain ⟨initial, u, second, returned⟩ := exists_of_bind returned
    cases returned
    have level_read := decode_of_read first
    have initial_read := WireFormat.tight_long (decode_of_read second)
    refine ⟨rfl, rfl, fun other => absurd rfl other, fun _ minimal => ?_⟩
    rw [← WireFormat.vInt_encode_iff minimal level_read, writeCounterFields, List.append_assoc,
      writeLong, ← initial_read]
    rfl
  | boundedStrong =>
    obtain ⟨lower, m, first, returned⟩ := exists_of_bind returned
    obtain ⟨upper, n, second, returned⟩ := exists_of_bind returned
    obtain ⟨initial, u, third, returned⟩ := exists_of_bind returned
    cases returned
    refine ⟨rfl, rfl, fun _ => ?_, fun weak => by cases weak⟩
    have lower_read := WireFormat.tight_long (decode_of_read first)
    have upper_read := WireFormat.tight_long (decode_of_read second)
    have initial_read := WireFormat.tight_long (decode_of_read third)
    rw [lower_read, upper_read, initial_read]
    simp only [writeCounterFields, writeLong, List.append_assoc]
  | unboundedStrong =>
    obtain ⟨initial, u, first, returned⟩ := exists_of_bind returned
    cases returned
    exact ⟨rfl, rfl, fun _ => WireFormat.tight_long (decode_of_read first),
      fun weak => by cases weak⟩

/-- A configuration read off the connection, with only the bits set that are defined. -/
structure Accepted (s t : Connection) (c : CounterConfiguration) : Prop where
  returned : readConfiguration s = .ok c t
  defined : ∀ flags ∈ s.unread.head?, Defined flags
  minimal : Minimal (levelBytes s.unread)

theorem accepted_rewritten_iff {s t : Connection} {c : CounterConfiguration}
    (accepted : Accepted s t c) :
    s.unread = writeConfiguration c ++ t.unread ↔ Fits (levelBytes s.unread) := by
  obtain ⟨returned, defined, minimal⟩ := accepted
  obtain ⟨flags, m, first, returned⟩ := exists_of_bind returned
  have flags_read : s.unread = flags :: m.unread := WireFormat.tight_byte (decode_of_read first)
  rw [flags_read] at defined minimal ⊢
  cases known : counterType flags with
  | none =>
    rw [known] at returned
    cases returned
  | some type =>
    rw [known] at returned
    obtain ⟨typed, stored, others, weak⟩ := writeCounterFields_read returned
    have written : writeConfiguration c = flags :: writeCounterFields c := by
      rw [writeConfiguration, typed, stored,
        counterFlags_of_defined (defined flags rfl) known]
      rfl
    rw [written, List.cons_append, List.cons_inj_right]
    rw [levelBytes, known] at minimal ⊢
    by_cases level : type = .weak
    · rw [if_pos (congrArg some level)] at minimal ⊢
      exact weak level minimal
    · rw [if_neg (fun same => level (Option.some.inj same))]
      exact iff_of_true (others level) (fun n rest read => by cases read)

/-- Every configuration comes back with the fields of its type, and an accepted one is written
as it was read exactly if the number of its concurrency level fits 32 bits. -/
theorem configuration_round_trip :
    (∀ c, Consumes readConfiguration (writeConfiguration c) (sent c)) ∧
      ∀ s t c, Accepted s t c →
        (s.unread = writeConfiguration c ++ t.unread ↔ Fits (levelBytes s.unread)) :=
  ⟨consumes_sentConfiguration, fun _ _ _ => accepted_rewritten_iff⟩

/-- A level of 2^35 - 1, in five groups of which none is empty, is kept as 2^32 - 1. -/
theorem not_rewritten_of_large :
    ¬ ∀ s t c, Accepted s t c → s.unread = writeConfiguration c ++ t.unread := by
  intro all
  let s : Connection :=
    { hostname := "localhost"
      port := 11222
      unread := [0x01, 0xFF, 0xFF, 0xFF, 0xFF, 0x7F, 0, 0, 0, 0, 0, 0, 0, 0]
      inTime := 14 }
  let t : Connection := { s with unread := [], inTime := 0 }
  let c : CounterConfiguration :=
    { initialValue := 0, concurrencyLevel := 0xFFFFFFFF, type := .weak, persistent := false }
  have accepted : Accepted s t c := by
    refine ⟨rfl, ?_, ?_⟩
    · intro flags first
      cases first
      rfl
    · change 128 ≤ 255 → WireFormat.Filled _
      simp [WireFormat.Filled]
  have fits := (accepted_rewritten_iff accepted).mp (all s t c accepted)
  have large := fits (2 ^ 35 - 1) [0, 0, 0, 0, 0, 0, 0, 0] (by decide)
  exact absurd large (by decide)

end HotRod.Counters
