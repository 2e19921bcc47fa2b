import Mathlib.Data.List.Basic
import Mathlib.Data.List.Infix
import Mathlib.Tactic.Ring

/-! Self-delimiting byte formats.

A format knows where its values end: decoding an encoding followed by anything
gives the value back and leaves what followed. Variable-length integers carry
seven bits a byte, least significant group first; fixed-width ones are big endian. -/

set_option autoImplicit false

/-- A type of values with its encoding, and a decoder that stops at its end. -/
structure WireFormat (A : Type) where
  encode : A → List UInt8
  decode : List UInt8 → Option (A × List UInt8)
  decode_encode : ∀ a rest, decode (encode a ++ rest) = some (a, rest)

namespace WireFormat

variable {A : Type}

@[simp] theorem decode_encode_append (format : WireFormat A) (a : A) (rest : List UInt8) :
    format.decode (format.encode a ++ rest) = some (a, rest) :=
  format.decode_encode a rest

theorem encode_ne_nil (format : WireFormat A) (starves : format.decode [] = none) (a : A) :
    format.encode a ≠ [] := by
  intro empty
  have read := format.decode_encode a []
  rw [empty, List.nil_append, starves] at read
  cases read

theorem encode_prefix_iff (format : WireFormat A) {a b : A} {x y : List UInt8} :
    format.encode a ++ x <+: format.encode b ++ y ↔ a = b ∧ x <+: y := by
  constructor
  · intro begins
    obtain ⟨rest, same⟩ := begins
    have read := format.decode_encode b y
    rw [← same, List.append_assoc, format.decode_encode] at read
    cases read
    exact ⟨rfl, List.prefix_append x rest⟩
  · intro both
    obtain ⟨rfl, begins⟩ := both
    exact (List.prefix_append_right_inj _).mpr begins

theorem encode_prefix_encode_iff (format : WireFormat A) {a b : A} :
    format.encode a <+: format.encode b ↔ a = b := by
  have both := format.encode_prefix_iff (a := a) (b := b) (x := []) (y := [])
  rw [List.append_nil, List.append_nil] at both
  rw [both, and_iff_left List.nil_prefix]

/-! ### Bytes -/

def byte : WireFormat UInt8 where
  encode b := [b]
  decode
    | [] => none
    | b :: rest => some (b, rest)
  decode_encode _ _ := rfl

/-! ### Variable-length integers -/

/-- Groups of seven bits, with the high bit set on all but the last; `more` bounds
the number of further groups. -/
def groups : Nat → Nat → List UInt8
  | 0, n => [UInt8.ofNat n]
  | more + 1, n =>
    if n < 128 then [UInt8.ofNat n]
    else UInt8.ofNat (n % 128 + 128) :: groups more (n / 128)

def ungroup : List UInt8 → Option (Nat × List UInt8)
  | [] => none
  | b :: rest =>
    if b.toNat < 128 then some (b.toNat, rest)
    else (ungroup rest).map fun (n, rest) => (b.toNat % 128 + 128 * n, rest)

theorem ungroup_last {n : Nat} (small : n < 128) (rest : List UInt8) :
    ungroup (UInt8.ofNat n :: rest) = some (n, rest) := by
  have value : (UInt8.ofNat n).toNat = n := by
    rw [UInt8.toNat_ofNat']
    omega
  simp [ungroup, value, small]

theorem ungroup_groups {more n : Nat} (bound : n < 128 ^ (more + 1)) (rest : List UInt8) :
    ungroup (groups more n ++ rest) = some (n, rest) := by
  induction more generalizing n with
  | zero => exact ungroup_last (by simpa using bound) rest
  | succ more ih =>
    by_cases small : n < 128
    · simpa [groups, small] using ungroup_last small rest
    · have value : (UInt8.ofNat (n % 128 + 128)).toNat = n % 128 + 128 := by
        rw [UInt8.toNat_ofNat']
        omega
      have tail : n / 128 < 128 ^ (more + 1) :=
        Nat.div_lt_of_lt_mul (by rw [Nat.pow_succ'] at bound; exact bound)
      simp only [groups, small, if_false, List.cons_append, ungroup, value, ih tail,
        Option.map_some]
      rw [if_neg (by omega)]
      congr 2
      omega

/-- A 32-bit integer in at most five groups; longer encodings wrap around. -/
def vInt : WireFormat UInt32 where
  encode n := groups 4 n.toNat
  decode bytes := (ungroup bytes).map fun (n, rest) => (UInt32.ofNat n, rest)
  decode_encode n rest := by
    have bound : n.toNat < 128 ^ (4 + 1) := Nat.lt_trans n.toNat_lt (by decide)
    simp [ungroup_groups bound]

/-- A 64-bit integer in at most ten groups. -/
def vLong : WireFormat UInt64 where
  encode n := groups 9 n.toNat
  decode bytes := (ungroup bytes).map fun (n, rest) => (UInt64.ofNat n, rest)
  decode_encode n rest := by
    have bound : n.toNat < 128 ^ (9 + 1) := Nat.lt_trans n.toNat_lt (by decide)
    simp [ungroup_groups bound]

/-! ### Fixed-width integers -/

def bigEndian : Nat → Nat → List UInt8
  | 0, _ => []
  | width + 1, n => UInt8.ofNat (n / 256 ^ width) :: bigEndian width n

def accumulate : Nat → Nat → List UInt8 → Option (Nat × List UInt8)
  | 0, acc, bytes => some (acc, bytes)
  | _ + 1, _, [] => none
  | width + 1, acc, b :: rest => accumulate width (acc * 256 + b.toNat) rest

theorem accumulate_bigEndian (width acc n : Nat) (rest : List UInt8) :
    accumulate width acc (bigEndian width n ++ rest) =
      some (acc * 256 ^ width + n % 256 ^ width, rest) := by
  induction width generalizing acc with
  | zero => simp [accumulate, bigEndian, Nat.mod_one]
  | succ width ih =>
    have digit : (UInt8.ofNat (n / 256 ^ width)).toNat = n / 256 ^ width % 256 := by
      rw [UInt8.toNat_ofNat']
    have split : n % 256 ^ (width + 1) = 256 ^ width * (n / 256 ^ width % 256) +
        n % 256 ^ width := by
      rw [Nat.pow_succ, Nat.mod_mul]
      ring
    simp only [bigEndian, List.cons_append, accumulate, ih, digit, split]
    congr 2
    ring

theorem accumulate_of_lt {width n : Nat} (bound : n < 256 ^ width) (rest : List UInt8) :
    accumulate width 0 (bigEndian width n ++ rest) = some (n, rest) := by
  rw [accumulate_bigEndian, Nat.zero_mul, Nat.zero_add, Nat.mod_eq_of_lt bound]

def unsignedShort : WireFormat UInt16 where
  encode n := bigEndian 2 n.toNat
  decode bytes := (accumulate 2 0 bytes).map fun (n, rest) => (UInt16.ofNat n, rest)
  decode_encode n rest := by
    have bound : n.toNat < 256 ^ 2 := n.toNat_lt
    simp [accumulate_of_lt bound]

def fourByteInt : WireFormat UInt32 where
  encode n := bigEndian 4 n.toNat
  decode bytes := (accumulate 4 0 bytes).map fun (n, rest) => (UInt32.ofNat n, rest)
  decode_encode n rest := by
    have bound : n.toNat < 256 ^ 4 := n.toNat_lt
    simp [accumulate_of_lt bound]

def long : WireFormat UInt64 where
  encode n := bigEndian 8 n.toNat
  decode bytes := (accumulate 8 0 bytes).map fun (n, rest) => (UInt64.ofNat n, rest)
  decode_encode n rest := by
    have bound : n.toNat < 256 ^ 8 := n.toNat_lt
    simp [accumulate_of_lt bound]

/-! ### Arrays -/

/-- Byte strings whose length fits the 32 bits it is sent in. -/
abbrev Bytes := { bytes : List UInt8 // bytes.length < 2 ^ 32 }

def Bytes.empty : Bytes := ⟨[], Nat.two_pow_pos 32⟩

theorem one_fits (byte : UInt8) : [byte].length < 2 ^ 32 :=
  Nat.one_lt_two_pow (Nat.succ_ne_zero 31)

def Bytes.one (byte : UInt8) : Bytes := ⟨[byte], one_fits byte⟩

def Bytes.size (bytes : Bytes) : UInt32 := UInt32.ofNat bytes.1.length

theorem Bytes.size_toNat (bytes : Bytes) : bytes.size.toNat = bytes.1.length :=
  UInt32.toNat_ofNat_of_lt' bytes.2

def split (size : UInt32) (bytes : List UInt8) : Option (Bytes × List UInt8) :=
  if size.toNat ≤ bytes.length then
    some (⟨bytes.take size.toNat, Nat.lt_of_le_of_lt (List.length_take_le _ _) size.toNat_lt⟩,
      bytes.drop size.toNat)
  else none

theorem split_append (bytes : Bytes) (rest : List UInt8) :
    split bytes.size (bytes.1 ++ rest) = some (bytes, rest) := by
  have fits : bytes.1.length ≤ (bytes.1 ++ rest).length := by
    rw [List.length_append]
    exact Nat.le_add_right _ _
  simp only [split, bytes.size_toNat, List.take_left, List.drop_left, if_pos fits]

def array : WireFormat Bytes where
  encode bytes := vInt.encode bytes.size ++ bytes.1
  decode input := (vInt.decode input).bind fun (size, rest) => split size rest
  decode_encode bytes rest := by
    rw [List.append_assoc, vInt.decode_encode]
    exact split_append bytes rest

/-! ### Composition -/

section Composition

variable {B : Type}

def seq (first : WireFormat A) (second : WireFormat B) : WireFormat (A × B) where
  encode pair := first.encode pair.1 ++ second.encode pair.2
  decode bytes := (first.decode bytes).bind fun (a, rest) =>
    (second.decode rest).map fun (b, rest) => ((a, b), rest)
  decode_encode pair rest := by
    simp only [List.append_assoc, decode_encode_append, Option.bind_some, Option.map_some]

def decodeMany (format : WireFormat A) :
    (n : Nat) → List UInt8 → Option ({ xs : List A // xs.length = n } × List UInt8)
  | 0, bytes => some (⟨[], rfl⟩, bytes)
  | n + 1, bytes => (format.decode bytes).bind fun (x, rest) =>
    (decodeMany format n rest).map fun (xs, rest) =>
      (⟨x :: xs.1, congrArg (fun length => length + 1) xs.2⟩, rest)

theorem decodeMany_encode (format : WireFormat A) {n : Nat} (xs : List A) (length : xs.length = n)
    (rest : List UInt8) :
    format.decodeMany n (xs.flatMap format.encode ++ rest) = some (⟨xs, length⟩, rest) := by
  induction xs generalizing n with
  | nil =>
    subst length
    rfl
  | cons x xs ih =>
    subst length
    simp only [List.flatMap_cons, List.append_assoc, List.length_cons, decodeMany,
      decode_encode_append, Option.bind_some, ih rfl, Option.map_some]

/-- Lists whose length fits the 32 bits it is sent in. -/
abbrev Counted (A : Type) := { xs : List A // xs.length < 2 ^ 32 }

/-- A number and as many values. -/
def counted (format : WireFormat A) : WireFormat (Counted A) where
  encode xs := vInt.encode (UInt32.ofNat xs.1.length) ++ xs.1.flatMap format.encode
  decode input := (vInt.decode input).bind fun (count, rest) =>
    (format.decodeMany count.toNat rest).map fun (xs, rest) =>
      (⟨xs.1, xs.2.trans_lt count.toNat_lt⟩, rest)
  decode_encode xs rest := by
    have count : xs.1.length = (UInt32.ofNat xs.1.length).toNat :=
      (UInt32.toNat_ofNat_of_lt' xs.2).symm
    simp only [List.append_assoc, decode_encode_append, Option.bind_some,
      format.decodeMany_encode xs.1 count rest, Option.map_some]

end Composition

/-! ### What was read -/

/-- What the decoder accepts is the encoding of what it returns. -/
def Tight (format : WireFormat A) : Prop :=
  ∀ {bytes : List UInt8} {a : A} {rest : List UInt8}, format.decode bytes = some (a, rest) →
    bytes = format.encode a ++ rest

theorem tight_byte : Tight byte := by
  intro bytes b rest decoded
  cases bytes with
  | nil => cases decoded
  | cons head tail =>
    cases decoded
    rfl

theorem bigEndian_of_accumulate {width acc n : Nat} {bytes rest : List UInt8}
    (read : accumulate width acc bytes = some (n, rest)) :
    bytes = bigEndian width n ++ rest ∧ n / 256 ^ width = acc := by
  induction width generalizing acc bytes with
  | zero =>
    cases read
    exact ⟨rfl, by rw [Nat.pow_zero, Nat.div_one]⟩
  | succ width ih =>
    cases bytes with
    | nil => cases read
    | cons b bytes =>
      obtain ⟨later, before⟩ := ih read
      have small := b.toNat_lt
      -- the byte is the last digit of what the rest of the number is preceded by
      have digit : UInt8.ofNat (n / 256 ^ width) = b := by
        rw [before, ← UInt8.toNat_inj, UInt8.toNat_ofNat']
        omega
      refine ⟨?_, ?_⟩
      · rw [bigEndian, digit, List.cons_append, ← later]
      · rw [Nat.pow_succ, ← Nat.div_div_eq_div_mul, before]
        omega

theorem tight_long : Tight long := by
  intro bytes a rest decoded
  obtain ⟨⟨n, left⟩, read, same⟩ := Option.map_eq_some_iff.mp decoded
  cases same
  obtain ⟨written, before⟩ := bigEndian_of_accumulate read
  have bound : n < 2 ^ 64 := by
    have positive : 0 < 256 ^ 8 := by decide
    exact (Nat.div_eq_zero_iff_lt positive).mp before
  change bytes = bigEndian 8 (UInt64.ofNat n).toNat ++ rest
  rw [UInt64.toNat_ofNat_of_lt' bound]
  exact written

/-- The number that starts here does not end with an empty group. -/
def Filled : List UInt8 → Prop
  | [] => True
  | b :: rest => if b.toNat < 128 then b ≠ 0 else Filled rest

/-- The number that starts here has no empty group at its end, unless it is the only one. -/
def Minimal : List UInt8 → Prop
  | [] => True
  | b :: rest => 128 ≤ b.toNat → Filled rest

theorem Filled.minimal {bytes : List UInt8} (filled : Filled bytes) : Minimal bytes := by
  cases bytes with
  | nil => trivial
  | cons b rest =>
    intro continues
    rwa [Filled, if_neg (Nat.not_lt.mpr continues)] at filled

theorem ungroup_cons {b : UInt8} {bytes rest : List UInt8} {n : Nat}
    (read : ungroup (b :: bytes) = some (n, rest)) :
    (b.toNat < 128 ∧ n = b.toNat ∧ rest = bytes) ∨
      (128 ≤ b.toNat ∧ ∃ m, ungroup bytes = some (m, rest) ∧ n = b.toNat % 128 + 128 * m) := by
  rw [ungroup] at read
  split at read
  · next last =>
    cases read
    exact .inl ⟨last, rfl, rfl⟩
  · next continues =>
    obtain ⟨⟨m, left⟩, later, same⟩ := Option.map_eq_some_iff.mp read
    cases same
    exact .inr ⟨Nat.not_lt.mp continues, m, later, rfl⟩

theorem Filled.pos {bytes rest : List UInt8} {n : Nat} (filled : Filled bytes)
    (read : ungroup bytes = some (n, rest)) : 0 < n := by
  induction bytes generalizing n with
  | nil => cases read
  | cons b bytes ih =>
    rw [Filled] at filled
    obtain ⟨last, rfl, -⟩ | ⟨continues, m, later, rfl⟩ := ungroup_cons read
    · rw [if_pos last] at filled
      exact Nat.pos_of_ne_zero fun zero => filled (UInt8.toNat_inj.mp zero)
    · rw [if_neg (Nat.not_lt.mpr continues)] at filled
      have positive : 0 < m := ih filled later
      omega

theorem groups_of_ungroup {more n : Nat} {bytes rest : List UInt8} (minimal : Minimal bytes)
    (read : ungroup bytes = some (n, rest)) (bound : n < 128 ^ (more + 1)) :
    bytes = groups more n ++ rest := by
  induction more generalizing bytes n with
  | zero =>
    cases bytes with
    | nil => cases read
    | cons b bytes =>
      obtain ⟨-, rfl, rfl⟩ | ⟨continues, m, later, rfl⟩ := ungroup_cons read
      · rw [groups, UInt8.ofNat_toNat, List.singleton_append]
      · have positive : 0 < m := (minimal continues).pos later
        omega
  | succ more ih =>
    cases bytes with
    | nil => cases read
    | cons b bytes =>
      obtain ⟨last, rfl, rfl⟩ | ⟨continues, m, later, rfl⟩ := ungroup_cons read
      · rw [groups, if_pos last, UInt8.ofNat_toNat, List.singleton_append]
      · have filled : Filled bytes := minimal continues
        have positive : 0 < m := filled.pos later
        have small := b.toNat_lt
        have group : b.toNat % 128 + 128 = b.toNat := by omega
        have fewer : m < 128 ^ (more + 1) := by
          rw [Nat.pow_succ'] at bound
          omega
        rw [groups, if_neg (by omega), Nat.add_mul_mod_self_left, Nat.mod_mod, group,
          UInt8.ofNat_toNat, Nat.add_mul_div_left _ _ (by decide),
          Nat.div_eq_of_lt (Nat.mod_lt _ (by decide)), Nat.zero_add, List.cons_append,
          ← ih filled.minimal later fewer]

/-- The number that starts here fits 32 bits. -/
def Fits (bytes : List UInt8) : Prop := ∀ n rest, ungroup bytes = some (n, rest) → n < 2 ^ 32

theorem vInt_encode_iff {bytes rest : List UInt8} {v : UInt32} (minimal : Minimal bytes)
    (decoded : vInt.decode bytes = some (v, rest)) :
    bytes = vInt.encode v ++ rest ↔ Fits bytes := by
  obtain ⟨⟨n, left⟩, read, same⟩ := Option.map_eq_some_iff.mp decoded
  cases same
  constructor
  · intro written m after found
    have again : ungroup bytes = some ((UInt32.ofNat n).toNat, rest) := by
      have bound : (UInt32.ofNat n).toNat < 128 ^ (4 + 1) :=
        Nat.lt_trans (UInt32.ofNat n).toNat_lt (by decide)
      rw [written]
      exact ungroup_groups bound rest
    rw [again] at found
    cases found
    exact (UInt32.ofNat n).toNat_lt
  · intro fits
    have small : n < 2 ^ 32 := fits n rest read
    change bytes = groups 4 (UInt32.ofNat n).toNat ++ rest
    rw [UInt32.toNat_ofNat_of_lt' small]
    exact groups_of_ungroup minimal read (Nat.lt_trans small (by decide))

/-! ### Parsing -/

abbrev Parser := StateT (List UInt8) Option

def parse (format : WireFormat A) : Parser A := format.decode

theorem parse_encode (format : WireFormat A) (a : A) (rest : List UInt8) :
    format.parse (format.encode a ++ rest) = some (a, rest) := format.decode_encode a rest

theorem parse_last (format : WireFormat A) (a : A) :
    format.parse (format.encode a) = some (a, []) := by
  have read := format.parse_encode a []
  rwa [List.append_nil] at read

def Shrinks (p : Parser A) : Prop :=
  ∀ bytes a rest, p bytes = some (a, rest) → rest.length ≤ bytes.length

theorem parser_bind_apply {B : Type} (p : Parser A) (q : A → Parser B) (bytes : List UInt8) :
    (p >>= q) bytes = (p bytes).bind fun (a, rest) => q a rest := rfl

theorem parsed_map {B : Type} {p : Parser A} {bytes rest : List UInt8} {a : A}
    (parsed : p bytes = some (a, rest)) (f : A → B) :
    (p >>= fun a => pure (f a)) bytes = some (f a, rest) := by
  rw [parser_bind_apply, parsed]
  rfl

theorem shrinks_pure (a : A) : Shrinks (pure a) := by
  intro bytes b rest parsed
  cases parsed
  exact Nat.le_refl _

theorem Shrinks.bind {B : Type} {p : Parser A} {q : A → Parser B} (first : Shrinks p)
    (second : ∀ a, Shrinks (q a)) : Shrinks (p >>= q) := by
  intro bytes b rest parsed
  rw [parser_bind_apply, Option.bind_eq_some_iff] at parsed
  obtain ⟨⟨a, middle⟩, here, later⟩ := parsed
  exact Nat.le_trans (second a middle b rest later) (first bytes a middle here)

theorem Shrinks.ite {P : Prop} [Decidable P] {p q : Parser A} (first : Shrinks p)
    (second : Shrinks q) : Shrinks (if P then p else q) := by
  split
  · exact first
  · exact second

theorem parse_byte_cons (b : UInt8) (rest : List UInt8) :
    byte.parse (b :: rest) = some (b, rest) := rfl

theorem shrinks_byte : Shrinks byte.parse := by
  intro bytes b rest parsed
  cases bytes with
  | nil => cases parsed
  | cons head tail =>
    cases parsed
    exact Nat.le_succ _

theorem length_ungroup {bytes rest : List UInt8} {n : Nat}
    (parsed : ungroup bytes = some (n, rest)) : rest.length ≤ bytes.length := by
  induction bytes generalizing n with
  | nil => cases parsed
  | cons b bytes ih =>
    rw [ungroup] at parsed
    split at parsed
    · cases parsed
      exact Nat.le_succ _
    · rw [Option.map_eq_some_iff] at parsed
      obtain ⟨⟨m, middle⟩, later, same⟩ := parsed
      cases same
      exact Nat.le_succ_of_le (ih later)

theorem length_accumulate {width acc n : Nat} {bytes rest : List UInt8}
    (parsed : accumulate width acc bytes = some (n, rest)) : rest.length ≤ bytes.length := by
  induction width generalizing acc bytes with
  | zero =>
    cases parsed
    exact Nat.le_refl _
  | succ width ih =>
    cases bytes with
    | nil => cases parsed
    | cons b bytes => exact Nat.le_succ_of_le (ih parsed)

theorem shrinks_vInt : Shrinks vInt.parse := by
  intro bytes a rest parsed
  obtain ⟨⟨n, middle⟩, read, same⟩ := Option.map_eq_some_iff.mp parsed
  cases same
  exact length_ungroup read

theorem shrinks_vLong : Shrinks vLong.parse := by
  intro bytes a rest parsed
  obtain ⟨⟨n, middle⟩, read, same⟩ := Option.map_eq_some_iff.mp parsed
  cases same
  exact length_ungroup read

theorem shrinks_long : Shrinks long.parse := by
  intro bytes a rest parsed
  obtain ⟨⟨n, middle⟩, read, same⟩ := Option.map_eq_some_iff.mp parsed
  cases same
  exact length_accumulate read

theorem shrinks_array : Shrinks array.parse := by
  intro bytes a rest parsed
  obtain ⟨⟨size, middle⟩, read, cut⟩ := Option.bind_eq_some_iff.mp parsed
  refine Nat.le_trans ?_ (shrinks_vInt bytes size middle read)
  obtain ⟨-, same⟩ := Option.ite_none_right_eq_some.mp cut
  cases same
  rw [List.length_drop]
  exact Nat.sub_le _ _

end WireFormat
