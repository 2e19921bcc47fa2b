import HotRod.Exceptions
import Mathlib.Data.List.Basic
import Mathlib.Tactic.Ring

/-! Strings as the JBoss marshaller sends them.

A preamble of a version, a type and a length stands before the bytes: `SMALL_STRING`
has a length of one byte, `MEDIUM_STRING` of two, most significant first. Two encoders
and three decoders of the client know that format; each has its own thresholds. A
`char` is signed, as it is on x86, and a `std::string` is its bytes. -/

set_option autoImplicit false

namespace HotRod.Marshalling

/-! ### The format -/

def marshallVersion : UInt8 := 0x03

def smallString : UInt8 := 0x3e

def mediumString : UInt8 := 0x3f

-- The length that a preamble denotes, and what follows the preamble.
def preamble : List UInt8 → Option (Nat × List UInt8)
  | version :: kind :: size :: rest =>
    if version ≠ marshallVersion then none
    else if kind = smallString then some (size.toNat, rest)
    else if kind = mediumString then
      match rest with
      | low :: data => some (size.toNat * 256 + low.toNat, data)
      | [] => none
    else none
  | _ => none

-- The conversion `(char) n` keeps the low byte.
def char (n : Nat) : UInt8 := UInt8.ofNat n

def small (size : UInt8) (s : List UInt8) : List UInt8 :=
  marshallVersion :: smallString :: size :: s

def medium (high low : UInt8) (s : List UInt8) : List UInt8 :=
  marshallVersion :: mediumString :: high :: low :: s

@[simp] theorem char_toNat (n : Nat) : (char n).toNat = n % 256 := UInt8.toNat_ofNat'

@[simp] theorem preamble_small (size : UInt8) (s : List UInt8) :
    preamble (small size s) = some (size.toNat, s) := rfl

@[simp] theorem preamble_medium (high low : UInt8) (s : List UInt8) :
    preamble (medium high low s) = some (high.toNat * 256 + low.toNat, s) := rfl

theorem small_ne_medium (size high low : UInt8) (s t : List UInt8) :
    small size s ≠ medium high low t := by
  intro same
  have kinds : smallString = mediumString := (List.cons.inj (List.cons.inj same).2).1
  exact absurd kinds (by decide)

/-! ### Buffers and strings of C++ -/

inductive ReadFault where
  | raised (e : Exn)
  | pastEnd
  deriving DecidableEq, Repr

abbrev ReadM := Except ReadFault

-- What the constructor of `std::string` throws for a size above its maximum.
def lengthError : ReadFault := .raised (.std "basic_string::_M_create")

def byteAt (b : List UInt8) (i : Nat) : ReadM UInt8 :=
  match b[i]? with
  | some c => pure c
  | none => throw .pastEnd

/-- `std::string(b + start, size)`. The size is converted to an unsigned one, so a
negative one is larger than any string. -/
def string (b : List UInt8) (start : Nat) (size : Int) : ReadM (List UInt8) :=
  if size < 0 then throw lengthError
  else if start + size.toNat ≤ b.length then pure ((b.drop start).take size.toNat)
  else throw .pastEnd

theorem length_of_string {b s : List UInt8} {start : Nat} {size : Int}
    (made : string b start size = .ok s) : (s.length : Int) = size := by
  unfold string at made
  split at made
  · cases made
  · next nonnegative =>
    split at made
    · next fits =>
      cases made
      rw [List.length_take, List.length_drop]
      omega
    · cases made

/-! ### The encoders -/

namespace JBasicMarshaller

def marshallSmall (s : List UInt8) : List UInt8 :=
  small (char s.length) s

def marshallMedium (s : List UInt8) : List UInt8 :=
  medium (char (s.length >>> 8)) (char (s.length &&& 0xff)) s

def marshall (s : List UInt8) : List UInt8 :=
  if s.length ≤ 0x100 then marshallSmall s else marshallMedium s

-- The whole of the buffer after three bytes, whatever its preamble says.
def unmarshall (b : List UInt8) : ReadM (List UInt8) :=
  string b 3 ((b.length : Int) - 3)

def addPreambleSmall (s : List UInt8) : List UInt8 :=
  small (char s.length) s

-- The second byte of the length is `s.size() && 0xff`, a truth value.
def addPreambleMedium (s : List UInt8) : List UInt8 :=
  medium (char (s.length >>> 8)) (char (if s.length ≠ 0 ∧ 0xff ≠ 0 then 1 else 0)) s

def addPreamble (s : List UInt8) : List UInt8 :=
  if s.length < 0x100 then addPreambleSmall s else addPreambleMedium s

end JBasicMarshaller

def JBasicMarshallerHelper.unmarshall (b : List UInt8) : ReadM (List UInt8) := do
  if (← byteAt b 0) ≠ marshallVersion then
    throw (.raised (.exception "JBasicMarshallerHelper: bad version"))
  let kind ← byteAt b 1
  if kind ≠ smallString ∧ kind ≠ mediumString then
    throw (.raised (.exception "JBasicMarshallerHelper: not a string"))
  string b 3 (← byteAt b 2).toInt8.toInt

namespace JBossMarshaller

def marshallSmall (s : List UInt8) : List UInt8 :=
  small (char s.length) s

def marshallMedium (s : List UInt8) : List UInt8 :=
  medium (char (s.length >>> 8)) (char (s.length &&& 0xff)) s

def marshall (s : List UInt8) : List UInt8 :=
  if s.length ≤ 0x100 then marshallSmall s else marshallMedium s

-- Null for an empty buffer.
def unmarshall (b : List UInt8) : ReadM (Option (List UInt8)) :=
  if b.isEmpty then pure none
  else some <$> string b 3 ((b.length : Int) - 3)

end JBossMarshaller

/-! ### What comes back -/

theorem string_rest {b : List UInt8} {start : Nat} (fits : start ≤ b.length) :
    string b start ((b.length : Int) - start) = .ok (b.drop start) := by
  have size : ((b.length : Int) - start).toNat = b.length - start := by omega
  have whole : (b.drop start).length ≤ b.length - start := by rw [List.length_drop]
  rw [string, if_neg (by omega), size, if_pos (by omega), List.take_of_length_le whole]
  rfl

theorem JBasicMarshaller.unmarshall_marshallSmall (s : List UInt8) :
    unmarshall (marshallSmall s) = .ok s :=
  string_rest (Nat.le_add_left 3 s.length)

theorem JBasicMarshaller.unmarshall_marshallMedium (s : List UInt8) :
    unmarshall (marshallMedium s) = .ok (char (s.length &&& 0xff) :: s) :=
  string_rest (Nat.le_add_left 3 (s.length + 1))

theorem JBasicMarshaller.unmarshall_marshall (s : List UInt8) :
    unmarshall (marshall s) =
      .ok (if s.length ≤ 0x100 then s else char (s.length &&& 0xff) :: s) := by
  unfold marshall
  split
  · exact unmarshall_marshallSmall s
  · exact unmarshall_marshallMedium s

theorem JBossMarshaller.marshall_eq (s : List UInt8) :
    marshall s = JBasicMarshaller.marshall s := rfl

theorem JBossMarshaller.unmarshall_of_ne_nil {b : List UInt8} (nonempty : b ≠ []) :
    unmarshall b = some <$> JBasicMarshaller.unmarshall b := by
  have something : b.isEmpty = false := List.isEmpty_eq_false_iff.mpr nonempty
  rw [unmarshall, something]
  rfl

theorem JBasicMarshaller.marshall_ne_nil (s : List UInt8) : marshall s ≠ [] := by
  unfold marshall
  split <;> exact List.cons_ne_nil _ _

/-! ### The length field -/

theorem preamble_marshallSmall (s : List UInt8) :
    preamble (JBasicMarshaller.marshallSmall s) = some (s.length % 256, s) := by
  rw [JBasicMarshaller.marshallSmall, preamble_small, char_toNat]

theorem preamble_marshallMedium (s : List UInt8) :
    preamble (JBasicMarshaller.marshallMedium s) = some (s.length % 65536, s) := by
  have low : s.length &&& 0xff = s.length % 256 := Nat.and_two_pow_sub_one_eq_mod s.length 8
  rw [JBasicMarshaller.marshallMedium, preamble_medium, char_toNat, char_toNat,
    Nat.shiftRight_eq_div_pow, low, Nat.mod_mod]
  congr 2
  omega

/-! ### Round trips -/

inductive StringMarshaller where
  | jBasic
  | jBoss
  deriving DecidableEq, Repr

def StringMarshaller.marshall : StringMarshaller → List UInt8 → List UInt8
  | .jBasic => JBasicMarshaller.marshall
  | .jBoss => JBossMarshaller.marshall

-- The result is a pointer, which may be null.
def StringMarshaller.unmarshall : StringMarshaller → List UInt8 → ReadM (Option (List UInt8))
  | .jBasic, b => some <$> JBasicMarshaller.unmarshall b
  | .jBoss, b => JBossMarshaller.unmarshall b

/-- The string comes back, and the length field is its size. -/
structure RoundTrips (m : StringMarshaller) (s : List UInt8) : Prop where
  back : m.unmarshall (m.marshall s) = .ok (some s)
  size : (preamble (m.marshall s)).map Prod.fst = some s.length

theorem StringMarshaller.unmarshall_marshall (m : StringMarshaller) (s : List UInt8) :
    m.unmarshall (m.marshall s) =
      .ok (some (if s.length ≤ 0x100 then s else char (s.length &&& 0xff) :: s)) := by
  cases m with
  | jBasic => rw [unmarshall, marshall, JBasicMarshaller.unmarshall_marshall]; rfl
  | jBoss =>
    rw [unmarshall, marshall, JBossMarshaller.marshall_eq,
      JBossMarshaller.unmarshall_of_ne_nil (JBasicMarshaller.marshall_ne_nil s),
      JBasicMarshaller.unmarshall_marshall]
    rfl

theorem StringMarshaller.marshall_eq (m : StringMarshaller) (s : List UInt8) :
    m.marshall s = JBasicMarshaller.marshall s := by
  cases m <;> rfl

theorem StringMarshaller.size_marshall (m : StringMarshaller) (s : List UInt8) :
    (preamble (m.marshall s)).map Prod.fst =
      some (if s.length ≤ 0x100 then s.length % 256 else s.length % 65536) := by
  rw [m.marshall_eq, JBasicMarshaller.marshall]
  split
  · rw [preamble_marshallSmall, Option.map_some]
  · rw [preamble_marshallMedium, Option.map_some]

theorem StringMarshaller.back_iff (m : StringMarshaller) (s : List UInt8) :
    m.unmarshall (m.marshall s) = .ok (some s) ↔ s.length ≤ 256 := by
  rw [m.unmarshall_marshall]
  constructor
  · intro same
    by_contra long
    rw [if_neg long] at same
    have longer := congrArg List.length (Option.some.inj (Except.ok.inj same))
    rw [List.length_cons] at longer
    omega
  · intro short
    rw [if_pos short]

/-- The string of 256 bytes comes back, but its length field says 0; every longer one
has the right length field up to 65535 bytes and does not come back. -/
theorem roundTrips_iff (m : StringMarshaller) (s : List UInt8) :
    RoundTrips m s ↔ s.length ≤ 255 := by
  constructor
  · intro trip
    have short : s.length ≤ 256 := (m.back_iff s).mp trip.back
    have size := trip.size
    rw [m.size_marshall, if_pos short] at size
    have same : s.length % 256 = s.length := Option.some.inj size
    omega
  · intro short
    have fits : s.length ≤ 0x100 := Nat.le_succ_of_le short
    refine ⟨(m.back_iff s).mpr fits, ?_⟩
    rw [m.size_marshall, if_pos fits, Nat.mod_eq_of_lt (by omega)]

theorem not_roundTrips_of_at_most_65535 :
    ¬ ∀ (m : StringMarshaller) (s : List UInt8), s.length ≤ 65535 → RoundTrips m s := by
  intro all
  have trip := all .jBasic (List.replicate 257 0x61) (by rw [List.length_replicate]; decide)
  have short := ((StringMarshaller.jBasic).back_iff _).mp trip.back
  rw [List.length_replicate] at short
  exact absurd short (by decide)

/-! ### Agreement of the encoders and the second decoder -/

theorem addPreamble_eq_marshall_iff (s : List UInt8) :
    JBasicMarshaller.addPreamble s = JBasicMarshaller.marshall s ↔
      s.length ≤ 255 ∨ 257 ≤ s.length ∧ s.length % 256 = 1 := by
  unfold JBasicMarshaller.addPreamble JBasicMarshaller.marshall
  by_cases short : s.length ≤ 255
  · rw [if_pos (by omega), if_pos (by omega)]
    exact iff_of_true rfl (.inl short)
  rw [if_neg (by omega)]
  by_cases longer : s.length ≤ 0x100
  · rw [if_pos longer]
    exact iff_of_false (small_ne_medium _ _ _ _ _).symm (by omega)
  · rw [if_neg longer]
    have low : s.length &&& 0xff = s.length % 256 := Nat.and_two_pow_sub_one_eq_mod s.length 8
    have nonempty : s.length ≠ 0 := by omega
    rw [JBasicMarshaller.addPreambleMedium, JBasicMarshaller.marshallMedium,
      if_pos ⟨nonempty, by decide⟩, low]
    constructor
    · intro same
      have bytes : char 1 = char (s.length % 256) := by
        simp only [medium, List.cons.injEq] at same
        exact same.2.2.2.1
      have lows := congrArg UInt8.toNat bytes
      rw [char_toNat, char_toNat, Nat.mod_mod] at lows
      exact .inr ⟨by omega, lows.symm⟩
    · intro either
      have one : s.length % 256 = 1 := by omega
      rw [one]

theorem helper_small (size : UInt8) (s : List UInt8) :
    JBasicMarshallerHelper.unmarshall (small size s) = string (small size s) 3 size.toInt8.toInt :=
  rfl

theorem helper_medium (high low : UInt8) (s : List UInt8) :
    JBasicMarshallerHelper.unmarshall (medium high low s) =
      string (medium high low s) 3 high.toInt8.toInt :=
  rfl

theorem signed_char (n : Nat) :
    (char n).toInt8.toInt = if n % 256 < 128 then (n % 256 : Int) else (n % 256 : Int) - 256 := by
  have cond := BitVec.toInt_eq_toNat_cond (char n).toBitVec
  have low : (char n).toBitVec.toNat = n % 256 := char_toNat n
  rw [low] at cond
  change (char n).toBitVec.toInt = _
  rw [cond]
  split <;> split <;> omega

theorem JBasicMarshallerHelper.length_of_unmarshall_marshall {s t : List UInt8}
    (read : JBasicMarshallerHelper.unmarshall (JBasicMarshaller.marshall s) = .ok t) :
    t.length ≤ 127 := by
  have signed : ∃ c : UInt8, (t.length : Int) = c.toInt8.toInt := by
    unfold JBasicMarshaller.marshall at read
    split at read
    · exact ⟨_, length_of_string ((helper_small _ _).symm.trans read)⟩
    · exact ⟨_, length_of_string ((helper_medium _ _ _).symm.trans read)⟩
  obtain ⟨c, length⟩ := signed
  have bound : c.toInt8.toInt < 128 := Int8.toInt_lt _
  omega

theorem JBasicMarshallerHelper.unmarshall_of_short {s : List UInt8} (short : s.length ≤ 127) :
    JBasicMarshallerHelper.unmarshall (JBasicMarshaller.marshall s) = .ok s := by
  have small : JBasicMarshaller.marshall s = JBasicMarshaller.marshallSmall s :=
    if_pos (by omega)
  have size : (char s.length).toInt8.toInt = s.length := by
    rw [signed_char, if_pos (by omega)]
    omega
  have rest : ((s.length : Int)) = ((s.length + 3 : Nat) : Int) - (3 : Nat) := by omega
  rw [small, JBasicMarshaller.marshallSmall, helper_small, size, rest]
  exact string_rest (Nat.le_add_left 3 s.length)

/-- The string encoders and decoders agree on the strings of at most 127 bytes. From
128 bytes on the length is negative for the second decoder, from 256 on it is that of
another string. -/
theorem encoders_agree_iff (s : List UInt8) :
    (JBasicMarshaller.addPreamble s = JBasicMarshaller.marshall s ∧
      JBasicMarshallerHelper.unmarshall (JBasicMarshaller.marshall s) = .ok s) ↔
        s.length ≤ 127 := by
  constructor
  · intro agree
    exact JBasicMarshallerHelper.length_of_unmarshall_marshall agree.2
  · intro short
    exact ⟨(addPreamble_eq_marshall_iff s).mpr (.inl (by omega)),
      JBasicMarshallerHelper.unmarshall_of_short short⟩

theorem not_encoders_agree_of_at_most_65535 :
    ¬ ∀ s : List UInt8, s.length ≤ 65535 →
      JBasicMarshaller.addPreamble s = JBasicMarshaller.marshall s ∧
        JBasicMarshallerHelper.unmarshall (JBasicMarshaller.marshall s) = .ok s := by
  intro all
  have agree := all (List.replicate 128 0x61) (by rw [List.length_replicate]; decide)
  have short := JBasicMarshallerHelper.length_of_unmarshall_marshall agree.2
  rw [List.length_replicate] at short
  exact absurd short (by decide)

end HotRod.Marshalling
