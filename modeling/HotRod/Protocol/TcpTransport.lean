import HotRod.Protocol.Connection

/-! The loops of `TcpTransport` and `AbstractTransport` over the bytes of a stream, on words
of the widths that they have in the code.

A left shift drops the bits that leave the word. A shift by 64 or more has no meaning, so a
read that comes to one ends there. -/

set_option autoImplicit false

namespace HotRod.Protocol.TcpTransport

open Semantics.Execution
open WireFormat (Bytes groups ungroup bigEndian accumulate)

/-! ### Writing -/

-- The loop of `writeVInt` and `writeVLong`; the mask is extended to the width.
def writeGroups {w : Nat} (n : BitVec w) : List UInt8 :=
  if n &&& ~~~0x7F#w ≠ 0#w then
    ⟨((n &&& 0x7F#w) ||| 0x80#w).setWidth 8⟩ :: writeGroups (n >>> 7)
  else [⟨n.setWidth 8⟩]
termination_by n.toNat
decreasing_by
  rename_i more
  have positive : 0 < n.toNat := by
    rw [Nat.pos_iff_ne_zero]
    intro zero
    have none : n = 0#w := BitVec.eq_of_toNat_eq (zero.trans BitVec.toNat_zero.symm)
    rw [none, BitVec.zero_and] at more
    exact more rfl
  rw [BitVec.toNat_ushiftRight, Nat.shiftRight_eq_div_pow]
  exact Nat.div_lt_self positive (by decide)

def writeVInt (uint : UInt32) : List UInt8 := writeGroups uint.toBitVec

def writeVLong (ulong : UInt64) : List UInt8 := writeGroups ulong.toBitVec

def writeLong (longValue : Int64) : List UInt8 :=
  (List.range 8).foldl
    (fun ptr i => ptr.set (7 - i) ⟨(longValue.toBitVec.sshiftRight (8 * i)).setWidth 8⟩)
    (List.replicate 8 0)

-- The size is cast to 32 bits.
def writeArray (bytes : List UInt8) : List UInt8 := writeVInt (UInt32.ofNat bytes.length) ++ bytes

-- `writeBytes` of a pointer takes the size in 32 bits, too.
def writeString (str : List UInt8) : List UInt8 :=
  writeVInt (UInt32.ofNat str.length) ++ str.take (UInt32.ofNat str.length).toNat

/-! ### Reading -/

/-- Why a read does not return: the stream raises an exception where it has no more to
give, or the shift is not defined. -/
inductive ReadFault where
  | ended
  | shift
  deriving DecidableEq, Repr

abbrev ReadM := EStateM ReadFault (List UInt8)

-- `for (; (b & 0x80) != 0; shift += 7)`
def readMore {w : Nat} (promote : UInt8 → BitVec 64) (b : UInt8) (i : BitVec w) (shift : Nat)
    (bytes : List UInt8) : EStateM.Result ReadFault (List UInt8) (BitVec w) :=
  if promote b &&& 0x80#64 ≠ 0#64 then
    match bytes with
    | [] => .error .ended []
    | b :: rest =>
      if shift < 64 then
        let i := (i.signExtend 64 ||| (promote b &&& 0x7F#64) <<< shift).setWidth w
        readMore promote b i (shift + 7) rest
      else .error .shift rest
  else .ok i bytes

-- `i` is a signed word of width `w`, and `promote` extends `b` to a `long`.
def readGroups (w : Nat) (promote : UInt8 → BitVec 64) : ReadM (BitVec w)
  | [] => .error .ended []
  | b :: rest => readMore promote b ((promote b &&& 0x7F#64).setWidth w) 7 rest

def readVInt : ReadM UInt32 := do
  let i ← readGroups 32 fun b => b.toBitVec.setWidth 64
  pure ⟨i⟩

def readVLong : ReadM UInt64 := do
  let i ← readGroups 64 fun b => b.toBitVec.signExtend 64
  pure ⟨i⟩

def readBytes (size : UInt32) : ReadM (List UInt8) := fun bytes =>
  if size.toNat ≤ bytes.length then .ok (bytes.take size.toNat) (bytes.drop size.toNat)
  else .error .ended []

def readArray : ReadM (List UInt8) := do
  let size ← readVInt
  readBytes size

def readString : ReadM (List UInt8) := readArray

-- `result <<= 8; result ^= (int64_t) b & 0xFF`
def shiftIn (result : BitVec 64) (b : UInt8) : BitVec 64 :=
  (result <<< 8) ^^^ (b.toBitVec.signExtend 64 &&& 0xFF#64)

def readLong : ReadM Int64 := do
  let longBytes ← readBytes 8
  pure (.ofBitVec (longBytes.foldl shiftIn 0#64))

/-! ### What the writing loop writes -/

section Groups

variable {w : Nat}

theorem toNat_0x7F (wide : 8 ≤ w) : (0x7F#w).toNat = 2 ^ 7 - 1 := by
  have fits : 2 ^ 8 ≤ 2 ^ w := Nat.pow_le_pow_right (by decide) wide
  rw [BitVec.toNat_ofNat]
  exact Nat.mod_eq_of_lt (Nat.lt_of_lt_of_le (by decide) fits)

theorem getLsbD_0x7F (wide : 8 ≤ w) (i : Nat) : (0x7F#w).getLsbD i = decide (i < 7) := by
  rw [BitVec.getLsbD, toNat_0x7F wide, Nat.testBit_two_pow_sub_one]

theorem high_eq_zero_iff (wide : 8 ≤ w) (n : BitVec w) :
    n &&& ~~~0x7F#w = 0#w ↔ n.toNat < 128 := by
  have shifted : n.toNat < 128 ↔ n >>> 7 = 0#w := by
    rw [← BitVec.toNat_inj, BitVec.toNat_ushiftRight, Nat.shiftRight_eq_div_pow, BitVec.toNat_zero,
      Nat.div_eq_zero_iff_lt (by decide)]
  have bits : ∀ i < w, (n &&& ~~~0x7F#w).getLsbD i = (n.getLsbD i && !decide (i < 7)) := by
    intro i inside
    rw [BitVec.getLsbD_and, BitVec.getLsbD_not, getLsbD_0x7F wide, decide_eq_true inside,
      Bool.true_and]
  rw [shifted]
  constructor
  · intro zero
    apply BitVec.eq_of_getLsbD_eq
    intro i inside
    rw [BitVec.getLsbD_ushiftRight, BitVec.getLsbD_zero]
    by_cases below : 7 + i < w
    · have bit := bits (7 + i) below
      rw [zero, BitVec.getLsbD_zero] at bit
      simpa using bit.symm
    · exact BitVec.getLsbD_of_ge n (7 + i) (Nat.le_of_not_lt below)
  · intro zero
    apply BitVec.eq_of_getLsbD_eq
    intro i inside
    rw [bits i inside, BitVec.getLsbD_zero]
    by_cases low : i < 7
    · simp [low]
    · have bit := congrArg (fun x => x.getLsbD (i - 7)) zero
      have place : 7 + (i - 7) = i := by omega
      simp only [BitVec.getLsbD_ushiftRight, place, BitVec.getLsbD_zero] at bit
      rw [bit, Bool.false_and]

theorem low_toNat (wide : 8 ≤ w) (n : BitVec w) : (n &&& 0x7F#w).toNat = n.toNat % 128 := by
  rw [BitVec.toNat_and, toNat_0x7F wide, Nat.and_two_pow_sub_one_eq_mod]

theorem marked_toNat (wide : 8 ≤ w) (n : BitVec w) :
    ((n &&& 0x7F#w) ||| 0x80#w).toNat = n.toNat % 128 + 128 := by
  have fits : 2 ^ 8 ≤ 2 ^ w := Nat.pow_le_pow_right (by decide) wide
  have mark : (0x80#w).toNat = 2 ^ 7 * 1 := by
    rw [BitVec.toNat_ofNat]
    exact Nat.mod_eq_of_lt (Nat.lt_of_lt_of_le (by decide) fits)
  rw [BitVec.toNat_or, low_toNat wide, mark, Nat.or_comm,
    ← Nat.two_pow_add_eq_or_of_lt (Nat.mod_lt _ (by decide))]
  exact Nat.add_comm _ _

theorem toByte_eq (n : BitVec w) : (⟨n.setWidth 8⟩ : UInt8) = UInt8.ofNat n.toNat := by
  rw [← UInt8.toNat_inj, UInt8.toNat_ofNat']
  exact BitVec.toNat_setWidth 8 n

theorem writeGroups_eq (wide : 8 ≤ w) {more : Nat} {n : BitVec w}
    (bound : n.toNat < 128 ^ (more + 1)) : writeGroups n = groups more n.toNat := by
  induction more generalizing n with
  | zero =>
    have last : n &&& ~~~0x7F#w = 0#w := (high_eq_zero_iff wide n).mpr (by simpa using bound)
    rw [writeGroups, if_neg (not_not.mpr last), groups, toByte_eq]
  | succ more ih =>
    rw [writeGroups, groups, toByte_eq, toByte_eq, marked_toNat wide]
    by_cases small : n.toNat < 128
    · rw [if_pos small, if_neg (not_not.mpr ((high_eq_zero_iff wide n).mpr small))]
    · have shifted : (n >>> 7).toNat = n.toNat / 128 := by
        rw [BitVec.toNat_ushiftRight, Nat.shiftRight_eq_div_pow]
      have fewer : (n >>> 7).toNat < 128 ^ (more + 1) := by
        rw [shifted]
        exact Nat.div_lt_of_lt_mul (by rwa [Nat.pow_succ'] at bound)
      rw [if_neg small, if_pos (mt (high_eq_zero_iff wide n).mp small), ih fewer, shifted]

theorem length_groups (more n : Nat) : (groups more n).length ≤ more + 1 := by
  induction more generalizing n with
  | zero => exact Nat.le_refl 1
  | succ more ih =>
    rw [groups]
    split
    · exact Nat.succ_le_succ (Nat.zero_le _)
    · exact Nat.succ_le_succ (ih (n / 128))

theorem writeVInt_eq (n : UInt32) : writeVInt n = WireFormat.vInt.encode n :=
  writeGroups_eq (by decide) (Nat.lt_trans n.toNat_lt (by decide))

theorem writeVLong_eq (n : UInt64) : writeVLong n = WireFormat.vLong.encode n :=
  writeGroups_eq (by decide) (Nat.lt_trans n.toNat_lt (by decide))

end Groups

/-! ### What the reading loop reads -/

section Reading

variable {w : Nat} {promote : UInt8 → BitVec 64} {bytes rest : List UInt8}

structure Extends (promote : UInt8 → BitVec 64) : Prop where
  low : ∀ b, (promote b &&& 0x7F#64).toNat = b.toNat % 128
  mark : ∀ b, promote b &&& 0x80#64 ≠ 0#64 ↔ 128 ≤ b.toNat

theorem extends_unsigned : Extends fun b => b.toBitVec.setWidth 64 where
  low b := by
    have all : ∀ v : BitVec 8, (v.setWidth 64 &&& 0x7F#64).toNat = v.toNat % 128 := by
      decide +kernel
    exact all b.toBitVec
  mark b := by
    have all : ∀ v : BitVec 8, v.setWidth 64 &&& 0x80#64 ≠ 0#64 ↔ 128 ≤ v.toNat := by decide +kernel
    exact all b.toBitVec

theorem extends_signed : Extends fun b => b.toBitVec.signExtend 64 where
  low b := by
    have all : ∀ v : BitVec 8, (v.signExtend 64 &&& 0x7F#64).toNat = v.toNat % 128 := by
      decide +kernel
    exact all b.toBitVec
  mark b := by
    have all : ∀ v : BitVec 8, v.signExtend 64 &&& 0x80#64 ≠ 0#64 ↔ 128 ≤ v.toNat := by
      decide +kernel
    exact all b.toBitVec

theorem or_group {w acc shift : Nat} (narrow : w ≤ 64) (below : acc < 2 ^ shift)
    (group : BitVec 64) :
    ((BitVec.ofNat w acc).signExtend 64 ||| group <<< shift).setWidth w =
      BitVec.ofNat w (acc + 2 ^ shift * group.toNat) := by
  have back : ((BitVec.ofNat w acc).signExtend 64).setWidth w = BitVec.ofNat w acc := by
    apply BitVec.eq_of_getLsbD_eq
    intro i inside
    have wide : i < 64 := Nat.lt_of_lt_of_le inside narrow
    rw [BitVec.getLsbD_setWidth, decide_eq_true inside, Bool.true_and, BitVec.getLsbD_signExtend,
      decide_eq_true wide, Bool.true_and, if_pos inside]
  have powers : 2 ^ w ∣ 2 ^ 64 := Nat.pow_dvd_pow 2 narrow
  apply BitVec.eq_of_toNat_eq
  rw [BitVec.setWidth_or, back, BitVec.toNat_or, BitVec.toNat_setWidth, BitVec.toNat_shiftLeft,
    BitVec.toNat_ofNat, BitVec.toNat_ofNat, Nat.shiftLeft_eq, Nat.mod_mod_of_dvd _ powers,
    ← Nat.or_mod_two_pow, Nat.or_comm, Nat.mul_comm, ← Nat.two_pow_add_eq_or_of_lt below,
    Nat.add_comm]

/-- What a read of a number of at most so many bytes gives, and where one of more ends. -/
def expected (w : Nat) (most : Nat) (bytes : List UInt8) (value : Nat → Nat) :
    EStateM.Result ReadFault (List UInt8) (BitVec w) :=
  match ungroup bytes with
  | some (n, rest) =>
    if bytes.length - rest.length ≤ most then .ok (BitVec.ofNat w (value n)) rest
    else .error .shift (bytes.drop (most + 1))
  | none =>
    if bytes.length ≤ most then .error .ended [] else .error .shift (bytes.drop (most + 1))

theorem length_lt_of_ungroup {bytes rest : List UInt8} {n : Nat}
    (read : ungroup bytes = some (n, rest)) : rest.length < bytes.length := by
  cases bytes with
  | nil => cases read
  | cons b bytes =>
    obtain ⟨-, -, rfl⟩ | ⟨-, m, later, -⟩ := WireFormat.ungroup_cons read
    · exact Nat.lt_succ_self _
    · exact Nat.lt_succ_of_le (WireFormat.length_ungroup later)

theorem expected_cons {b : UInt8} (more : 128 ≤ b.toNat) (most : Nat) (bytes : List UInt8)
    (value : Nat → Nat) :
    expected w (most + 1) (b :: bytes) value =
      expected w most bytes fun n => value (b.toNat % 128 + 128 * n) := by
  unfold expected
  rw [ungroup, if_neg (Nat.not_lt.mpr more)]
  cases read : ungroup bytes with
  | none =>
    simp only [Option.map_none, List.length_cons, Nat.add_le_add_iff_right]
    rfl
  | some found =>
    obtain ⟨n, rest⟩ := found
    have shorter := WireFormat.length_ungroup read
    have taken : (b :: bytes).length - rest.length ≤ most + 1 ↔
        bytes.length - rest.length ≤ most := by
      rw [List.length_cons]
      omega
    simp only [Option.map_some, taken]
    rfl

theorem expected_zero (c : UInt8) (rest : List UInt8) (value : Nat → Nat) :
    expected w 0 (c :: rest) value = .error .shift ((c :: rest).drop 1) := by
  unfold expected
  cases read : ungroup (c :: rest) with
  | none => rfl
  | some found =>
    obtain ⟨n, left⟩ := found
    have shorter := length_lt_of_ungroup read
    have taken : ¬ (c :: rest).length - left.length ≤ 0 := by omega
    exact if_neg taken

theorem readMore_last (extended : Extends promote) {b : UInt8} (last : b.toNat < 128)
    (i : BitVec w) (shift : Nat) (bytes : List UInt8) :
    readMore promote b i shift bytes = .ok i bytes := by
  have unmarked : ¬ promote b &&& 0x80#64 ≠ 0#64 := mt (extended.mark b).mp (Nat.not_le.mpr last)
  rw [readMore.eq_def, if_neg unmarked]

theorem readMore_cons (extended : Extends promote) (narrow : w ≤ 64) {shift acc : Nat} {b : UInt8}
    (more : 128 ≤ b.toNat) (below : acc < 2 ^ shift) (c : UInt8) (rest : List UInt8) :
    readMore promote b (BitVec.ofNat w acc) shift (c :: rest) =
      if shift < 64 then
        readMore promote c (BitVec.ofNat w (acc + 2 ^ shift * (c.toNat % 128))) (shift + 7) rest
      else .error .shift rest := by
  rw [readMore, if_pos ((extended.mark b).mpr more)]
  simp only [or_group narrow below, extended.low c]

theorem group_room {acc shift : Nat} (below : acc < 2 ^ shift) (n : Nat) :
    acc + 2 ^ shift * (n % 128) < 2 ^ (shift + 7) := by
  have group : n % 128 + 1 ≤ 128 := Nat.mod_lt _ (by decide)
  have filled := Nat.mul_le_mul_left (2 ^ shift) group
  rw [Nat.mul_succ] at filled
  rw [Nat.pow_add]
  omega

-- With a shift by 63 the tenth byte is read. The bits before the shift are filled.
theorem readMore_eq (extended : Extends promote) (narrow : w ≤ 64) {most shift acc : Nat}
    (budget : shift + 7 * most = 70) {b : UInt8} (more : 128 ≤ b.toNat) (below : acc < 2 ^ shift)
    (bytes : List UInt8) :
    readMore promote b (BitVec.ofNat w acc) shift bytes =
      expected w most bytes fun n => acc + 2 ^ shift * n := by
  induction bytes generalizing b shift acc most with
  | nil =>
    rw [readMore, if_pos ((extended.mark b).mpr more)]
    rfl
  | cons c rest ih =>
    rw [readMore_cons extended narrow more below]
    cases most with
    | zero =>
      have far : ¬ shift < 64 := by omega
      rw [if_neg far, expected_zero]
      rfl
    | succ most =>
      have near : shift < 64 := by omega
      rw [if_pos near]
      obtain last | continues := Nat.lt_or_ge c.toNat 128
      · have read : ungroup (c :: rest) = some (c.toNat, rest) := by
          rw [ungroup, if_pos last]
        have taken : (c :: rest).length - rest.length ≤ most + 1 := by
          rw [List.length_cons]
          omega
        rw [readMore_last extended last, Nat.mod_eq_of_lt last]
        simp only [expected, read, if_pos taken]
      · have left : shift + 7 + 7 * most = 70 := by omega
        rw [ih left continues (group_room below c.toNat), expected_cons continues]
        congr 1
        funext n
        rw [Nat.pow_add]
        ring

theorem readGroups_eq (extended : Extends promote) (narrow : w ≤ 64) (bytes : List UInt8) :
    readGroups w promote bytes = expected w 10 bytes id := by
  cases bytes with
  | nil => rfl
  | cons b rest =>
    have first : (promote b &&& 0x7F#64).setWidth w = BitVec.ofNat w (b.toNat % 128) := by
      rw [← extended.low b, BitVec.ofNat_toNat]
    rw [readGroups, first]
    obtain last | continues := Nat.lt_or_ge b.toNat 128
    · have read : ungroup (b :: rest) = some (b.toNat, rest) := by
        rw [ungroup, if_pos last]
      have taken : (b :: rest).length - rest.length ≤ 10 := by
        rw [List.length_cons]
        omega
      rw [readMore_last extended last, Nat.mod_eq_of_lt last]
      simp only [expected, read, if_pos taken, id_eq]
    · have small : b.toNat % 128 < 2 ^ 7 := Nat.mod_lt _ (by decide)
      have budget : 7 + 7 * 9 = 70 := rfl
      rw [readMore_eq extended narrow budget continues small, expected_cons continues]
      rfl

theorem readGroups_of_ungroup (extended : Extends promote) (narrow : w ≤ 64) {n : Nat}
    (read : ungroup bytes = some (n, rest)) (short : bytes.length - rest.length ≤ 10) :
    readGroups w promote bytes = .ok (BitVec.ofNat w n) rest := by
  rw [readGroups_eq extended narrow]
  simp only [expected, read, if_pos short, id_eq]

theorem readGroups_of_ended (extended : Extends promote) (narrow : w ≤ 64)
    (starved : ungroup bytes = none) (short : bytes.length ≤ 10) :
    readGroups w promote bytes = .error .ended [] := by
  rw [readGroups_eq extended narrow]
  simp only [expected, starved, if_pos short]

theorem readVInt_of_decode {n : UInt32} (decoded : WireFormat.vInt.decode bytes = some (n, rest))
    (short : bytes.length - rest.length ≤ 10) : readVInt bytes = .ok n rest := by
  obtain ⟨⟨m, left⟩, read, same⟩ := Option.map_eq_some_iff.mp decoded
  cases same
  exact bind_of_ok (readGroups_of_ungroup extends_unsigned (by decide) read short)

theorem readVLong_of_decode {n : UInt64} (decoded : WireFormat.vLong.decode bytes = some (n, rest))
    (short : bytes.length - rest.length ≤ 10) : readVLong bytes = .ok n rest := by
  obtain ⟨⟨m, left⟩, read, same⟩ := Option.map_eq_some_iff.mp decoded
  cases same
  exact bind_of_ok (readGroups_of_ungroup extends_signed (by decide) read short)

end Reading

/-! ### Longs -/

-- The sign that is shifted in from above does not reach the byte.
theorem byte_sshiftRight (x : BitVec 64) {k : Nat} (inside : k < 8) :
    (⟨(x.sshiftRight (8 * k)).setWidth 8⟩ : UInt8) = UInt8.ofNat (x.toNat / 256 ^ k) := by
  apply UInt8.toBitVec_inj.mp
  change (x.sshiftRight (8 * k)).setWidth 8 = BitVec.ofNat 8 (x.toNat / 256 ^ k)
  have power : 256 ^ k = 2 ^ (8 * k) := by rw [Nat.pow_mul]
  apply BitVec.eq_of_getLsbD_eq
  intro i low
  have within : 8 * k + i < 64 := by omega
  have below : i < 64 := by omega
  rw [BitVec.getLsbD_setWidth, BitVec.getLsbD_ofNat, BitVec.getLsbD_sshiftRight, power,
    Nat.testBit_div_two_pow, if_pos within, Nat.add_comm i]
  simp only [Nat.not_le.mpr below, decide_false, Bool.not_false, Bool.true_and]
  rfl

theorem writeLong_eq (longValue : Int64) :
    writeLong longValue = bigEndian 8 longValue.toBitVec.toNat := by
  have bytes : writeLong longValue = (List.range 8).reverse.map fun i =>
      (⟨(longValue.toBitVec.sshiftRight (8 * i)).setWidth 8⟩ : UInt8) := rfl
  have places : bigEndian 8 longValue.toBitVec.toNat = (List.range 8).reverse.map fun i =>
    UInt8.ofNat (longValue.toBitVec.toNat / 256 ^ i) := rfl
  rw [bytes, places]
  apply List.map_congr_left
  intro k member
  exact byte_sshiftRight longValue.toBitVec (by simpa using member)

theorem shiftIn_toNat (result : BitVec 64) (b : UInt8) :
    (shiftIn result b).toNat = (result.toNat * 256 + b.toNat) % 2 ^ 64 := by
  have low : ∀ v : BitVec 8, v.signExtend 64 &&& 0xFF#64 = v.setWidth 64 := by decide +kernel
  have disjoint : (result <<< 8) ^^^ b.toBitVec.setWidth 64 =
      (result <<< 8) ||| b.toBitVec.setWidth 64 := by
    apply BitVec.eq_of_getLsbD_eq
    intro i inside
    rw [BitVec.getLsbD_xor, BitVec.getLsbD_or, BitVec.getLsbD_shiftLeft, BitVec.getLsbD_setWidth]
    by_cases bottom : i < 8
    · simp [bottom]
    · simp [BitVec.getLsbD_of_ge b.toBitVec i (Nat.le_of_not_lt bottom)]
  have small : b.toNat < 2 ^ 8 := b.toNat_lt
  have fits : b.toNat = b.toNat % 2 ^ 64 := (Nat.mod_eq_of_lt (Nat.lt_trans small (by decide))).symm
  have byte : (b.toBitVec.setWidth 64).toNat = b.toNat % 2 ^ 64 := BitVec.toNat_setWidth 64 _
  rw [shiftIn, low, disjoint, BitVec.toNat_or, BitVec.toNat_shiftLeft, byte,
    ← Nat.or_mod_two_pow, Nat.shiftLeft_eq, Nat.mul_comm, ← Nat.two_pow_add_eq_or_of_lt small,
    Nat.mul_comm]

theorem foldl_shiftIn {bytes : List UInt8} {result : BitVec 64} {acc n : Nat}
    (sofar : result.toNat = acc % 2 ^ 64)
    (read : accumulate bytes.length acc bytes = some (n, [])) :
    (bytes.foldl shiftIn result).toNat = n % 2 ^ 64 := by
  induction bytes generalizing result acc with
  | nil =>
    cases read
    exact sofar
  | cons b rest ih =>
    refine ih ?_ read
    rw [shiftIn_toNat, sofar, Nat.add_mod, Nat.mod_mul_mod, ← Nat.add_mod]

/-! ### Round trips -/

/-- What is written is read back, and what follows it is left. -/
def RoundTrip {A B : Type} (write : A → List UInt8) (read : ReadM B) (value : A → B) : Prop :=
  ∀ a rest, read (write a ++ rest) = .ok (value a) rest

theorem length_append_sub (bytes rest : List UInt8) :
    (bytes ++ rest).length - rest.length = bytes.length := by
  rw [List.length_append, Nat.add_sub_cancel]

theorem length_writeVInt (n : UInt32) : (writeVInt n).length ≤ 5 := by
  rw [writeVInt_eq]
  exact length_groups 4 n.toNat

theorem length_writeVLong (n : UInt64) : (writeVLong n).length ≤ 10 := by
  rw [writeVLong_eq]
  exact length_groups 9 n.toNat

theorem vInt_round_trip : RoundTrip writeVInt readVInt id := by
  intro n rest
  have short : (writeVInt n ++ rest).length - rest.length ≤ 10 := by
    rw [length_append_sub]
    exact Nat.le_trans (length_writeVInt n) (by decide)
  rw [writeVInt_eq] at short ⊢
  exact readVInt_of_decode (WireFormat.vInt.decode_encode n rest) short

theorem vLong_round_trip : RoundTrip writeVLong readVLong id := by
  intro n rest
  have short : (writeVLong n ++ rest).length - rest.length ≤ 10 := by
    rw [length_append_sub]
    exact length_writeVLong n
  rw [writeVLong_eq] at short ⊢
  exact readVLong_of_decode (WireFormat.vLong.decode_encode n rest) short

theorem readBytes_append {size : UInt32} {bytes : List UInt8} (length : bytes.length = size.toNat)
    (rest : List UInt8) : readBytes size (bytes ++ rest) = .ok bytes rest := by
  have there : size.toNat ≤ (bytes ++ rest).length := by
    rw [List.length_append, length]
    exact Nat.le_add_right _ _
  rw [readBytes, if_pos there, ← length, List.take_left, List.drop_left]

theorem length_bigEndian (width n : Nat) : (bigEndian width n).length = width := by
  induction width with
  | zero => rfl
  | succ width ih => rw [bigEndian, List.length_cons, ih]

theorem long_round_trip : RoundTrip writeLong readLong id := by
  intro longValue rest
  have eight : (bigEndian 8 longValue.toBitVec.toNat).length = (8 : UInt32).toNat :=
    length_bigEndian 8 _
  have value : accumulate 8 0 (bigEndian 8 longValue.toBitVec.toNat) =
      some (longValue.toBitVec.toNat, []) := by
    have bound : longValue.toBitVec.toNat < 256 ^ 8 := longValue.toBitVec.isLt
    have read := WireFormat.accumulate_of_lt bound []
    rwa [List.append_nil] at read
  have number : (bigEndian 8 longValue.toBitVec.toNat).foldl shiftIn 0#64 = longValue.toBitVec := by
    apply BitVec.eq_of_toNat_eq
    rw [foldl_shiftIn rfl (by rw [length_bigEndian]; exact value)]
    exact Nat.mod_eq_of_lt longValue.toBitVec.isLt
  rw [writeLong_eq, readLong, bind_of_ok (readBytes_append eight rest), number]
  rfl

theorem array_round_trip :
    RoundTrip (fun bytes : Bytes => writeArray bytes.1) readArray Subtype.val := by
  intro bytes rest
  have size : readVInt (writeVInt bytes.size ++ (bytes.1 ++ rest)) =
      .ok bytes.size (bytes.1 ++ rest) :=
    vInt_round_trip bytes.size _
  have written : writeArray bytes.1 ++ rest = writeVInt bytes.size ++ (bytes.1 ++ rest) :=
    List.append_assoc _ _ _
  rw [written, readArray, bind_of_ok size, readBytes_append bytes.size_toNat.symm]

theorem writeString_of_bytes (str : Bytes) : writeString str.1 = writeArray str.1 := by
  have whole : (UInt32.ofNat str.1.length).toNat = str.1.length := str.size_toNat
  rw [writeString, writeArray, whole, List.take_length]

theorem string_round_trip :
    RoundTrip (fun str : Bytes => writeString str.1) readString Subtype.val := by
  intro str rest
  have same : writeString str.1 = writeArray str.1 := writeString_of_bytes str
  simp only [same]
  exact array_round_trip str rest

/-- Every primitive reads back what it wrote, and the variable-length integers have at most
five and ten bytes. -/
theorem primitives_round_trip :
    RoundTrip writeVInt readVInt id ∧ RoundTrip writeVLong readVLong id ∧
      RoundTrip writeLong readLong id ∧
      RoundTrip (fun bytes : Bytes => writeArray bytes.1) readArray Subtype.val ∧
      RoundTrip (fun str : Bytes => writeString str.1) readString Subtype.val ∧
      (∀ n, (writeVInt n).length ≤ 5) ∧ ∀ n, (writeVLong n).length ≤ 10 :=
  ⟨vInt_round_trip, vLong_round_trip, long_round_trip, array_round_trip, string_round_trip,
    length_writeVInt, length_writeVLong⟩

/-! ### Numbers of the peer -/

/-- One of the first ten bytes ends a number, or the stream ends with them. -/
def EndsInTime (bytes : List UInt8) : Prop :=
  (∃ b ∈ bytes.take 10, b.toNat < 128) ∨ bytes.length ≤ 10

instance (bytes : List UInt8) : Decidable (EndsInTime bytes) := inferInstanceAs (Decidable (_ ∨ _))

/-- How many bytes a call has taken from the stream when it returns or fails. -/
def consumed {A : Type} (read : ReadM A) (bytes : List UInt8) : Nat :=
  bytes.length - (final (read bytes)).length

/-- A read of a number in so many bytes and bits at most: it ends with them, and a number
that does not fit is rejected. -/
structure Contained {A : Type} (read : ReadM A) (most bits : Nat) (bytes : List UInt8) : Prop where
  few : consumed read bytes ≤ most
  defined : raised (read bytes) ≠ some .shift
  fits : ∀ n rest, ungroup bytes = some (n, rest) → 2 ^ bits ≤ n → raised (read bytes) ≠ none

/-- A small number in six bytes, one of 35 bits, and one in eleven bytes. -/
theorem not_contained :
    ¬ Contained readVInt 5 32 [0x80, 0x80, 0x80, 0x80, 0x80, 0] ∧
      ¬ Contained readVInt 5 32 [0xFF, 0xFF, 0xFF, 0xFF, 0x7F] ∧
      ¬ Contained readVLong 10 64 (List.replicate 10 0x80 ++ [1]) := by
  refine ⟨?_, ?_, ?_⟩
  · intro contained
    exact absurd contained.few (by decide +kernel)
  · intro contained
    exact contained.fits (2 ^ 35 - 1) [] (by decide +kernel) (by decide) (by decide +kernel)
  · intro contained
    exact contained.defined (by decide +kernel)

theorem ungroup_of_stop {most : Nat} {bytes : List UInt8}
    (stops : ∃ b ∈ bytes.take most, b.toNat < 128) :
    ∃ n rest, ungroup bytes = some (n, rest) ∧ bytes.length - rest.length ≤ most := by
  induction bytes generalizing most with
  | nil =>
    obtain ⟨b, member, -⟩ := stops
    rw [List.take_nil] at member
    cases member
  | cons c rest ih =>
    cases most with
    | zero =>
      obtain ⟨b, member, -⟩ := stops
      cases member
    | succ most =>
      rw [ungroup]
      by_cases last : c.toNat < 128
      · refine ⟨c.toNat, rest, if_pos last, ?_⟩
        rw [List.length_cons]
        omega
      · obtain ⟨b, member, small⟩ := stops
        rw [List.take_succ_cons, List.mem_cons] at member
        obtain rfl | later := member
        · exact absurd small last
        · obtain ⟨n, left, read, short⟩ := ih ⟨b, later, small⟩
          refine ⟨c.toNat % 128 + 128 * n, left, ?_, ?_⟩
          · rw [if_neg last, read]
            rfl
          · rw [List.length_cons]
            omega

theorem EndsInTime.short {bytes rest : List UInt8} {n : Nat} (inTime : EndsInTime bytes)
    (read : ungroup bytes = some (n, rest)) : bytes.length - rest.length ≤ 10 := by
  obtain stops | ends := inTime
  · obtain ⟨m, left, found, short⟩ := ungroup_of_stop stops
    rw [found] at read
    cases read
    exact short
  · exact Nat.le_trans (Nat.sub_le _ _) ends

theorem EndsInTime.length_le {bytes : List UInt8} (inTime : EndsInTime bytes)
    (starved : ungroup bytes = none) : bytes.length ≤ 10 := by
  obtain stops | ends := inTime
  · obtain ⟨n, rest, found, -⟩ := ungroup_of_stop stops
    rw [found] at starved
    cases starved
  · exact ends

/-- The number is read with its bytes and no others, and of its value as many bits as the
word has; or the stream ends before it does. -/
structure Decodes {A : Type} (read : ReadM A) (cast : Nat → A) (bytes : List UInt8) : Prop where
  value : ∀ n rest, ungroup bytes = some (n, rest) → read bytes = .ok (cast n) rest
  ended : ungroup bytes = none → read bytes = .error .ended []
  few : consumed read bytes ≤ 10
  defined : raised (read bytes) ≠ some .shift

theorem decodes_of_readGroups {w : Nat} {promote : UInt8 → BitVec 64} {A : Type}
    {bytes : List UInt8} (extended : Extends promote) (narrow : w ≤ 64) (cast : BitVec w → A)
    (inTime : EndsInTime bytes) :
    Decodes (readGroups w promote >>= fun i => pure (cast i)) (fun n => cast (BitVec.ofNat w n))
      bytes := by
  cases read : ungroup bytes with
  | none =>
    have short := inTime.length_le read
    have failed : (readGroups w promote >>= fun i => pure (cast i)) bytes = .error .ended [] :=
      bind_of_error (readGroups_of_ended extended narrow read short)
    refine ⟨fun _ _ found => ?_, fun _ => failed, ?_, ?_⟩
    · rw [read] at found
      cases found
    · rw [consumed, failed]
      exact short
    · rw [failed]
      exact nofun
  | some found =>
    obtain ⟨n, rest⟩ := found
    have short := inTime.short read
    have returned : (readGroups w promote >>= fun i => pure (cast i)) bytes =
        .ok (cast (BitVec.ofNat w n)) rest :=
      bind_of_ok (readGroups_of_ungroup extended narrow read short)
    refine ⟨fun _ _ found => ?_, fun starved => ?_, ?_, ?_⟩
    · rw [read] at found
      cases found
      exact returned
    · rw [read] at starved
      cases starved
    · rw [consumed, returned]
      exact short
    · rw [returned]
      exact nofun

/-- From every stream in which the number ends in time the loops read it, without a shift
that is not defined; what does not fit is cut off. -/
theorem numbers_decoded (bytes : List UInt8) (inTime : EndsInTime bytes) :
    Decodes readVInt UInt32.ofNat bytes ∧ Decodes readVLong UInt64.ofNat bytes :=
  ⟨decodes_of_readGroups extends_unsigned (by decide) UInt32.ofBitVec inTime,
    decodes_of_readGroups extends_signed (by decide) UInt64.ofBitVec inTime⟩

theorem numbers_decoded_of_six :
    Decodes readVInt UInt32.ofNat [0x80, 0x80, 0x80, 0x80, 0x80, 0] ∧
      Decodes readVLong UInt64.ofNat [0x80, 0x80, 0x80, 0x80, 0x80, 0] :=
  numbers_decoded _ (by decide)

/-! ### The formats -/

theorem writeArray_eq (bytes : List UInt8) : writeArray bytes = Protocol.writeArray bytes := by
  rw [writeArray, writeVInt_eq]
  rfl

theorem writeString_eq (str : List UInt8) : writeString str = Protocol.writeString str := by
  rw [writeString, writeVInt_eq]
  rfl

section Connections

variable {s t : Connection} {bytes rest : List UInt8}

theorem EndsInTime.readVInt (inTime : EndsInTime bytes) {n : UInt32}
    (decoded : WireFormat.vInt.decode bytes = some (n, rest)) : readVInt bytes = .ok n rest := by
  obtain ⟨⟨m, left⟩, read, same⟩ := Option.map_eq_some_iff.mp decoded
  cases same
  exact readVInt_of_decode decoded (inTime.short read)

theorem readVInt_of_connection {n : UInt32} (inTime : EndsInTime s.unread)
    (returned : Protocol.readVInt s = .ok n t) : readVInt s.unread = .ok n t.unread :=
  inTime.readVInt (decode_of_read returned)

theorem readVLong_of_connection {n : UInt64} (inTime : EndsInTime s.unread)
    (returned : Protocol.readVLong s = .ok n t) : readVLong s.unread = .ok n t.unread := by
  have decoded : WireFormat.vLong.decode s.unread = some (n, t.unread) := decode_of_read returned
  obtain ⟨⟨m, left⟩, read, same⟩ := Option.map_eq_some_iff.mp decoded
  cases same
  exact readVLong_of_decode decoded (inTime.short read)

theorem readLong_of_connection {n : UInt64} (returned : Protocol.readLong s = .ok n t) :
    readLong s.unread = .ok n.toInt64 t.unread := by
  have written : s.unread = writeLong n.toInt64 ++ t.unread := by
    rw [writeLong_eq]
    exact WireFormat.tight_long (decode_of_read returned)
  rw [written]
  exact long_round_trip n.toInt64 t.unread

theorem readArray_of_connection {array : Bytes} (inTime : EndsInTime s.unread)
    (returned : Protocol.readArray s = .ok array t) :
    readArray s.unread = .ok array.1 t.unread := by
  obtain ⟨⟨size, left⟩, sized, cut⟩ := Option.bind_eq_some_iff.mp (decode_of_read returned)
  obtain ⟨there, same⟩ := Option.ite_none_right_eq_some.mp cut
  have taken : left.take size.toNat = array.1 :=
    congrArg (fun pair => pair.1.1) (Option.some.inj same)
  have kept : left.drop size.toNat = t.unread := congrArg Prod.snd (Option.some.inj same)
  rw [readArray, bind_of_ok (inTime.readVInt sized), readBytes, if_pos there, taken, kept]

end Connections

end HotRod.Protocol.TcpTransport
