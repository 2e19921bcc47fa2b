import Mathlib.Data.Nat.Basic

/-! `MurmurHash3_x64_32` as the client computes it, and the segment of a key.
For a 32-bit integer it has a version of its own, which agrees.

Signed words are kept as unsigned ones: sums, products and shifts agree on 64
bits. The bytes of the tail are signed, so that a byte from 128 on also changes
the bits above its place. Keys have less than 2^31 bytes; the code takes the
length for a signed number. -/

set_option autoImplicit false

namespace HotRod.Topology

namespace MurmurHash3

def rotl64 (x : UInt64) (r : UInt64) : UInt64 := (x <<< r) ||| (x >>> (64 - r))

structure Mix where
  h1 : UInt64
  h2 : UInt64
  c1 : UInt64
  c2 : UInt64

def Mix.start (seed : UInt64) : Mix where
  h1 := 0x9368e53c2f6af274 ^^^ seed
  h2 := 0x586dcd208f7cd3fd ^^^ seed
  c1 := 0x87c37b91114253d5
  c2 := 0x4cf5ad432745937f

def Mix.bmix (s : Mix) (k1 k2 : UInt64) : Mix :=
  let h1 := (s.h1 ^^^ rotl64 (k1 * s.c1) 23 * s.c2) + s.h2
  let h2 := (rotl64 s.h2 41 ^^^ rotl64 (k2 * s.c2) 23 * s.c1) + h1
  { h1 := h1 * 3 + 0x52dce729
    h2 := h2 * 3 + 0x38495ab5
    c1 := s.c1 * 5 + 0x7b7d159c
    c2 := s.c2 * 5 + 0x6bce6396 }

def getblock64 (bytes : List UInt8) : UInt64 :=
  (bytes.take 8).foldr (fun b word => (word <<< 8) ||| b.toUInt64) 0

def mixBlocks : Nat → List UInt8 → Mix → Mix
  | 0, _, s => s
  | n + 1, bytes, s =>
    mixBlocks n (bytes.drop 16) (s.bmix (getblock64 bytes) (getblock64 (bytes.drop 8)))

-- The exclusive or of the signed bytes, each shifted to its place.
def getTail (shift : UInt64) : List UInt8 → UInt64
  | [] => 0
  | b :: rest => (b.toInt8.toInt64.toUInt64 <<< shift) ^^^ getTail (shift + 8) rest

def fmix64 (k : UInt64) : UInt64 :=
  let k := (k ^^^ (k >>> 33)) * 0xff51afd7ed558ccd
  let k := (k ^^^ (k >>> 33)) * 0xc4ceb9fe1a85ec53
  k ^^^ (k >>> 33)

def x64_64 (key : List UInt8) (seed : UInt64) : UInt64 :=
  let nblocks := key.length / 16
  let tail := key.drop (nblocks * 16)
  let s := mixBlocks nblocks key (.start seed)
  let s := if tail = [] then s else s.bmix (getTail 0 (tail.take 8)) (getTail 0 (tail.drop 8))
  let h2 := s.h2 ^^^ UInt64.ofNat key.length
  let h1 := s.h1 + h2
  fmix64 h1 + fmix64 (h2 + h1)

def hash (key : List UInt8) : UInt32 := (x64_64 key 9001 >>> 32).toUInt32

example : hash [0x84] = 0x7C968B75 := by decide +kernel

example : hash [0xB8, 0x99, 67, 71, 0xBD, 0xBD, 96, 0x90, 86, 102, 0x93, 103, 112, 79, 0xC6, 0x89,
    0xB8] = 0x8F506F52 := by decide +kernel

/-! ### The version for integers -/

-- The bytes of a 32-bit integer as they lie in the memory of a little-endian machine.
def littleEndian (key : Int32) : List UInt8 :=
  (List.range 4).map fun i => (key.toUInt32 >>> UInt32.ofNat (8 * i)).toUInt8

/-- `MurmurHash3::hash(int32_t)`: the tail of four bytes and the end, written out. -/
def hashInt32 (key : Int32) : UInt32 :=
  let b0 := key.toInt8
  let b1 := (key.toUInt32 >>> 8).toUInt8.toInt8
  let b2 := (key.toUInt32 >>> 16).toUInt8.toInt8
  let b3 := (key.toUInt32 >>> 24).toUInt8.toInt8
  let h1 : UInt64 := 0x9368e53c2f6af274 ^^^ 9001
  let h2 : UInt64 := 0x586dcd208f7cd3fd ^^^ 9001
  let c1 : UInt64 := 0x87c37b91114253d5
  let c2 : UInt64 := 0x4cf5ad432745937f
  let k1 : UInt64 := 0
  let k2 : UInt64 := 0
  let k1 := k1 ^^^ (b3.toInt64.toUInt64 <<< 24)
  let k1 := k1 ^^^ (b2.toInt64.toUInt64 <<< 16)
  let k1 := k1 ^^^ (b1.toInt64.toUInt64 <<< 8)
  let k1 := k1 ^^^ b0.toInt64.toUInt64
  -- bmix; the constants that it leaves behind are not read again
  let k1 := k1 * c1
  let k1 := rotl64 k1 23
  let k1 := k1 * c2
  let h1 := h1 ^^^ k1
  let h1 := h1 + h2
  let h2 := rotl64 h2 41
  let k2 := k2 * c2
  let k2 := rotl64 k2 23
  let k2 := k2 * c1
  let h2 := h2 ^^^ k2
  let h2 := h2 + h1
  let h1 := h1 * 3 + 0x52dce729
  let h2 := h2 * 3 + 0x38495ab5
  let h2 := h2 ^^^ 4
  let h1 := h1 + h2
  let h2 := h2 + h1
  let h1 := fmix64 h1
  let h2 := fmix64 h2
  let h1 := h1 + h2
  (h1 >>> 32).toUInt32

theorem littleEndian_eq (key : Int32) : littleEndian key =
    [key.toUInt32.toUInt8, (key.toUInt32 >>> 8).toUInt8, (key.toUInt32 >>> 16).toUInt8,
      (key.toUInt32 >>> 24).toUInt8] := by
  simp [littleEndian, List.range_succ]

theorem toInt8_eq (key : Int32) : key.toUInt32.toUInt8.toInt8 = key.toInt8 := by
  apply Int8.toBitVec.inj
  simp [BitVec.signExtend_eq_setWidth_of_le]

theorem getTail_four (b0 b1 b2 b3 : UInt8) : getTail 0 [b0, b1, b2, b3] =
    (0 : UInt64) ^^^ (b3.toInt8.toInt64.toUInt64 <<< 24) ^^^
      (b2.toInt8.toInt64.toUInt64 <<< 16) ^^^ (b1.toInt8.toInt64.toUInt64 <<< 8) ^^^
        b0.toInt8.toInt64.toUInt64 := by
  have second : (0 : UInt64) + 8 = 8 := rfl
  have third : (8 : UInt64) + 8 = 16 := rfl
  have fourth : (16 : UInt64) + 8 = 24 := rfl
  rw [getTail, getTail, getTail, getTail, getTail, second, third, fourth, UInt64.shiftLeft_zero,
    UInt64.xor_zero, UInt64.zero_xor, UInt64.xor_comm,
    UInt64.xor_comm (b1.toInt8.toInt64.toUInt64 <<< 8),
    UInt64.xor_comm (b2.toInt8.toInt64.toUInt64 <<< 16)]

theorem mixBlocks_zero (bytes : List UInt8) (s : Mix) : mixBlocks 0 bytes s = s := rfl

theorem x64_64_of_short {key : List UInt8} (some_left : key ≠ []) (short : key.length < 16)
    (seed : UInt64) : x64_64 key seed =
      let s := (Mix.start seed).bmix (getTail 0 (key.take 8)) (getTail 0 (key.drop 8))
      let h2 := s.h2 ^^^ UInt64.ofNat key.length
      fmix64 (s.h1 + h2) + fmix64 (h2 + (s.h1 + h2)) := by
  simp only [x64_64, Nat.div_eq_of_lt short, Nat.zero_mul, List.drop_zero, mixBlocks_zero,
    if_neg some_left]

theorem x64_64_four (b0 b1 b2 b3 : UInt8) (seed : UInt64) :
    x64_64 [b0, b1, b2, b3] seed =
      let s := (Mix.start seed).bmix (getTail 0 [b0, b1, b2, b3]) 0
      let h2 := s.h2 ^^^ 4
      fmix64 (s.h1 + h2) + fmix64 (h2 + (s.h1 + h2)) := by
  have short : [b0, b1, b2, b3].length < 16 := by
    simp only [List.length_cons, List.length_nil, Nat.reduceAdd, Nat.reduceLT]
  rw [x64_64_of_short (List.cons_ne_nil _ _) short]
  rfl

/-- The version for integers computes the hash of the integer's four bytes. -/
theorem hash_littleEndian (key : Int32) : hashInt32 key = hash (littleEndian key) := by
  rw [littleEndian_eq, hash, x64_64_four, getTail_four, toInt8_eq key]
  simp only [hashInt32, Mix.bmix, Mix.start]

end MurmurHash3

/-! ### Segments -/

def getNormalizedHash (key : List UInt8) : UInt32 := MurmurHash3.hash key &&& 0x7fffffff

def getSegmentSize (num : UInt32) : UInt32 := 0x7FFFFFFF / num + 1

def getSegment (num : UInt32) (key : List UInt8) : UInt32 :=
  getNormalizedHash key / getSegmentSize num

theorem getSegmentSize_toNat (num : UInt32) :
    (getSegmentSize num).toNat = 0x7FFFFFFF / num.toNat + 1 := by
  have quotient : 0x7FFFFFFF / num.toNat ≤ 0x7FFFFFFF := Nat.div_le_self _ _
  rw [getSegmentSize, UInt32.toNat_add, UInt32.toNat_div]
  exact Nat.mod_eq_of_lt (Nat.lt_of_le_of_lt (Nat.succ_le_succ quotient) (by decide))

theorem normalized_le (hash : UInt32) : (hash &&& 0x7fffffff).toNat ≤ 0x7FFFFFFF := by
  rw [UInt32.toNat_and]
  exact Nat.and_le_right

theorem normalized_nonneg (hash : UInt32) : 0 ≤ (hash &&& 0x7fffffff).toInt32 := by
  have bound : 2 * (hash &&& 0x7fffffff).toBitVec.toNat < 2 ^ 32 := by
    have below := normalized_le hash
    change 2 * (hash &&& 0x7fffffff).toNat < 2 ^ 32
    omega
  have unsigned : (hash &&& 0x7fffffff).toInt32.toInt = (hash &&& 0x7fffffff).toBitVec.toNat :=
    BitVec.toInt_eq_toNat_of_lt bound
  rw [Int32.le_iff_toInt_le, unsigned]
  exact Int.natCast_nonneg _

theorem index_lt {num : UInt32} (positive : 0 < num) (hash : UInt32) :
    (hash &&& 0x7fffffff) / getSegmentSize num < num := by
  have pos : 0 < num.toNat := UInt32.lt_iff_toNat_lt.mp positive
  rw [UInt32.lt_iff_toNat_lt, UInt32.toNat_div, getSegmentSize_toNat]
  refine Nat.div_lt_of_lt_mul (Nat.lt_of_le_of_lt (normalized_le hash) ?_)
  rw [Nat.mul_comm]
  exact Nat.lt_mul_div_succ _ pos

theorem getSegment_lt {num : UInt32} (positive : 0 < num) (key : List UInt8) :
    (getSegment num key).toNat < num.toNat :=
  UInt32.lt_iff_toNat_lt.mp (index_lt positive (MurmurHash3.hash key))

/-- What holds of the segments of all keys where there are as many. The normalised hash is
a signed number; the division takes it for an unsigned one. -/
structure SegmentsInRange (num : UInt32) : Prop where
  divisor : getSegmentSize num ≠ 0
  nonneg : ∀ hash : UInt32, 0 ≤ (hash &&& 0x7fffffff).toInt32
  below_of_hash : ∀ hash : UInt32, (hash &&& 0x7fffffff) / getSegmentSize num < num
  below : ∀ key, getSegment num key < num
  rises_of_hash : ∀ hash other : UInt32, hash ≤ other →
    hash / getSegmentSize num ≤ other / getSegmentSize num
  rises : ∀ key other, getNormalizedHash key ≤ getNormalizedHash other →
    getSegment num key ≤ getSegment num other

theorem div_segmentSize_mono (num : UInt32) {hash other : UInt32} (larger : hash ≤ other) :
    hash / getSegmentSize num ≤ other / getSegmentSize num := by
  rw [UInt32.le_iff_toNat_le, UInt32.toNat_div, UInt32.toNat_div]
  exact Nat.div_le_div_right (UInt32.le_iff_toNat_le.mp larger)

/-- For every number of segments but zero. -/
theorem segment_in_range {num : UInt32} (positive : 0 < num) : SegmentsInRange num where
  divisor := by
    intro zero
    have size := getSegmentSize_toNat num
    rw [zero] at size
    cases size
  nonneg := normalized_nonneg
  below_of_hash := index_lt positive
  below key := index_lt positive (MurmurHash3.hash key)
  rises_of_hash _ _ := div_segmentSize_mono num
  rises _ _ := div_segmentSize_mono num

theorem segment_in_range_of_three : SegmentsInRange 3 := segment_in_range (by decide)

end HotRod.Topology
