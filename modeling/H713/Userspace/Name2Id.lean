import H713.Machine.Crc
import Mathlib.Data.Nat.Bitwise

/-!
# Names of routines

A routine is called by a number that is a checksum of its name. The daemons take it a byte at a time
from a table they make at compile time; the protocol documentation gives it bit by bit, in Python.
-/

namespace Userspace

open Machine Nat

/-! ### The daemons -/

def tableRound (c : UInt32) : UInt32 :=
  if c &&& 1 ≠ 0 then (0xEDB88320 : UInt32) ^^^ (c >>> 1) else c >>> 1

def makeCrc32Table : Vector UInt32 256 := Vector.ofFn fun i => tableRound^[8] (UInt32.ofNat i)

lemma and_255_lt (c : UInt32) : (c &&& 0xFF).toNat < 256 := by
  rw [UInt32.toNat_and]
  exact lt_succ_of_le and_le_right

def name2idRound (crc : UInt32) (b : UInt8) : UInt32 :=
  have := and_255_lt (crc ^^^ b.toUInt32)
  makeCrc32Table[((crc ^^^ b.toUInt32) &&& 0xFF).toNat] ^^^ (crc >>> 8)

def name2idSeed : UInt32 := 0x123456

def name2id (name : List UInt8) : UInt32 :=
  if name.isEmpty then 0xFFFFFFFF else name.foldl name2idRound name2idSeed

/-! ### The documentation -/

def crc32Bit (crc : ℕ) : ℕ := (crc >>> 1) ^^^ (if crc &&& 1 ≠ 0 then 0xEDB88320 else 0)

def crc32 (name : List UInt8) (seed : ℕ) : ℕ :=
  (name.foldl (fun crc b => crc32Bit^[8] (crc ^^^ b.toNat)) seed) &&& 0xFFFFFFFF

/-! ### Both are the same checksum -/

def crcPoly : BitVec 32 := 0xEDB88320

variable (c : BitVec 32)

lemma and_one_ne_zero_iff : c.toNat &&& 1 ≠ 0 ↔ c.getLsbD 0 = true := by
  rw [and_one_is_mod, BitVec.getLsbD, testBit_zero, decide_eq_true_iff]
  omega

lemma tableRound_toBitVec (c : UInt32) : (tableRound c).toBitVec = crcBit crcPoly c.toBitVec := by
  have hbit : c &&& 1 ≠ 0 ↔ c.toBitVec.getLsbD 0 = true := by
    rw [← and_one_ne_zero_iff, Ne, ← UInt32.toNat_inj, UInt32.toNat_and]
    rfl
  by_cases h : c &&& 1 ≠ 0
  · rw [tableRound, if_pos h, crcBit, if_pos (hbit.mp h)]
    rfl
  · rw [tableRound, if_neg h, crcBit, if_neg fun h' => h (hbit.mpr h')]
    rfl

lemma crc32Bit_toNat : crc32Bit c.toNat = (crcBit crcPoly c).toNat := by
  by_cases h : c.toNat &&& 1 ≠ 0
  · rw [crc32Bit, if_pos h, crcBit, if_pos ((and_one_ne_zero_iff c).mp h), BitVec.toNat_xor,
      BitVec.toNat_ushiftRight, Nat.xor_comm]
    rfl
  · rw [crc32Bit, if_neg h, crcBit, if_neg fun h' => h ((and_one_ne_zero_iff c).mpr h'),
      BitVec.toNat_ushiftRight, xor_zero]

def crcByte (b : UInt8) : BitVec 32 :=
  (crcBit crcPoly)^[8] (c ^^^ b.toBitVec.setWidth 32)

lemma crc32Round_toNat (b : UInt8) :
    crc32Bit^[8] (c.toNat ^^^ b.toNat) = (crcByte c b).toNat := by
  have hrounds := (Function.Semiconj.iterate_right (f := BitVec.toNat)
    (fun c => (crc32Bit_toNat c).symm) 8).eq (c ^^^ b.toBitVec.setWidth 32)
  have hbyte : (b.toBitVec.setWidth 32).toNat = b.toNat := by
    rw [BitVec.toNat_setWidth_of_le (by decide)]
    rfl
  rw [crcByte, hrounds, BitVec.toNat_xor, hbyte]

lemma and_255_toBitVec (c : UInt32) :
    (c &&& 0xFF).toBitVec = (c.toBitVec.setWidth 8).setWidth 32 := by
  apply BitVec.eq_of_toNat_eq
  rw [UInt32.toBitVec_and, BitVec.toNat_and, BitVec.toNat_setWidth_of_le (by decide),
    BitVec.toNat_setWidth]
  exact and_two_pow_sub_one_eq_mod _ 8

lemma name2idRound_toBitVec (crc : UInt32) (b : UInt8) :
    (name2idRound crc b).toBitVec = crcByte crc.toBitVec b := by
  have hentry (c : UInt32) (h : (c &&& 0xFF).toNat < 256) :
      makeCrc32Table[(c &&& 0xFF).toNat].toBitVec =
        (crcBit crcPoly)^[8] ((c.toBitVec.setWidth 8).setWidth 32) := by
    have hrounds := (Function.Semiconj.iterate_right (f := UInt32.toBitVec)
      tableRound_toBitVec 8).eq (c &&& 0xFF)
    rw [← and_255_toBitVec, ← hrounds, makeCrc32Table, Vector.getElem_ofFn,
      UInt32.ofNat_toNat]
  have hhigh : (crc.toBitVec ^^^ b.toBitVec.setWidth 32) >>> 8 = crc.toBitVec >>> 8 := by
    ext i hi
    simp
  rw [name2idRound, UInt32.toBitVec_xor, hentry, crcByte,
    crcBits_eq crcPoly (crc.toBitVec ^^^ b.toBitVec.setWidth 32), hhigh]
  rfl

/-- The number of a name is the one the documentation gives. -/
theorem name2id_eq_crc32 (name : List UInt8) (hname : name ≠ []) :
    (name2id name).toNat = crc32 name 0x123456 := by
  have htable : (name.foldl name2idRound name2idSeed).toBitVec =
      name.foldl crcByte name2idSeed.toBitVec :=
    (List.foldl_hom UInt32.toBitVec fun c b => (name2idRound_toBitVec c b).symm).symm
  have hdoc : name.foldl (fun crc b => crc32Bit^[8] (crc ^^^ b.toNat)) name2idSeed.toBitVec.toNat =
      (name.foldl crcByte name2idSeed.toBitVec).toNat :=
    List.foldl_hom BitVec.toNat crc32Round_toNat
  have hlt := (name.foldl name2idRound name2idSeed).toNat_lt
  rw [name2id, if_neg (by simpa using hname), crc32, show 0x123456 = name2idSeed.toBitVec.toNat from
    rfl, hdoc, ← htable]
  exact (and_two_pow_sub_one_of_lt_two_pow hlt).symm

/-- The example of the documentation. -/
theorem name2id_eq_crc32_brightness :
    (name2id ("THal_Vp_SetBrightness_1_000".toList.map fun c => c.toNat.toUInt8)).toNat =
      0x7221d017 :=
  (name2id_eq_crc32 _ (by decide)).trans (by decide +kernel)

end Userspace
