import H713.Machine.Word
import Mathlib.Data.Nat.Bitwise
import Mathlib.Order.Bounds.Basic

/-!
# Masks and alignment

`alignUp` is the alignment macro of the kernel on 32-bit words. It rounds up to a multiple of the
alignment when that is a power of two and the sum does not wrap. `updateBits` puts the bits of a
mask into a word and leaves the others.
-/

namespace Machine

open Nat

/-- `ALIGN(x, a)` -/
def alignUp (x a : UInt32) : UInt32 := (x + (a - 1)) &&& ~~~(a - 1)

lemma and_not_low {n k : ℕ} (hn : n < 4294967296) (hk : k ≤ 32) :
    n &&& (4294967295 - (2 ^ k - 1)) = n / 2 ^ k * 2 ^ k := by
  have hmask : 4294967295 - (2 ^ k - 1) = 2 ^ 32 - (2 ^ k - 1 + 1) := by
    omega
  have hlt : 2 ^ k - 1 < 2 ^ 32 := by
    have := Nat.pow_le_pow_right (n := 2) (by decide) hk
    omega
  rw [hmask, ← Nat.shiftRight_eq_div_pow, ← Nat.shiftLeft_eq]
  refine Nat.eq_of_testBit_eq fun i => ?_
  rw [testBit_and, testBit_two_pow_sub_succ hlt, testBit_two_pow_sub_one,
    testBit_shiftLeft, testBit_shiftRight]
  by_cases hi : k ≤ i
  · by_cases hi' : i < 32
    · simp [hi, hi', Nat.not_lt.mpr hi]
    · have hpow : 2 ^ 32 ≤ 2 ^ i := Nat.pow_le_pow_right (by decide) (by omega)
      have hbit : n.testBit i = false := Nat.testBit_lt_two_pow (lt_of_lt_of_le hn hpow)
      simp [hi, hi', hbit]
  · simp [hi, Nat.lt_of_not_le hi]

lemma alignUp_toNat {x a : UInt32} {k : ℕ} (ha : a.toNat = 2 ^ k)
    (hfits : x.toNat + (2 ^ k - 1) < 4294967296) :
    (alignUp x a).toNat = (x.toNat + (2 ^ k - 1)) / 2 ^ k * 2 ^ k := by
  have hpos : 1 ≤ 2 ^ k := Nat.one_le_two_pow
  have hone : (1 : UInt32) ≤ a := by
    rw [UInt32.le_iff_toNat_le, ha]
    exact hpos
  have hk : k ≤ 32 := by
    have hlt : 2 ^ k < 2 ^ 32 := ha ▸ a.toNat_lt
    exact (Nat.pow_lt_pow_iff_right (by decide)).mp hlt |>.le
  have hmask : (a - 1).toNat = 2 ^ k - 1 := by
    rw [UInt32.toNat_sub_of_le _ _ hone, ha]
    rfl
  rw [alignUp, UInt32.toNat_and, UInt32.toNat_not, UInt32.toNat_add, hmask,
    Nat.mod_eq_of_lt hfits]
  exact and_not_low hfits hk

def updateBits (old mask val : UInt32) : UInt32 := (old &&& ~~~mask) ||| (val &&& mask)

lemma updateBits_and_mask (old mask val : UInt32) :
    updateBits old mask val &&& mask = val &&& mask := by
  apply UInt32.toBitVec_inj.mp
  ext i hi
  simp only [updateBits, UInt32.toBitVec_and, UInt32.toBitVec_or, UInt32.toBitVec_not,
    BitVec.getElem_and, BitVec.getElem_or, BitVec.getElem_not]
  cases mask.toBitVec[i] <;> simp

lemma updateBits_and_of_disjoint {mask mask' : UInt32} (h : mask &&& mask' = 0)
    (old val : UInt32) : updateBits old mask val &&& mask' = old &&& mask' := by
  apply UInt32.toBitVec_inj.mp
  ext i hi
  have hbit : (mask.toBitVec[i] && mask'.toBitVec[i]) = false := by
    rw [← BitVec.getElem_and, ← UInt32.toBitVec_and, h]
    simp
  simp only [updateBits, UInt32.toBitVec_and, UInt32.toBitVec_or, UInt32.toBitVec_not,
    BitVec.getElem_and, BitVec.getElem_or, BitVec.getElem_not]
  cases hmask : mask.toBitVec[i] <;> simp_all

/-! ### Single bits -/

lemma or_and_of_disjoint {b b' : UInt32} (h : b &&& b' = 0) (x : UInt32) :
    (x ||| b) &&& b' = x &&& b' := by
  have hbits : b.toBitVec &&& b'.toBitVec = 0 := by
    rw [← UInt32.toBitVec_and, h]
    rfl
  apply UInt32.toBitVec_inj.mp
  rw [UInt32.toBitVec_and, UInt32.toBitVec_or, UInt32.toBitVec_and, BitVec.and_comm,
    BitVec.and_or_distrib_left, BitVec.and_comm _ b.toBitVec, hbits]
  exact (BitVec.or_zero).trans (BitVec.and_comm _ _)

lemma and_not_and_of_disjoint {b b' : UInt32} (h : b &&& b' = 0) (x : UInt32) :
    (x &&& ~~~b) &&& b' = x &&& b' := by
  have := updateBits_and_of_disjoint h x 0
  rwa [updateBits, UInt32.zero_and, UInt32.or_zero] at this

lemma one_shiftLeft_and_of_ne {i j : ℕ} (hi : i < 32) (hj : j < 32) (hne : i ≠ j) :
    ((1 : UInt32) <<< UInt32.ofNat i) &&& (1 <<< UInt32.ofNat j) = 0 := by
  have hbit : ∀ n < 32, ((1 : UInt32) <<< UInt32.ofNat n).toNat = 2 ^ n := by
    intro n hn
    have hofNat : (UInt32.ofNat n).toNat = n :=
      UInt32.toNat_ofNat_of_lt' (show n < 4294967296 by omega)
    have hlt : 2 ^ n < 2 ^ 32 := Nat.pow_lt_pow_right (by decide) hn
    rw [UInt32.toNat_shiftLeft, hofNat, Nat.mod_eq_of_lt hn, Nat.shiftLeft_eq]
    change 1 * 2 ^ n % 2 ^ 32 = 2 ^ n
    rw [Nat.one_mul, Nat.mod_eq_of_lt hlt]
  apply UInt32.toNat_inj.mp
  rw [UInt32.toNat_and, hbit i hi, hbit j hj]
  refine Nat.eq_of_testBit_eq fun n => ?_
  rw [testBit_and, testBit_two_pow, testBit_two_pow]
  change _ = Nat.testBit 0 n
  rw [zero_testBit, Bool.and_eq_false_iff, decide_eq_false_iff_not, decide_eq_false_iff_not]
  omega

lemma isLeast_multiple {a : ℕ} (ha : 0 < a) (n : ℕ) :
    IsLeast {t | a ∣ t ∧ n ≤ t} ((n + (a - 1)) / a * a) := by
  have hdiv := div_add_mod (n + (a - 1)) a
  have hmod := mod_lt (n + (a - 1)) ha
  rw [Nat.mul_comm] at hdiv
  refine ⟨⟨Nat.dvd_mul_left _ _, by omega⟩, ?_⟩
  rintro t ⟨⟨c, rfl⟩, hn⟩
  have hlt : (n + (a - 1)) / a < c + 1 := by
    rw [Nat.div_lt_iff_lt_mul ha, Nat.add_mul, Nat.mul_comm c a]
    omega
  rw [Nat.mul_comm a c]
  exact Nat.mul_le_mul_right a (le_of_lt_succ hlt)

end Machine
