import Mathlib.Data.BitVec

/-!
# Reflected cyclic redundancy checks

`crcBit P` takes the lowest bit off the remainder and adds the polynomial `P` if it was set. It is
linear in exclusive or, so `k` bits can be taken off at once with a table of the remainders of the
words below `2 ^ k`.
-/

namespace Machine

variable {w : ℕ} (P : BitVec w) (c : BitVec w)

def crcBit : BitVec w := if c.getLsbD 0 then P ^^^ (c >>> 1) else c >>> 1

lemma crcBit_xor (a b : BitVec w) : crcBit P (a ^^^ b) = crcBit P a ^^^ crcBit P b := by
  simp only [crcBit, BitVec.getLsbD_xor, BitVec.ushiftRight_xor_distrib]
  cases a.getLsbD 0 <;> cases b.getLsbD 0
  · simp
  · simp only [Bool.false_bne, Bool.false_eq_true, ↓reduceIte]
    ac_rfl
  · simp only [Bool.true_bne, Bool.not_false, Bool.false_eq_true, ↓reduceIte]
    ac_rfl
  · have hcancel : P ^^^ (a >>> 1) ^^^ (P ^^^ (b >>> 1)) = P ^^^ P ^^^ (a >>> 1 ^^^ b >>> 1) := by
      ac_rfl
    simp [hcancel]

lemma crcBits_xor (n : ℕ) (a b : BitVec w) :
    (crcBit P)^[n] (a ^^^ b) = (crcBit P)^[n] a ^^^ (crcBit P)^[n] b := by
  induction n generalizing a b with
  | zero => rfl
  | succ n ih => rw [Function.iterate_succ_apply, crcBit_xor, ih]; rfl

lemma crcBits_of_low {c : BitVec w} {k : ℕ} (h : ∀ i < k, c.getLsbD i = false) :
    (crcBit P)^[k] c = c >>> k := by
  induction k with
  | zero => simp
  | succ k ih =>
    have hbit : (c >>> k).getLsbD 0 = false := by
      rw [BitVec.getLsbD_ushiftRight]
      exact h k (Nat.lt_succ_self k)
    rw [Function.iterate_succ_apply', ih fun i hi => h i (Nat.lt_succ_of_lt hi), crcBit, hbit,
      BitVec.shiftRight_add]
    rfl

lemma xor_low_high (k : ℕ) :
    (c.setWidth k).setWidth w ^^^ (c >>> k) <<< k = c := by
  ext i hi
  by_cases hik : i < k
  · simp [hik, hi]
  · simp [hik, Nat.not_lt.mp hik, hi]

/-- `k` bits at once: the remainder of the low ones, and the rest moved down. -/
theorem crcBits_eq (k : ℕ) :
    (crcBit P)^[k] c = (crcBit P)^[k] ((c.setWidth k).setWidth w) ^^^ c >>> k := by
  have hlow : ∀ i < k, ((c >>> k) <<< k).getLsbD i = false := by
    intro i hi
    simp [hi]
  have hdown : (c >>> k) <<< k >>> k = c >>> k := by
    ext i hi
    by_cases hlt : k + i < w
    · simp [hlt]
    · simp [BitVec.getLsbD_of_ge c (k + i) (by omega)]
  conv_lhs => rw [← xor_low_high c k, crcBits_xor, crcBits_of_low P hlow, hdown]

end Machine
