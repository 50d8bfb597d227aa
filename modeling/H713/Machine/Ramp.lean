import Mathlib.Algebra.Order.Ring.Int

/-!
# Ramps of integers

`ramp y₀ y₁ dx` goes from `y₀` at `0` to `y₁` at `dx`, with the quotient cut off towards zero. It is
monotone or antitone, as its ends are, and stays between them.
-/

namespace Machine

variable {y₀ y₁ dx i j : ℤ}

def ramp (y₀ y₁ dx i : ℤ) : ℤ := y₀ + (i * (y₁ - y₀)).tdiv dx

lemma ramp_zero : ramp y₀ y₁ dx 0 = y₀ := by
  rw [ramp, Int.zero_mul, Int.zero_tdiv, Int.add_zero]

lemma ramp_self (hdx : 0 < dx) : ramp y₀ y₁ dx dx = y₁ := by
  rw [ramp, Int.mul_tdiv_cancel_left _ hdx.ne']
  omega

lemma ramp_neg : ramp (-y₀) (-y₁) dx i = -ramp y₀ y₁ dx i := by
  have hneg : i * (-y₁ - -y₀) = -(i * (y₁ - y₀)) := by
    rw [← Int.mul_neg]
    congr 1
    omega
  rw [ramp, hneg, Int.neg_tdiv, ramp]
  omega

lemma ramp_mono (hdx : 0 < dx) (hy : y₀ ≤ y₁) (hij : i ≤ j) :
    ramp y₀ y₁ dx i ≤ ramp y₀ y₁ dx j := by
  have hmul : i * (y₁ - y₀) ≤ j * (y₁ - y₀) := Int.mul_le_mul_of_nonneg_right hij (by omega)
  exact Int.add_le_add_left (Int.tdiv_le_tdiv hdx hmul) y₀

lemma ramp_anti (hdx : 0 < dx) (hy : y₁ ≤ y₀) (hij : i ≤ j) :
    ramp y₀ y₁ dx j ≤ ramp y₀ y₁ dx i := by
  have h : ramp (-y₀) (-y₁) dx i ≤ ramp (-y₀) (-y₁) dx j := ramp_mono hdx (Int.neg_le_neg hy) hij
  rw [ramp_neg, ramp_neg] at h
  exact Int.neg_le_neg_iff.mp h

lemma ramp_mem (hdx : 0 < dx) (hi : 0 ≤ i) (hidx : i ≤ dx) :
    min y₀ y₁ ≤ ramp y₀ y₁ dx i ∧ ramp y₀ y₁ dx i ≤ max y₀ y₁ := by
  rcases le_total y₀ y₁ with hy | hy
  · rw [min_eq_left hy, max_eq_right hy]
    refine ⟨?_, ?_⟩
    · calc y₀ = ramp y₀ y₁ dx 0 := ramp_zero.symm
        _ ≤ ramp y₀ y₁ dx i := ramp_mono hdx hy hi
    · calc ramp y₀ y₁ dx i ≤ ramp y₀ y₁ dx dx := ramp_mono hdx hy hidx
        _ = y₁ := ramp_self hdx
  · rw [min_eq_right hy, max_eq_left hy]
    refine ⟨?_, ?_⟩
    · calc y₁ = ramp y₀ y₁ dx dx := (ramp_self hdx).symm
        _ ≤ ramp y₀ y₁ dx i := ramp_anti hdx hy hidx
    · calc ramp y₀ y₁ dx i ≤ ramp y₀ y₁ dx 0 := ramp_anti hdx hy hi
        _ = y₀ := ramp_zero

end Machine
