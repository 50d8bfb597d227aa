import Mathlib.Data.Int.Basic
import Mathlib.Tactic.Basic

/-!
# 32-bit words

Machine words are natural numbers below `2 ^ 32`, with arithmetic followed by `u32`; `i32` reads a
word as a signed integer. An array of words is a function from indices.
-/

namespace Machine

variable (n : ℕ)

def u32 : ℕ := n % 4294967296

def sub32 (a b : ℕ) : ℕ := u32 (a + (4294967296 - b % 4294967296))

def i32 : ℤ :=
  if u32 n < 2147483648 then u32 n else u32 n - 4294967296

def ofInt32 (z : ℤ) : ℕ := (z % 4294967296).toNat

lemma u32_lt : u32 n < 4294967296 := Nat.mod_lt _ (by decide)

lemma u32_of_lt {n : ℕ} (h : n < 4294967296) : u32 n = n := Nat.mod_eq_of_lt h

lemma sub32_of_le {a b : ℕ} (hb : b ≤ a) (ha : a < 4294967296) : sub32 a b = a - b := by
  simp only [sub32, u32]
  omega

lemma i32_of_lt {n : ℕ} (h : n < 2147483648) : i32 n = n := by
  simp only [i32, u32]
  omega

lemma i32_of_ge {n : ℕ} (h : 2147483648 ≤ n) (h' : n < 4294967296) :
    i32 n = n - 4294967296 := by
  simp only [i32, u32]
  omega

lemma i32_u32 : i32 (u32 n) = i32 n := by
  have h : u32 (u32 n) = u32 n := Nat.mod_mod n 4294967296
  rw [i32, h, i32]

/-! ### Arrays of words -/

def storeWords (base : ℕ) (src : ℕ → ℕ) : ℕ → (ℕ → ℕ) → ℕ → ℕ
  | 0, dst     => dst
  | n + 1, dst => Function.update (storeWords base src n dst) (base + n) (src n)

lemma storeWords_apply (base : ℕ) (src : ℕ → ℕ) (n : ℕ) (dst : ℕ → ℕ) (k : ℕ) :
    storeWords base src n dst k = if base ≤ k ∧ k < base + n then src (k - base) else dst k := by
  induction n with
  | zero =>
    rw [if_neg (by omega)]
    rfl
  | succ n ih =>
    rw [storeWords, Function.update_apply, ih]
    by_cases hk : k = base + n
    · rw [if_pos hk, if_pos (by omega), hk, Nat.add_sub_cancel_left]
    · rw [if_neg hk]
      exact if_congr (by omega) rfl rfl

lemma storeWords_zero_apply (src : ℕ → ℕ) (n : ℕ) (dst : ℕ → ℕ) (k : ℕ) :
    storeWords 0 src n dst k = if k < n then src k else dst k := by
  simp [storeWords_apply]

end Machine
