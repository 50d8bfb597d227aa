import H713.Machine.BoundedQueue

/-!
# Streams written into a ring

`ringWrite size off f n` writes the first `n` items of a stream `f` into a ring of `size` places,
from place `off` on. What is in the ring afterwards are the last `size` items.
-/

namespace Machine

open Function Nat

variable {α : Type*} {size off n : ℕ} {f : ℕ → α} {m : ℕ → α}

def ringWrite (size off : ℕ) (f : ℕ → α) : ℕ → (ℕ → α) → ℕ → α
  | 0, m     => m
  | n + 1, m => Function.update (ringWrite size off f n m) ((off + n) % size) (f n)

lemma ringWrite_add (a b : ℕ) :
    ringWrite size off f (a + b) m =
      ringWrite size (off + a) (fun j => f (a + j)) b (ringWrite size off f a m) := by
  induction b with
  | zero => rfl
  | succ b ih => rw [← Nat.add_assoc, ringWrite, ih, ringWrite, Nat.add_assoc off]

lemma ringWrite_mod : ringWrite size (off % size) f n m = ringWrite size off f n m := by
  induction n with
  | zero => rfl
  | succ n ih => rw [ringWrite, ih, ringWrite, mod_add_mod]

lemma ringWrite_congr {f' : ℕ → α} (h : ∀ j < n, f j = f' j) :
    ringWrite size off f n m = ringWrite size off f' n m := by
  induction n with
  | zero => rfl
  | succ n ih =>
    rw [ringWrite, ringWrite, ih fun j hj => h j (lt_succ_of_lt hj), h n (lt_succ_self n)]

lemma ringWrite_last {j : ℕ} (hj : j < n) (hlast : n ≤ j + size) :
    ringWrite size off f n m ((off + j) % size) = f j := by
  induction n with
  | zero => omega
  | succ n ih =>
    rw [ringWrite]
    rcases Nat.lt_or_eq_of_le (le_of_lt_succ hj) with hlt | rfl
    · have hne : (off + j) % size ≠ (off + n) % size := fun h => by
        have := ring_injective hlt.le (by omega) h
        omega
      rw [update_of_ne hne]
      exact ih hlt (by omega)
    · exact update_self _ _ _

lemma ringWrite_of_le (h : off + n ≤ size) :
    ringWrite size off f n m = fun k => if off ≤ k ∧ k < off + n then f (k - off) else m k := by
  induction n with
  | zero =>
    funext k
    rw [if_neg (by omega)]
    rfl
  | succ n ih =>
    funext k
    rw [ringWrite, ih (by omega), mod_eq_of_lt (by omega), update_apply]
    by_cases hk : k = off + n
    · rw [if_pos hk, if_pos (by omega), hk, Nat.add_sub_cancel_left]
    · rw [if_neg hk]
      exact if_congr (by omega) rfl rfl

end Machine
