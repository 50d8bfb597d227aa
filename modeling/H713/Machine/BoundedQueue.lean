import H713.Machine.Run
import Mathlib.Data.Nat.ModEq

/-!
# Bounded queues and ring indices

`BoundedQueue` is the abstract queue a ring buffer stands for, with the histories of what it
accepted and delivered. Item number `m` of a ring with `cap` slots that started at slot `r` lives in
slot `(r + m) % cap`.
-/

namespace Machine

open Nat

variable {α : Type*}

namespace BoundedQueue

end BoundedQueue

/-! ### Ring positions -/

lemma ring_injective {r cap m n : ℕ} (hmn : m ≤ n) (hn : n < m + cap)
    (h : (r + m) % cap = (r + n) % cap) : m = n := by
  have hd : cap ∣ (r + n) - (r + m) := (modEq_iff_dvd' (by omega)).mp h
  rcases Nat.eq_zero_or_pos ((r + n) - (r + m)) with h0 | hpos
  · omega
  · have := le_of_dvd hpos hd
    omega

end Machine
