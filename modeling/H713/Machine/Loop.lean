import Mathlib.Data.Set.Finite.Basic
import Mathlib.Tactic.Ring

/-!
# Loops that may not end

The body of a loop takes a state to that of the next round or to the result. `loop` runs it with
fuel, and `after` is the state after a number of rounds. A loop over finitely many states ends
exactly when no state comes up twice.
-/

namespace Machine.Loop

open Option

variable {α β : Type*} {body : α → α ⊕ β} {a x y : α} {b : β} {n fuel : ℕ}

def loop (body : α → α ⊕ β) : ℕ → α → Option (ℕ × β)
  | 0, _        => none
  | fuel + 1, a =>
    match body a with
    | .inl a' => (loop body fuel a').map fun r => (r.1 + 1, r.2)
    | .inr b  => some (0, b)

def after (body : α → α ⊕ β) : ℕ → α → Option α
  | 0, a     => some a
  | n + 1, a =>
    match body a with
    | .inl a' => after body n a'
    | .inr _  => none

lemma after_succ_of_inl (h : body a = .inl x) : after body (n + 1) a = after body n x := by
  rw [after, h]

lemma after_succ_of_inr (h : body a = .inr b) : after body (n + 1) a = none := by
  rw [after, h]

lemma after_add (m n : ℕ) (a : α) :
    after body (m + n) a = (after body m a).bind (after body n) := by
  induction m generalizing a with
  | zero => rw [Nat.zero_add, after, bind_some]
  | succ m ih =>
    rw [Nat.add_right_comm]
    cases h : body a with
    | inl a' => rw [after_succ_of_inl h, after_succ_of_inl h, ih]
    | inr b => rw [after_succ_of_inr h, after_succ_of_inr h, bind_none]

lemma loop_eq_some_iff :
    loop body fuel a = some (n, b) ↔
      n < fuel ∧ ∃ x, after body n a = some x ∧ body x = .inr b := by
  induction fuel generalizing a n with
  | zero => simp [loop]
  | succ fuel ih =>
    cases h : body a with
    | inl a' =>
      cases n with
      | zero => simp [loop, after, h]
      | succ n => simp [loop, after, h, ih]
    | inr b' =>
      cases n with
      | zero => simp [loop, after, h]
      | succ n => simp [loop, after, h]

lemma loop_eq_none_of_return (h : body a = .inl a) (fuel : ℕ) : loop body fuel a = none := by
  induction fuel with
  | zero => rfl
  | succ fuel ih => simp only [loop, h, ih, map_none]

def Ends (body : α → α ⊕ β) (a : α) : Prop := ∃ fuel r, loop body fuel a = some r

lemma ends_iff : Ends body a ↔ ∃ n x b, after body n a = some x ∧ body x = .inr b := by
  constructor
  · rintro ⟨fuel, ⟨n, b⟩, h⟩
    obtain ⟨-, x, hx, hb⟩ := loop_eq_some_iff.mp h
    exact ⟨n, x, b, hx, hb⟩
  · rintro ⟨n, x, b, hx, hb⟩
    exact ⟨n + 1, (n, b), loop_eq_some_iff.mpr ⟨n.lt_succ_self, x, hx, hb⟩⟩

lemma exists_after_of_not_ends (h : ¬ Ends body a) (n : ℕ) : ∃ x, after body n a = some x := by
  induction n with
  | zero => exact ⟨a, rfl⟩
  | succ n ih =>
    obtain ⟨x, hx⟩ := ih
    cases hb : body x with
    | inl x' =>
      refine ⟨x', ?_⟩
      rw [after_add, hx, bind_some, after_succ_of_inl hb, after]
    | inr b => exact absurd (ends_iff.mpr ⟨n, x, b, hx, hb⟩) h

lemma after_mul_of_return (h : after body n x = some x) (k : ℕ) :
    after body (k * n) x = some x := by
  induction k with
  | zero => rw [Nat.zero_mul, after]
  | succ k ih => rw [Nat.succ_mul, after_add, ih, bind_some, h]

/-- A loop whose states lie in a finite set ends exactly when none of them comes up twice. -/
theorem ends_iff_forall_ne {s : Set α} (hs : s.Finite)
    (hmem : ∀ n x, after body n a = some x → x ∈ s) :
    Ends body a ↔ ∀ i j x, i < j → after body i a = some x → after body j a ≠ some x := by
  constructor
  · intro hends i j x hij hi hj
    obtain ⟨n, y, b, hn, hb⟩ := ends_iff.mp hends
    obtain ⟨d, rfl⟩ := Nat.exists_eq_add_of_lt hij
    have hret : after body (d + 1) x = some x := by
      rw [Nat.add_assoc, after_add, hi, bind_some] at hj
      exact hj
    -- go round often enough to be past the end
    have hlong : after body (i + (n + 1) * (d + 1)) a = some x := by
      rw [after_add, hi, bind_some, after_mul_of_return hret]
    have hsplit : i + (n + 1) * (d + 1) = n + ((i + n * d + d) + 1) := by ring
    rw [hsplit, after_add, hn, bind_some, after_succ_of_inr hb] at hlong
    cases hlong
  · intro hne
    by_contra hends
    choose f hf using exists_after_of_not_ends hends
    have hinj : Function.Injective f := by
      intro i j hij
      rcases Nat.lt_trichotomy i j with h | h | h
      · exact absurd (hij ▸ hf j) (hne i j (f i) h (hf i))
      · exact h
      · exact absurd (hij ▸ hf i) (hne j i (f j) h (hf j))
    exact Set.infinite_of_injective_forall_mem hinj (fun n => hmem n _ (hf n)) hs

/-- A loop that climbs by `c` at each round, and goes on below `B` only, ends, `c` higher for each
round. -/
theorem exists_end_of_climb {inv : α → Prop} (rank : α → ℕ) {c B : ℕ} (hc : 0 < c) (ha : inv a)
    (hstep : ∀ x x', inv x → body x = .inl x' → inv x' ∧ rank x + c ≤ rank x' ∧ rank x ≤ B) :
    ∃ n x b, after body n a = some x ∧ body x = .inr b ∧ inv x ∧ rank a + n * c ≤ rank x := by
  generalize hk : B + 1 - rank a = k
  induction k using Nat.strong_induction_on generalizing a with
  | _ k ih =>
    cases hb : body a with
    | inr b => exact ⟨0, a, b, rfl, hb, ha, by omega⟩
    | inl a' =>
      obtain ⟨hinv, hclimb, hle⟩ := hstep a a' ha hb
      obtain ⟨n, x, b, hx, hend, hinvx, hrank⟩ := ih (B + 1 - rank a') (by omega) hinv rfl
      refine ⟨n + 1, x, b, (after_succ_of_inl hb).trans hx, hend, hinvx, ?_⟩
      rw [Nat.succ_mul]
      omega

end Machine.Loop
