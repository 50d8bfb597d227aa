import Mathlib.Tactic.SplitIfs

/-!
# Outcomes of calls that can fail

A call that can fail is a value of `Except ε α`. `Ends P E x` is its postcondition: a result meets
`P`, and an error meets `E`. Calls one after the other are treated by `Ends.bind`.
-/

namespace Machine

universe u v

variable {ε : Type u} {α β : Type v} {x : Except ε α} {f : α → Except ε β}
  {P P' : α → Prop} {Q : β → Prop} {E : ε → Prop}

lemma bind_eq_ok {b : β} : (x >>= f) = .ok b ↔ ∃ a, x = .ok a ∧ f a = .ok b := by
  cases x with
  | error e => simp [bind, Except.bind]
  | ok a => simp [bind, Except.bind]

lemma toOption_eq_some {a : α} : x.toOption = some a ↔ x = .ok a := by
  cases x <;> simp [Except.toOption]

@[simp] lemma ok_bind {a : α} : ((.ok a : Except ε α) >>= f) = f a := rfl

@[simp] lemma error_bind {e : ε} : ((.error e : Except ε α) >>= f) = .error e := rfl

def Ends (P : α → Prop) (E : ε → Prop) : Except ε α → Prop
  | .ok a    => P a
  | .error e => E e

namespace Ends

@[simp] lemma ok_iff {a : α} : Ends P E (.ok a) ↔ P a := Iff.rfl

lemma of_eq_ok {a : α} (h : Ends P E x) (hx : x = .ok a) : P a := by
  rw [hx] at h
  exact h

lemma of_eq_error {e : ε} (h : Ends P E x) (hx : x = .error e) : E e := by
  rw [hx] at h
  exact h

lemma mono (h : Ends P E x) (hP : ∀ a, P a → P' a) : Ends P' E x := by
  cases x with
  | error e => exact h
  | ok a => exact hP a h

lemma bind (h : Ends P E x) (hf : ∀ a, P a → Ends Q E (f a)) : Ends Q E (x >>= f) := by
  cases x with
  | error e => exact h
  | ok a => exact hf a h

lemma ite {p : Prop} [Decidable p] {y z : Except ε α} (hy : p → Ends P E y)
    (hz : ¬ p → Ends P E z) : Ends P E (if p then y else z) := by
  split_ifs with h
  · exact hy h
  · exact hz h

end Ends

end Machine
