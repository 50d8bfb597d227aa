import Mathlib.Data.List.Basic

/-!
# Sequences of stores

A memory or a block of registers is a function from addresses to values, and `store` makes one
write after the other. What is not written keeps its value.
-/

namespace Machine

open Function List

variable {α β : Type*} [DecidableEq α]

def store (ws : List (α × β)) (m : α → β) : α → β :=
  ws.foldl (fun m w => Function.update m w.1 w.2) m

@[simp] lemma store_nil (m : α → β) : store [] m = m := rfl

@[simp] lemma store_cons (w : α × β) (ws : List (α × β)) (m : α → β) :
    store (w :: ws) m = store ws (update m w.1 w.2) := rfl

lemma store_of_notMem {ws : List (α × β)} {a : α} (h : ∀ w ∈ ws, w.1 ≠ a) (m : α → β) :
    store ws m a = m a := by
  induction ws generalizing m with
  | nil => rfl
  | cons w ws ih =>
    rw [store_cons, ih fun v hv => h v (mem_cons_of_mem w hv)]
    exact update_of_ne (h w mem_cons_self).symm _ _

lemma store_map (as : List α) (f : α → β) (m : α → β) (a : α) :
    store (as.map fun a => (a, f a)) m a = if a ∈ as then f a else m a := by
  induction as generalizing m with
  | nil => rfl
  | cons b as ih =>
    rw [map_cons, store_cons, ih]
    by_cases hmem : a ∈ as
    · rw [if_pos hmem, if_pos (mem_cons_of_mem b hmem)]
    · rw [if_neg hmem]
      by_cases hab : a = b
      · subst hab
        rw [if_pos mem_cons_self, update_self]
      · have hnot : a ∉ b :: as := fun h => (mem_cons.mp h).elim hab hmem
        rw [if_neg hnot, update_of_ne hab]

end Machine
