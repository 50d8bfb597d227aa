import Mathlib.Data.List.MinMax

/-!
# Keeping the best

A search goes through a list and keeps the candidate with the highest score so far. A later one
must be strictly better. When it starts from something worse than every candidate, it finds the
`argmax` of the list.
-/

namespace Machine

open List

variable {α : Type*}

def keepBest (score : α → ℕ) (best a : α) : α := if score best < score a then a else best

lemma foldl_keepBest {score : α → ℕ} {start : α} {l : List α}
    (h : ∀ a ∈ l, score start < score a) :
    l.foldl (keepBest score) start = (l.argmax score).getD start := by
  induction l using List.reverseRecOn with
  | nil => rfl
  | append_singleton l a ih =>
    have hl : ∀ b ∈ l, score start < score b := fun b hb => h b (mem_append_left _ hb)
    have ha : score start < score a := h a (mem_append_right _ mem_cons_self)
    rw [foldl_append, foldl_cons, foldl_nil, ih hl, argmax_concat]
    cases hbest : l.argmax score with
    | none => exact if_pos ha
    | some b =>
      rw [Option.getD_some, keepBest]
      dsimp only
      split_ifs <;> rfl

end Machine
