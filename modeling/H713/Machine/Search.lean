import Mathlib.Data.List.Infix
import Mathlib.Data.List.Range

/-!
# Searching a list for a pattern

`searchLoop` goes through a list from one occurrence of a pattern to the next one behind it. It
skips an occurrence only if that overlaps the one before, which does not happen when no proper
end of the pattern is also its beginning.
-/

namespace Machine

open List

variable {α : Type*} {pat buf : List α} {p i j fuel : ℕ}

/-! ### Occurrences -/

lemma lt_length_of_prefix_drop (hpat : pat ≠ []) (h : pat <+: buf.drop j) : j < buf.length := by
  have hlen := h.length_le
  have hpos := length_pos_of_ne_nil hpat
  rw [length_drop] at hlen
  omega

lemma prefix_drop_append_iff {a b c : List α} (hj : a.length ≤ j)
    (hlen : j + pat.length ≤ a.length + b.length) :
    pat <+: (a ++ b ++ c).drop j ↔ pat <+: b.drop (j - a.length) := by
  have hdrop : (a ++ b ++ c).drop j = b.drop (j - a.length) ++ c := by
    rw [append_assoc, drop_append, drop_eq_nil_of_le hj, nil_append,
      drop_append_of_le_length (by omega)]
  rw [hdrop]
  refine ⟨fun h => ?_, fun h => h.trans (prefix_append _ _)⟩
  refine prefix_of_prefix_length_le h (prefix_append _ _) ?_
  rw [length_drop]
  omega

def Borderless (pat : List α) : Prop := ∀ k < pat.length, 0 < k → ¬ pat.drop k <+: pat

lemma Borderless.apart (hb : Borderless pat) (hi : pat <+: buf.drop i) (hj : pat <+: buf.drop j)
    (hij : i < j) : i + pat.length ≤ j := by
  by_contra hlt
  have hend : pat.drop (j - i) <+: buf.drop j := by
    have hdrop := List.IsPrefix.drop hi (j - i)
    rwa [drop_drop, Nat.add_sub_cancel' hij.le] at hdrop
  refine hb (j - i) (by omega) (by omega) (prefix_of_prefix_length_le hend hj ?_)
  rw [length_drop]
  omega

/-! ### The search -/

variable [DecidableEq α]

instance (pat : List α) : Decidable (Borderless pat) :=
  inferInstanceAs (Decidable (∀ k < pat.length, 0 < k → ¬ pat.drop k <+: pat))

def findFrom (pat buf : List α) (p : ℕ) : Option ℕ :=
  (List.range' p (buf.length + 1 - p)).find? fun i => pat.isPrefixOf (buf.drop i)

def searchLoop (pat buf : List α) : ℕ → ℕ → List ℕ
  | 0, _        => []
  | fuel + 1, p =>
    match findFrom pat buf p with
    | none   => []
    | some i => i :: searchLoop pat buf fuel (i + pat.length)

lemma findFrom_eq_none (hpat : pat ≠ []) (h : findFrom pat buf p = none) (hj : p ≤ j) :
    ¬ pat <+: buf.drop j := by
  intro hocc
  have hlt := lt_length_of_prefix_drop hpat hocc
  have hno := List.find?_eq_none.mp h j (mem_range'_1.mpr ⟨hj, by omega⟩)
  exact hno ( isPrefixOf_iff_prefix.mpr hocc)

lemma findFrom_eq_some (h : findFrom pat buf p = some i) :
    p ≤ i ∧ pat <+: buf.drop i ∧ ∀ j, p ≤ j → j < i → ¬ pat <+: buf.drop j := by
  obtain ⟨hocc, hmem, hfirst⟩ := List.find?_range'_eq_some.mp h
  refine ⟨(mem_range'_1.mp hmem).1, isPrefixOf_iff_prefix.mp hocc, ?_⟩
  intro j hpj hji hocc'
  have hno := hfirst j hpj hji
  rw [ isPrefixOf_iff_prefix.mpr hocc'] at hno
  cases hno

/-- With fuel for each place, the search stops at each occurrence. -/
theorem mem_searchLoop (hpat : pat ≠ []) (hb : Borderless pat) (hfuel : buf.length ≤ p + fuel) :
    j ∈ searchLoop pat buf fuel p ↔ p ≤ j ∧ pat <+: buf.drop j := by
  induction fuel generalizing p with
  | zero =>
    refine ⟨fun h => absurd h not_mem_nil, fun ⟨hpj, hocc⟩ => ?_⟩
    have hlt := lt_length_of_prefix_drop hpat hocc
    omega
  | succ fuel ih =>
    have hpos := length_pos_of_ne_nil hpat
    rw [searchLoop]
    cases hfind : findFrom pat buf p with
    | none =>
      refine ⟨fun h => absurd h not_mem_nil, fun ⟨hpj, hocc⟩ => ?_⟩
      exact absurd hocc (findFrom_eq_none hpat hfind hpj)
    | some i =>
      obtain ⟨hpi, hocci, hfirst⟩ := findFrom_eq_some hfind
      rw [mem_cons, ih (by omega)]
      constructor
      · rintro (rfl | ⟨hij, hocc⟩)
        · exact ⟨hpi, hocci⟩
        · exact ⟨by omega, hocc⟩
      · rintro ⟨hpj, hocc⟩
        rcases Nat.lt_trichotomy j i with hji | rfl | hij
        · exact absurd hocc (hfirst j hpj hji)
        · exact .inl rfl
        · exact .inr ⟨hb.apart hocci hocc hij, hocc⟩

end Machine
