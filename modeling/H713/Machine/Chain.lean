import Mathlib.Data.List.Nodup

/-!
# Chains of cells

`next i` is the cell that cell `i` links to, if any. `Chain next i l` says that following the links
from `i` visits the cells of `l` in this order and then stops. There is at most one such list, so no
cell occurs twice on it.
-/

namespace Machine

open Function List

variable {α : Type*} {next next' : α → Option α}

def Chain (next : α → Option α) : α → List α → Prop
  | i, []     => next i = none
  | i, j :: l => next i = some j ∧ Chain next j l

namespace Chain

@[simp] lemma nil_iff {i : α} : Chain next i [] ↔ next i = none := Iff.rfl

@[simp] lemma cons_iff {i j : α} {l : List α} :
    Chain next i (j :: l) ↔ next i = some j ∧ Chain next j l := Iff.rfl

lemma unique {i : α} {l l' : List α} (h : Chain next i l) (h' : Chain next i l') : l = l' := by
  induction l generalizing i l' with
  | nil =>
    cases l' with
    | nil => rfl
    | cons k l' => simp_all
  | cons j l ih =>
    cases l' with
    | nil => simp_all
    | cons k l' =>
      obtain rfl : j = k := Option.some.inj (h.1.symm.trans h'.1)
      rw [ih h.2 h'.2]

lemma exists_suffix {i j : α} {l : List α} (h : Chain next i l) (hj : j ∈ l) :
    ∃ l₁ l₂, l = l₁ ++ j :: l₂ ∧ Chain next j l₂ := by
  induction l generalizing i with
  | nil => simp at hj
  | cons k l ih =>
    rcases mem_cons.mp hj with rfl | hj
    · exact ⟨[], l, rfl, h.2⟩
    · obtain ⟨l₁, l₂, rfl, hc⟩ := ih h.2 hj
      exact ⟨k :: l₁, l₂, rfl, hc⟩

lemma head_notMem {i : α} {l : List α} (h : Chain next i l) : i ∉ l := by
  intro hi
  obtain ⟨l₁, l₂, rfl, hc⟩ := h.exists_suffix hi
  have hlen := congrArg List.length (h.unique hc)
  simp only [length_append, length_cons] at hlen
  omega

lemma nodup {i : α} {l : List α} (h : Chain next i l) : (i :: l).Nodup := by
  induction l generalizing i with
  | nil => simp
  | cons j l ih => exact nodup_cons.mpr ⟨h.head_notMem, ih h.2⟩

lemma of_mem {i j : α} {l : List α} (h : Chain next i l) (hj : j ∈ i :: l) :
    ∃ l', Chain next j l' := by
  rcases mem_cons.mp hj with rfl | hj
  · exact ⟨l, h⟩
  · obtain ⟨_, l₂, -, hc⟩ := h.exists_suffix hj
    exact ⟨l₂, hc⟩

lemma next_mem {i j k : α} {l : List α} (h : Chain next i l) (hj : j ∈ i :: l)
    (hk : next j = some k) : k ∈ l := by
  induction l generalizing i with
  | nil =>
    obtain rfl := mem_singleton.mp hj
    simp_all
  | cons m l ih =>
    rcases mem_cons.mp hj with rfl | hj
    · exact Option.some.inj (h.1.symm.trans hk) ▸ mem_cons_self
    · exact mem_cons_of_mem m (ih h.2 hj)

lemma exists_prev {i k : α} {l : List α} (h : Chain next i l) (hk : k ∈ l) :
    ∃ j ∈ i :: l, next j = some k := by
  induction l generalizing i with
  | nil => simp at hk
  | cons m l ih =>
    rcases mem_cons.mp hk with rfl | hk
    · exact ⟨i, mem_cons_self, h.1⟩
    · obtain ⟨j, hj, hn⟩ := ih h.2 hk
      exact ⟨j, mem_cons_of_mem i hj, hn⟩

lemma congr {i : α} {l : List α} (h : Chain next i l)
    (heq : ∀ j ∈ i :: l, next' j = next j) : Chain next' i l := by
  induction l generalizing i with
  | nil => exact (heq i mem_cons_self).trans h
  | cons j l ih =>
    refine ⟨(heq i mem_cons_self).trans h.1, ih h.2 fun k hk => ?_⟩
    exact heq k (mem_cons_of_mem i hk)

lemma push {i o : α} {l : List α} (h : Chain next i l) (hi : next' i = some o)
    (ho : next' o = next i) (heq : ∀ j ∈ l, next' j = next j) : Chain next' i (o :: l) := by
  refine ⟨hi, ?_⟩
  cases l with
  | nil => exact ho.trans h
  | cons j l => exact ⟨ho.trans h.1, h.2.congr heq⟩

lemma pop {i j : α} {l : List α} (h : Chain next i (j :: l)) (hi : next' i = next j)
    (heq : ∀ k ∈ l, next' k = next k) : Chain next' i l := by
  cases l with
  | nil => exact hi.trans h.2
  | cons k l => exact ⟨hi.trans h.2.1, h.2.2.congr heq⟩

variable [DecidableEq α]

lemma concat {i p o : α} {l : List α} (h : Chain next i l) (hp : p ∈ i :: l)
    (hpn : next p = none) (ho : next o = none) (hpo : p ≠ o) :
    Chain (update next p (some o)) i (l ++ [o]) := by
  induction l generalizing i with
  | nil =>
    obtain rfl := mem_singleton.mp hp
    simp [update_of_ne hpo.symm, ho]
  | cons j l ih =>
    have hip : i ≠ p := by
      rintro rfl
      simp [hpn] at h
    refine ⟨(update_of_ne hip _ _).trans h.1, ih h.2 ?_⟩
    exact (mem_cons.mp hp).resolve_left hip.symm

lemma splice {i a b : α} {l : List α} (h : Chain next i l) (hab : next a = some b)
    (hinj : ∀ j, next j = some b → j = a) (hib : i ≠ b) :
    Chain (update (update next a (next b)) b none) i (l.erase b) := by
  induction l generalizing i with
  | nil =>
    have hia : i ≠ a := by
      rintro rfl
      simp [hab] at h
    simpa [update_of_ne hib, update_of_ne hia] using h
  | cons j l ih =>
    rcases eq_or_ne j b with rfl | hjb
    · -- the cell before `b` is `a`, which now links to what `b` linked to
      obtain rfl := hinj i h.1
      have hi := h.head_notMem
      have hj := h.2.head_notMem
      rw [erase_cons_head]
      cases l with
      | nil => simpa [update_of_ne hib] using h.2
      | cons k l =>
        refine ⟨by simpa [update_of_ne hib] using h.2.1, h.2.2.congr fun m hm => ?_⟩
        have hmj : m ≠ j := fun e => hj (e ▸ hm)
        have hmi : m ≠ i := fun e => hi (mem_cons_of_mem j (e ▸ hm))
        rw [update_of_ne hmj, update_of_ne hmi]
    · have hia : i ≠ a := by
        rintro rfl
        exact hjb (Option.some.inj (h.1.symm.trans hab))
      rw [erase_cons_tail (by simpa using hjb)]
      refine ⟨?_, ih h.2 hjb⟩
      rw [update_of_ne hib, update_of_ne hia]
      exact h.1

end Chain

end Machine
