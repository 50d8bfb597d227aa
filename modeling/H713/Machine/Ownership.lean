import Mathlib.Data.Multiset.Count
import Mathlib.Data.Set.Insert

/-!
# Counted references

`Balanced counts made holders` says that each count is the number of holders of the object, and that
an object that was made is released once, when it has no holder.
-/

namespace Machine

open Function Multiset

variable {α : Type*} [DecidableEq α]

/-- How many references there are to each object, and how often it has been released. -/
structure RefCounts (α : Type*) where
  refs : α → ℕ
  released : α → ℕ

namespace RefCounts

def none : RefCounts α := ⟨fun _ => 0, fun _ => 0⟩

variable (c : RefCounts α)

def create (a : α) : RefCounts α :=
  { c with refs := Function.update c.refs a 1 }

def inc (a : α) : RefCounts α :=
  { c with refs := Function.update c.refs a (c.refs a + 1) }

def put (a : α) : RefCounts α :=
  if c.refs a = 1 then
    ⟨Function.update c.refs a 0, Function.update c.released a (c.released a + 1)⟩
  else { c with refs := Function.update c.refs a (c.refs a - 1) }

structure Balanced (c : RefCounts α) (made : Set α) (holders : Multiset α) : Prop where
  refs : ∀ a, c.refs a = holders.count a
  held : ∀ a ∈ holders, a ∈ made ∧ c.released a = 0
  dropped : ∀ a ∈ made, a ∉ holders → c.released a = 1
  unmade : ∀ a, a ∉ made → c.released a = 0

namespace Balanced

variable {c : RefCounts α} {made : Set α} {holders : Multiset α} {a : α}

lemma none : (RefCounts.none : RefCounts α).Balanced ∅ 0 where
  refs := fun _ => rfl
  held := fun _ h => absurd h (notMem_zero _)
  dropped := fun _ h => absurd h (Set.notMem_empty _)
  unmade := fun _ _ => rfl

lemma create (h : c.Balanced made holders) (ha : a ∉ made) :
    (c.create a).Balanced (insert a made) (a ::ₘ holders) := by
  have hno : a ∉ holders := fun hm => ha (h.held a hm).1
  refine ⟨fun b => ?_, fun b hb => ?_, fun b hb hno' => ?_, fun b hb => ?_⟩
  · rcases eq_or_ne b a with rfl | hne
    · simp only [RefCounts.create, update_self, count_cons_self,
        count_eq_zero_of_notMem hno]
    · simp only [RefCounts.create, update_of_ne hne, count_cons_of_ne hne, h.refs]
  · rcases mem_cons.mp hb with rfl | hb
    · exact ⟨Set.mem_insert _ _, h.unmade _ ha⟩
    · exact ⟨Set.mem_insert_of_mem a (h.held b hb).1, (h.held b hb).2⟩
  · rw [mem_cons, not_or] at hno'
    exact h.dropped b (Set.mem_of_mem_insert_of_ne hb hno'.1) hno'.2
  · exact h.unmade b fun hm => hb (Set.mem_insert_of_mem a hm)

lemma inc (h : c.Balanced made holders) (ha : a ∈ holders) :
    (c.inc a).Balanced made (a ::ₘ holders) := by
  refine ⟨fun b => ?_, fun b hb => ?_, fun b hb hno => ?_, h.unmade⟩
  · rcases eq_or_ne b a with rfl | hne
    · simp only [RefCounts.inc, update_self, count_cons_self, h.refs]
    · simp only [RefCounts.inc, update_of_ne hne, count_cons_of_ne hne, h.refs]
  · rcases mem_cons.mp hb with rfl | hb
    · exact h.held _ ha
    · exact h.held b hb
  · exact h.dropped b hb fun hm => hno (mem_cons_of_mem hm)

lemma put (h : c.Balanced made (a ::ₘ holders)) : (c.put a).Balanced made holders := by
  have hrefs : c.refs a = holders.count a + 1 := by rw [h.refs, count_cons_self]
  have hmade := h.held a (mem_cons_self a holders)
  have hother {b : α} (hb : b ∈ holders) := h.held b (mem_cons_of_mem hb)
  unfold RefCounts.put
  split_ifs with hlast
  · -- the last reference: no holder is left
    have hno : a ∉ holders := count_eq_zero.mp (by omega)
    refine ⟨fun b => ?_, fun b hb => ?_, fun b hb hnb => ?_, fun b hb => ?_⟩
    · rcases eq_or_ne b a with rfl | hne
      · simp only [update_self, count_eq_zero_of_notMem hno]
      · simp only [update_of_ne hne, h.refs, count_cons_of_ne hne]
    · have hne : b ≠ a := fun e => hno (e ▸ hb)
      simpa only [update_of_ne hne] using hother hb
    · rcases eq_or_ne b a with rfl | hne
      · simp only [update_self, hmade.2]
      · simp only [update_of_ne hne]
        refine h.dropped b hb fun hm => ?_
        exact (mem_cons.mp hm).elim hne hnb
    · have hne : b ≠ a := fun e => hb (e ▸ hmade.1)
      simpa only [update_of_ne hne] using h.unmade b hb
  · refine ⟨fun b => ?_, fun b hb => hother hb, fun b hb hnb => ?_, h.unmade⟩
    · rcases eq_or_ne b a with rfl | hne
      · simp only [update_self, hrefs, Nat.add_sub_cancel]
      · simp only [update_of_ne hne, h.refs, count_cons_of_ne hne]
    · have hne : b ≠ a := by
        rintro rfl
        exact hlast (by rw [hrefs, count_eq_zero_of_notMem hnb])
      refine h.dropped b hb fun hm => ?_
      exact (mem_cons.mp hm).elim hne hnb

lemma unique {made' : Set α} {holders' : Multiset α} (h : c.Balanced made holders)
    (h' : c.Balanced made' holders') : holders = holders' :=
  Multiset.ext.mpr fun a => (h.refs a).symm.trans (h'.refs a)

end Balanced

end RefCounts

end Machine
