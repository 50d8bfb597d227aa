import Mathlib.Algebra.BigOperators.Group.List.Basic
import Mathlib.Algebra.GroupWithZero.Nat
import Mathlib.Data.List.Nodup
import Mathlib.Data.List.Pairwise

/-!
# Runs of numbers

A run is named by its first number, and `count` gives its length. `Ascending count lo hi ps` says
that the runs `ps` lie between `lo` and `hi` in ascending order and apart from each other. Runs are
taken out and cut short.
-/

namespace Machine

open List

variable {count count' : ℕ → ℕ} {lo hi c n p q r x : ℕ} {ps l₁ l₂ : List ℕ}

def InRuns (count : ℕ → ℕ) (ps : List ℕ) (x : ℕ) : Prop := ∃ r ∈ ps, r ≤ x ∧ x < r + count r

structure Ascending (count : ℕ → ℕ) (lo hi : ℕ) (ps : List ℕ) : Prop where
  gaps : ps.Pairwise fun p q => p + count p < q
  bounds : ∀ p ∈ ps, 0 < count p ∧ lo ≤ p ∧ p + count p ≤ hi

lemma InRuns.congr (h : ∀ r ∈ ps, count' r = count r) : InRuns count' ps x ↔ InRuns count ps x := by
  unfold InRuns
  refine exists_congr fun r => and_congr_right fun hr => ?_
  rw [h r hr]

namespace Ascending

lemma nil : Ascending count lo hi [] := ⟨List.Pairwise.nil, nofun⟩

lemma congr (h : Ascending count lo hi ps) (hc : ∀ r ∈ ps, count' r = count r) :
    Ascending count' lo hi ps := by
  refine ⟨h.gaps.imp_of_mem fun hp _ hlt => ?_, fun p hp => ?_⟩
  · rw [hc _ hp]
    exact hlt
  · rw [hc p hp]
    exact h.bounds p hp

lemma mono (h : Ascending count lo hi ps) {hi' : ℕ} (hle : hi ≤ hi') : Ascending count lo hi' ps :=
  ⟨h.gaps, fun p hp => by have := h.bounds p hp; omega⟩

lemma sublist (h : Ascending count lo hi ps) {qs : List ℕ} (hs : qs.Sublist ps) :
    Ascending count lo hi qs :=
  ⟨h.gaps.sublist hs, fun p hp => h.bounds p (hs.subset hp)⟩

lemma sum_le (h : Ascending count lo hi ps) (hlo : lo ≤ hi) : lo + (ps.map count).sum ≤ hi := by
  induction ps generalizing lo with
  | nil => simpa using hlo
  | cons p ps ih =>
    obtain ⟨hp, hps⟩ := pairwise_cons.mp h.gaps
    have hin := h.bounds p mem_cons_self
    have hrest : Ascending count (p + count p) hi ps := by
      refine ⟨hps, fun q hq => ?_⟩
      have := h.bounds q (mem_cons_of_mem p hq)
      exact ⟨this.1, Nat.le_of_lt (hp q hq), this.2.2⟩
    have := ih hrest hin.2.2
    rw [map_cons, sum_cons]
    omega

lemma mem_middle (hr : r ∈ l₁ ++ l₂) : r ∈ l₁ ++ c :: l₂ := by
  simp only [mem_append, mem_cons] at hr ⊢
  tauto

lemma trim (h : Ascending count lo hi (l₁ ++ c :: l₂)) (hn : n < count c)
    (hc : count' (c + n) = count c - n) (hr : ∀ r ∈ l₁ ++ l₂, count' r = count r) :
    Ascending count' lo hi (l₁ ++ (c + n) :: l₂) := by
  have hc' := h.bounds c (by simp)
  obtain ⟨hg₁, hg₂, hg⟩ := pairwise_append.mp h.gaps
  obtain ⟨hgc, hg₂⟩ := pairwise_cons.mp hg₂
  refine ⟨pairwise_append.mpr ⟨hg₁.imp_of_mem fun hp _ hlt => ?_,
    pairwise_cons.mpr ⟨fun q hq => ?_, hg₂.imp_of_mem fun hp _ hlt => ?_⟩,
        fun p hp q hq => ?_⟩,
    fun p hp => ?_⟩
  · rw [hr _ (mem_append_left _ hp)]
    exact hlt
  · have := hgc q hq
    omega
  · rw [hr _ (mem_append_right _ hp)]
    exact hlt
  · rw [hr p (mem_append_left _ hp)]
    rcases mem_cons.mp hq with rfl | hq
    · have := hg p hp c mem_cons_self
      omega
    · exact hg p hp q (mem_cons_of_mem c hq)
  · rw [mem_append, mem_cons] at hp
    rcases hp with hp | rfl | hp
    · rw [hr p (mem_append_left _ hp)]
      exact h.bounds p (mem_middle (mem_append_left _ hp))
    · omega
    · rw [hr p (mem_append_right _ hp)]
      exact h.bounds p (mem_middle (mem_append_right _ hp))

end Ascending

lemma mem_middle_cases (hr : r ∈ l₁ ++ c :: l₂) : r = c ∨ r ∈ l₁ ++ l₂ := by
  rwa [mem_append, mem_cons, or_left_comm, ← mem_append] at hr

lemma InRuns.remove (h : InRuns count (l₁ ++ c :: l₂) x) :
    InRuns count (l₁ ++ l₂) x ∨ c ≤ x ∧ x < c + count c := by
  obtain ⟨r, hr, hx⟩ := h
  rcases mem_middle_cases hr with rfl | hr
  · exact .inr hx
  · exact .inl ⟨r, hr, hx⟩

lemma InRuns.trim (h : InRuns count (l₁ ++ c :: l₂) x) (hc : count' (c + n) = count c - n)
    (hr : ∀ r ∈ l₁ ++ l₂, count' r = count r) :
    InRuns count' (l₁ ++ (c + n) :: l₂) x ∨ c ≤ x ∧ x < c + n := by
  obtain ⟨r, hrm, hx⟩ := h
  rcases mem_middle_cases hrm with rfl | hrm
  · rcases Nat.lt_or_ge x (r + n) with hlt | hge
    · exact .inr ⟨hx.1, hlt⟩
    · exact .inl ⟨r + n, by simp, by omega⟩
  · exact .inl ⟨r, Ascending.mem_middle hrm, by rw [hr r hrm]; exact hx⟩

lemma sum_middle (count : ℕ → ℕ) (l₁ l₂ : List ℕ) (c : ℕ) :
    ((l₁ ++ c :: l₂).map count).sum = ((l₁ ++ l₂).map count).sum + count c := by
  simp only [map_append, map_cons, sum_append, sum_cons]
  omega

lemma sum_trim (hn : n ≤ count c) (hc : count' (c + n) = count c - n)
    (hr : ∀ r ∈ l₁ ++ l₂, count' r = count r) :
    ((l₁ ++ (c + n) :: l₂).map count').sum + n = ((l₁ ++ c :: l₂).map count).sum := by
  rw [sum_middle, sum_middle, hc, map_congr_left hr]
  omega

end Machine
