import H713.CpuComm.Routine.Basic
import Mathlib.Order.Interval.Finset.Nat

/-!
# The chains of the routine table

`Table.Ok`: the chain of every primary slot ends, a free slot is at most the last of its chain, and
each entry lies on the chain of its own primary slot. It does not say that the chains are disjoint.
-/

namespace CpuComm

open Machine Function List

namespace Table

/-! ### Descriptors and links -/

def succ (t : Table) (i : ℕ) : Option ℕ := if t.next i < 0 then none else some (t.next i).toNat

@[simp] lemma desc_setEntry (t : Table) (i : ℕ) (e : RtEntry) :
    (t.setEntry i e).desc = update t.desc i e.desc := by
  funext j
  by_cases h : j = i <;> simp [desc, setEntry, h]

@[simp] lemma next_setEntry (t : Table) (i : ℕ) (e : RtEntry) :
    (t.setEntry i e).next = update t.next i e.next := by
  funext j
  by_cases h : j = i <;> simp [next, setEntry, h]

@[simp] lemma desc_setNext (t : Table) (i : ℕ) (n : ℤ) : (t.setNext i n).desc = t.desc := by
  rw [setNext, desc_setEntry]
  exact update_eq_self i t.desc

@[simp] lemma next_setNext (t : Table) (i : ℕ) (n : ℤ) :
    (t.setNext i n).next = update t.next i n := by
  rw [setNext, next_setEntry]

@[simp] lemma desc_clearCompId (t : Table) (i : ℕ) :
    (t.clearCompId i).desc = update t.desc i { t.desc i with compId := 0 } := by
  rw [clearCompId, desc_setEntry]

@[simp] lemma next_clearCompId (t : Table) (i : ℕ) : (t.clearCompId i).next = t.next := by
  rw [clearCompId, next_setEntry]
  exact update_eq_self i t.next

@[simp] lemma desc_bumpVersion (t : Table) : t.bumpVersion.desc = t.desc := rfl

@[simp] lemma next_bumpVersion (t : Table) : t.bumpVersion.next = t.next := rfl

@[simp] lemma entry_bumpVersion (t : Table) : t.bumpVersion.entry = t.entry := rfl

@[simp] lemma desc_place (t : Table) (i : ℕ) (d : RoutineDesc) :
    (t.place i d).desc = update t.desc i d :=
  desc_setEntry t i ⟨d, -1⟩

@[simp] lemma next_place (t : Table) (i : ℕ) (d : RoutineDesc) :
    (t.place i d).next = update t.next i (-1) :=
  next_setEntry t i ⟨d, -1⟩

lemma succ_congr {t t' : Table} (h : t'.next = t.next) : t'.succ = t.succ := by
  funext i
  rw [succ, succ, h]

lemma succ_eq_none {t : Table} {i : ℕ} (h : t.next i = -1) : t.succ i = none := by
  simp [succ, h]

lemma succ_eq_some {t : Table} {i : ℕ} (h : 0 ≤ t.next i) :
    t.succ i = some (t.next i).toNat := by
  simp [succ, h]

lemma hashIdx_lt (c : ℕ) : hashIdx c < 1024 := Nat.mod_lt c (by decide)

def LinksOk (t : Table) : Prop := ∀ i, t.next i = -1 ∨ 1024 ≤ t.next i ∧ t.next i ≤ 1223

/-- The table invariant of registration. -/
structure Ok (t : Table) : Prop where
  links : t.LinksOk
  free : ∀ i, t.compId i = 0 → t.next i = -1
  chain : ∀ b < 1024, ∃ l, Chain t.succ b l
  home : ∀ i, t.compId i ≠ 0 →
    ∃ l, Chain t.succ (hashIdx (t.compId i)) l ∧ i ∈ hashIdx (t.compId i) :: l
  unique : ∀ i j, t.compId i ≠ 0 → t.compId i = t.compId j → i = j

lemma Ok.init (stale : ℕ → RoutineDesc) : (init stale).Ok where
  links _ := .inl rfl
  free _ _ := rfl
  chain _ _ := ⟨[], rfl⟩
  home i h := absurd (rfl : (Table.init stale).compId i = 0) h
  unique i _ h := absurd (rfl : (Table.init stale).compId i = 0) h

variable {t t' : Table}

lemma LinksOk.of_succ_none (h : t.LinksOk) {i : ℕ} (hi : t.succ i = none) : t.next i = -1 := by
  rw [succ] at hi
  split at hi
  · rcases h i with h | h <;> omega
  · cases hi

lemma LinksOk.of_succ (h : t.LinksOk) {i j : ℕ} (hij : t.succ i = some j) :
    ¬ t.next i < 0 ∧ ¬ t.next i > rtMaxIndex ∧ (t.next i).toNat = j := by
  rw [succ] at hij
  split at hij
  · cases hij
  · refine ⟨by assumption, ?_, Option.some.inj hij⟩
    rcases h i with h | h <;> simp only [rtMaxIndex] <;> omega

lemma LinksOk.mem_chain (h : t.LinksOk) {b i : ℕ} {l : List ℕ} (hl : Chain t.succ b l)
    (hi : i ∈ l) : 1024 ≤ i ∧ i < 1224 := by
  obtain ⟨j, -, hj⟩ := hl.exists_prev hi
  obtain ⟨hge, -, rfl⟩ := h.of_succ hj
  rcases h j with h | h <;> omega

lemma LinksOk.length_chain (h : t.LinksOk) {b : ℕ} {l : List ℕ} (hl : Chain t.succ b l) :
    l.length ≤ 200 := by
  have hsub : l.toFinset ⊆ Finset.Ico 1024 1224 := by
    intro i hi
    exact Finset.mem_Ico.mpr (h.mem_chain hl (mem_toFinset.mp hi))
  have hcard := Finset.card_le_card hsub
  rwa [toFinset_card_of_nodup (nodup_cons.mp hl.nodup).2, Nat.card_Ico] at hcard

lemma Ok.move (h : t.Ok) (src : ℕ → ℕ) (hd : ∀ j, t'.compId j ≠ 0 → t'.desc j = t.desc (src j))
    (hinj : ∀ j k, t'.compId j ≠ 0 → t'.compId k ≠ 0 → src j = src k → j = k)
    (hlinks : t'.LinksOk) (hfree : ∀ j, t'.compId j = 0 → t'.next j = -1)
    (hchain : ∀ b < 1024, ∀ l, Chain t.succ b l →
      ∃ l', Chain t'.succ b l' ∧ ∀ j, t'.compId j ≠ 0 → src j ∈ b :: l → j ∈ b :: l') :
    t'.Ok := by
  have hc : ∀ j, t'.compId j ≠ 0 → t'.compId j = t.compId (src j) := fun j hj =>
    congrArg RoutineDesc.compId (hd j hj)
  refine ⟨hlinks, hfree, fun b hb => ?_, fun j hj => ?_, fun j k hj hjk => ?_⟩
  · obtain ⟨l, hl⟩ := h.chain b hb
    obtain ⟨l', hl', -⟩ := hchain b hb l hl
    exact ⟨l', hl'⟩
  · have hj' : t.compId (src j) ≠ 0 := hc j hj ▸ hj
    obtain ⟨l, hl, hm⟩ := h.home (src j) hj'
    obtain ⟨l', hl', hsub⟩ := hchain _ (hashIdx_lt _) l hl
    rw [hc j hj]
    exact ⟨l', hl', hsub j hj hm⟩
  · have hk : t'.compId k ≠ 0 := hjk ▸ hj
    refine hinj j k hj hk (h.unique _ _ (hc j hj ▸ hj) ?_)
    rw [← hc j hj, ← hc k hk, hjk]

lemma Ok.drop (h : t.Ok) (hn : t'.next = t.next) (hd : ∀ j, t'.compId j ≠ 0 → t'.desc j = t.desc j)
    (hfree : ∀ j, t'.compId j = 0 → t.next j = -1) : t'.Ok := by
  refine h.move id hd (fun _ _ _ _ e => e) (fun j => hn ▸ h.links j) (hn ▸ hfree) fun b _ l hl => ?_
  exact ⟨l, succ_congr hn ▸ hl, fun _ _ hj => hj⟩

/-! ### The walks -/

lemma walk_congr {t t' : Table} (h : t'.entry = t.entry) (c m i : ℕ) :
    t'.walk c m i = t.walk c m i := by
  have hcomp : t'.compId = t.compId := by
    funext j
    rw [compId, desc, h, compId, desc]
  have hnext : t'.next = t.next := by
    funext j
    rw [next, h, next]
  induction m generalizing i with
  | zero => rfl
  | succ m ih => simp only [walk, hcomp, hnext, ih]

lemma walk_bumpVersion (t : Table) (c m i : ℕ) : t.bumpVersion.walk c m i = t.walk c m i :=
  walk_congr (entry_bumpVersion t) c m i

lemma walk_found {c m i j : ℕ} (h : t.walk c m i = some (.found j)) : t.compId j = c := by
  induction m generalizing i with
  | zero => cases h
  | succ m ih =>
    rw [walk] at h
    split_ifs at h with hc
    · cases h
      exact hc
    · cases h
    · cases h
    · exact ih h

lemma addWalk_error {m i : ℕ} {p e : ℤ} (h : t.addWalk m p i = some (.error e)) :
    e = -22 := by
  induction m generalizing p i with
  | zero => cases h
  | succ m ih =>
    rw [addWalk] at h
    split_ifs at h
    · cases h
    · cases h
      rfl
    · cases h
    · cases h
      rfl
    · exact ih h

lemma addWalk_free {m i : ℕ} {p prev cur : ℤ}
    (h : t.addWalk m p i = some (.ok (prev, cur))) (hcur : 0 ≤ cur) : t.compId cur.toNat = 0 := by
  induction m generalizing p i with
  | zero => cases h
  | succ m ih =>
    rw [addWalk] at h
    split_ifs at h with h0 _ hneg
    · cases h
      exact h0
    · cases h
    · cases h
      omega
    · cases h
    · exact ih h

lemma walk_chain (h : t.LinksOk) {c n i : ℕ} {l : List ℕ} (hl : Chain t.succ i l)
    (hn : l.length < n) :
    (∃ j ∈ i :: l, t.compId j = c ∧ t.walk c n i = some (.found j)) ∨
      (∀ j ∈ i :: l, t.compId j ≠ c) ∧ t.walk c n i = some .absent := by
  induction n generalizing i l with
  | zero => exact absurd hn (Nat.not_lt_zero _)
  | succ n ih =>
    by_cases hc : t.compId i = c
    · exact .inl ⟨i, mem_cons_self, hc, by simp [walk, hc]⟩
    cases l with
    | nil =>
      have hlt : t.next i = -1 := h.of_succ_none hl
      exact .inr ⟨by simpa using hc, by simp [walk, hc, hlt]⟩
    | cons j l =>
      obtain ⟨hij, hl'⟩ := hl
      obtain ⟨hge, hmax, hj⟩ := h.of_succ hij
      have hw : t.walk c (n + 1) i = t.walk c n j := by
        rw [walk, if_neg hc, if_neg hge, if_neg hmax, hj]
      rw [hw]
      rcases ih hl' (by simpa using hn) with ⟨k, hk, hkc, hwk⟩ | ⟨hall, hwk⟩
      · exact .inl ⟨k, mem_cons_of_mem i hk, hkc, hwk⟩
      · exact .inr ⟨by simpa [hc] using hall, hwk⟩

lemma addWalk_chain (h : t.LinksOk) {n i : ℕ} {p : ℤ} {l : List ℕ} (hl : Chain t.succ i l)
    (hn : l.length < n) :
    (∃ j ∈ i :: l, t.compId j ≠ 0 ∧ (t.desc j).cpu > 1 ∧
        t.addWalk n p i = some (.error (-22))) ∨
      (∃ q, ∃ j ∈ i :: l, t.compId j = 0 ∧ t.addWalk n p i = some (.ok (q, j))) ∨
      (∃ j ∈ i :: l, t.next j = -1 ∧ t.addWalk n p i = some (.ok (j, -1))) ∧
        ∀ j ∈ i :: l, t.compId j ≠ 0 := by
  induction n generalizing i l p with
  | zero => exact absurd hn (Nat.not_lt_zero _)
  | succ n ih =>
    by_cases hc : t.compId i = 0
    · exact .inr (.inl ⟨p, i, mem_cons_self, hc, by simp [addWalk, hc]⟩)
    by_cases hcpu : (t.desc i).cpu > 1
    · refine .inl ⟨i, mem_cons_self, hc, hcpu, ?_⟩
      rw [addWalk, if_neg hc, if_pos hcpu]
    cases l with
    | nil =>
      have hlt : t.next i = -1 := h.of_succ_none hl
      refine .inr (.inr ⟨⟨i, mem_cons_self, hlt, ?_⟩, by simpa using hc⟩)
      rw [addWalk, if_neg hc, if_neg hcpu, if_pos (by omega), hlt]
    | cons j l =>
      obtain ⟨hij, hl'⟩ := hl
      obtain ⟨hge, hmax, hj⟩ := h.of_succ hij
      have hw : t.addWalk (n + 1) p i = t.addWalk n i j := by
        rw [addWalk, if_neg hc, if_neg hcpu, if_neg hge, if_neg hmax, hj]
      rw [hw]
      rcases ih hl' (by simpa using hn) with ⟨k, hk, hrest⟩ | ⟨q, k, hk, hrest⟩ |
        ⟨⟨k, hk, hrest⟩, hall⟩
      · exact .inl ⟨k, mem_cons_of_mem i hk, hrest⟩
      · exact .inr (.inl ⟨q, k, mem_cons_of_mem i hk, hrest⟩)
      · refine .inr (.inr ⟨⟨k, mem_cons_of_mem i hk, hrest⟩, ?_⟩)
        simpa [hc] using hall

end Table

end CpuComm
