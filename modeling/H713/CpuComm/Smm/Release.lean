import Mathlib.Data.List.Induction
import H713.CpuComm.Smm.Pages

/-!
# The release of pages

`Trid_SMM_Free` adds the released pages to a run of the ring or links a new one, and moves the break
down when a long run ends there. The new run is linked behind the *successor* of the place that was
found. With at most one free run in the ring this is the right entry.
-/

namespace CpuComm

open Machine Function List Option Nat

namespace Arena

variable (V : Arena)

/-- The `n` pages from page `x` on are a run, with the links that the source gives it. -/
def insert (x n q : ℕ) : Arena :=
  { V with
    count := update V.count x n
    next := update (update V.next x (V.next q)) q x
    prev := update (update V.prev x q) (V.prev q) x }

/-- Run `r` is `n` pages longer. -/
def lengthen (r n : ℕ) : Arena := { V with count := update V.count r (V.count r + n) }

/-- Run `r` has the pages and the successor of run `c`. -/
def merge (r c : ℕ) : Arena :=
  { V.lengthen r (V.count c) with
    next := update V.next r (V.next c)
    prev := update V.prev (V.next c) r }

/-- The break is down at the first page of run `r`. -/
def shrink (r : ℕ) : Arena :=
  { V.unlink r with brk := V.brk - 4096 * V.count r, limit := r, hint := r }

end Arena

namespace Smm

variable {S : Smm} {m : Mem} {V : Arena} {use : ℕ → Use} {ps : List ℕ} {n p x pages c q r : ℕ}

def HintFree (S : Smm) (V : Arena) (ps : List ℕ) : Prop :=
  V.hint ∈ 0 :: ps ∨
    V.brk ≤ 4096 * V.hint ∧ V.hint < S.pageCount ∧ V.prev V.hint ∈ 0 :: ps

/-! ### The place in the ring -/

lemma walkUp_linked {cur n : ℕ} {l : List ℕ} (h : S.Shows m V)
    (hl : Linked V.next V.prev cur l 0) (hlt : ∀ y ∈ cur :: l, y < S.pageCount)
    (hn : l.length < n) : ∃ c ∈ 0 :: l, walkUp m S.pt x n cur = some c := by
  induction l generalizing cur n with
  | nil =>
    obtain ⟨n, rfl⟩ := exists_eq_succ_of_ne_zero (Nat.ne_zero_of_lt hn)
    refine ⟨0, mem_cons_self, ?_⟩
    rw [walkUp, h.next cur (hlt cur mem_cons_self), hl.1]
    rfl
  | cons w l ih =>
    obtain ⟨n, rfl⟩ := exists_eq_succ_of_ne_zero (Nat.ne_zero_of_lt hn)
    obtain ⟨c, hc, hr⟩ := ih (n := n) hl.2.2
      (fun y hy => hlt y (mem_cons_of_mem cur hy)) (by simpa using hn)
    rw [walkUp, h.next cur (hlt cur mem_cons_self), hl.1]
    simp only [mem_cons] at hc ⊢
    by_cases hw : w = 0
    · exact ⟨0, .inl rfl, if_pos hw⟩
    by_cases hx : x > w
    · exact ⟨c, by tauto, by rw [if_neg hw, if_pos hx, hr]⟩
    · exact ⟨w, by tauto, by rw [if_neg hw, if_neg hx]⟩

lemma walkDown_linked {cur n : ℕ} {l : List ℕ} (h : S.Shows m V)
    (hl : Linked V.next V.prev 0 l cur) (hlt : ∀ y ∈ cur :: l, y < S.pageCount)
    (hn : l.length < n) : ∃ c ∈ 0 :: l, walkDown m S.pt x n cur = some c := by
  induction l using List.reverseRecOn generalizing cur n with
  | nil =>
    obtain ⟨n, rfl⟩ := exists_eq_succ_of_ne_zero (Nat.ne_zero_of_lt hn)
    refine ⟨0, mem_cons_self, ?_⟩
    rw [walkDown, h.prev cur (hlt cur mem_cons_self), hl.2]
    exact if_neg (Nat.not_lt_zero x)
  | append_singleton l w ih =>
    obtain ⟨n, rfl⟩ := exists_eq_succ_of_ne_zero (Nat.ne_zero_of_lt hn)
    obtain ⟨hl₁, hl₂⟩ := Linked.append_cons.mp hl
    obtain ⟨c, hc, hr⟩ := ih (n := n) hl₁
      (fun y hy => hlt y (by simp only [mem_cons, mem_append] at hy ⊢; tauto))
      (by simpa using hn)
    rw [walkDown, h.prev cur (hlt cur mem_cons_self), hl₂.2]
    simp only [mem_cons, mem_append] at hc ⊢
    by_cases hx : x < w
    · exact ⟨c, by tauto, by rw [if_pos hx, hr]⟩
    · exact ⟨w, by tauto, if_neg hx⟩

lemma Pages.split_ring (hV : S.Pages V use ps) (hc : c ∈ 0 :: ps) :
    (∃ l, Linked V.next V.prev c l 0 ∧ l ⊆ ps ∧ l.length ≤ 2) ∧
      ∃ l, Linked V.next V.prev 0 l c ∧ l ⊆ ps ∧ l.length ≤ 2 := by
  have hshort := hV.short
  rcases mem_cons.mp hc with rfl | hc
  · exact ⟨⟨ps, hV.ring, List.Subset.refl ps, hshort⟩, ⟨ps, hV.ring, List.Subset.refl ps, hshort⟩⟩
  · obtain ⟨l₁, l₂, rfl⟩ := append_of_mem hc
    obtain ⟨h₁, h₂⟩ := Linked.append_cons.mp hV.ring
    simp only [length_append, length_cons] at hshort
    refine ⟨⟨l₂, h₂, fun y hy => ?_, by omega⟩, ⟨l₁, h₁, fun y hy => ?_, by omega⟩⟩ <;>
    · simp only [mem_append, mem_cons]
      tauto

lemma Pages.lt_of_walk {l : List ℕ} (hV : S.Pages V use ps) (hc : c ∈ 0 :: ps) (hl : l ⊆ ps) :
    ∀ y ∈ c :: l, y < S.pageCount := by
  intro y hy
  rcases mem_cons.mp hy with rfl | hy
  · exact hV.lt_of_mem hc
  · exact hV.lt_of_mem (mem_cons_of_mem 0 (hl hy))

lemma Pages.next_prev (hV : S.Pages V use ps) (hc : c ∈ 0 :: ps) : V.next (V.prev c) = c := by
  obtain ⟨-, l, hl, -⟩ := hV.split_ring hc
  induction l using List.reverseRecOn with
  | nil => rw [hl.2, hl.1]
  | append_singleton l w =>
    obtain ⟨-, hw⟩ := Linked.append_cons.mp hl
    rw [hw.2, hw.1]

lemma walkDown_spec {cur : ℕ} (h : S.Shows m V) (hV : S.Pages V use ps) (hc : cur ∈ 0 :: ps)
    (hn : 2 < n) : ∃ c ∈ 0 :: ps, walkDown m S.pt x n cur = some c := by
  obtain ⟨-, l, hl, hsub, hlen⟩ := hV.split_ring hc
  obtain ⟨c, hc', hr⟩ := walkDown_linked (x := x) (n := n) h hl (hV.lt_of_walk hc hsub) (by omega)
  exact ⟨c, cons_subset_cons 0 hsub hc', hr⟩

lemma curSearch_spec (h : S.Shows m V) (hV : S.Pages V use ps) (hh : S.HintFree V ps)
    (hx : 4096 * x < V.brk) : ∃ c ∈ 0 :: ps, S.curSearch m S.pt x = some c := by
  -- the way back from an entry of the walk down to the entry itself
  have back : ∀ c ∈ 0 :: ps, m.pte S.pt (m.pte S.pt c 2) 1 = c := by
    intro c hc
    rw [h.prev c (hV.lt_of_mem hc), h.next _ (hV.prev_lt hc), hV.next_prev hc]
  rw [curSearch, h.hint]
  by_cases hge : x ≥ V.hint
  · have hhint : V.hint ∈ 0 :: ps := hh.resolve_right (by omega)
    obtain ⟨⟨l, hl, hsub, hlen⟩, -⟩ := hV.split_ring hhint
    obtain ⟨c, hc, hr⟩ := walkUp_linked (x := x) (n := loopFuel) h hl (hV.lt_of_walk hhint hsub)
      (by simp only [loopFuel]; omega)
    exact ⟨c, cons_subset_cons 0 hsub hc, by rw [if_pos hge, hr]⟩
  · rw [if_neg hge]
    rcases hh with hhint | ⟨-, hhint, hprev⟩
    · obtain ⟨c, hc, hr⟩ := walkDown_spec (x := x) (n := loopFuel) h hV hhint (by decide)
      exact ⟨c, hc, by rw [hr, map_some, back c hc]⟩
    · rw [show loopFuel = 4294967296 + 1 from rfl, walkDown, h.prev _ hhint]
      by_cases hlt : x < V.prev V.hint
      · obtain ⟨c, hc, hr⟩ := walkDown_spec (x := x) (n := 4294967296) h hV hprev (by decide)
        exact ⟨c, hc, by rw [if_pos hlt, hr, map_some, back c hc]⟩
      · exact ⟨_, hprev, by rw [if_neg hlt, map_some, back _ hprev]⟩

/-! ### Linking the released pages -/

/-- A release of the block at page `x` leaves the other blocks and their page table entries as they
were. -/
structure Freed (x : ℕ) (V : Arena) (use : ℕ → Use) (V' : Arena) (use' : ℕ → Use) : Prop where
  heads : V'.heads = V.heads
  cuts : V'.cuts = V.cuts
  word : V'.word = V.word
  brk_le : V'.brk ≤ V.brk
  kept : ∀ p, (∀ h, use p ≠ .run h) → use p ≠ .none → use p ≠ .big x →
    use' p = use p ∧ V'.count p = V.count p ∧ V'.next p = V.next p
  cut : ∀ p i, use' p = .cut i → use p = .cut i

lemma Freed.trans {V₁ V₂ : Arena} {use₁ use₂ : ℕ → Use} (h₁ : Freed x V use V₁ use₁)
    (h₂ : Freed x V₁ use₁ V₂ use₂) : Freed x V use V₂ use₂ := by
  refine ⟨h₂.heads.trans h₁.heads, h₂.cuts.trans h₁.cuts, h₂.word.trans h₁.word,
    h₂.brk_le.trans h₁.brk_le, fun p hrun hnone hbig => ?_,
    fun p i hp => h₁.cut p i (h₂.cut p i hp)⟩
  obtain ⟨hu, hc, hn⟩ := h₁.kept p hrun hnone hbig
  obtain ⟨hu', hc', hn'⟩ := h₂.kept p (hu ▸ hrun) (hu ▸ hnone) (hu ▸ hbig)
  exact ⟨hu'.trans hu, hc'.trans hc, hn'.trans hn⟩

def BigAt (use : ℕ → Use) (x pages : ℕ) : Prop := 0 < pages ∧ ∀ k < pages, use (x + k) = .big x

namespace BigAt

lemma self (hb : BigAt use x pages) : use x = .big x := hb.2 0 hb.1

lemma use_eq (hb : BigAt use x pages) (hle : x ≤ p) (hlt : p < x + pages) : use p = .big x := by
  have := hb.2 (p - x) (by omega)
  rwa [show x + (p - x) = p by omega] at this

lemma used (hb : BigAt use x pages) (hle : x ≤ p) (hlt : p < x + pages) : use p ≠ .none := by
  rw [hb.use_eq hle hlt]
  nofun

lemma bounds (hV : S.Pages V use ps) (hb : BigAt use x pages) :
    S.dataStart ≤ 4096 * x ∧ 4096 * (x + pages) ≤ V.brk := by
  have hpos := hb.1
  have hfirst := (hV.used x (hb.used le_rfl (by omega))).1
  have hlast := (hV.used (x + (pages - 1)) (hb.used (by omega) (by omega))).2
  have := hV.brk_mod
  omega

lemma notMem (hV : S.Pages V use ps) (hb : BigAt use x pages) : x ∉ 0 :: ps := by
  refine hV.notMem_ring (fun h => ?_) ?_ <;>
  · rw [hb.self]
    nofun

lemma run_notIn {h k : ℕ} (hV : S.Pages V use ps) (hb : BigAt use x pages) (hh : h ∈ ps)
    (hk : k < V.count h) : ¬ (x ≤ h + k ∧ h + k < x + pages) := by
  rintro ⟨hle, hlt⟩
  have h₁ := (hV.runs h hh).2 k hk
  rw [hb.use_eq hle hlt] at h₁
  cases h₁

end BigAt

lemma Pages.single (hV : S.Pages V use ps) (h : V.next 0 = V.prev 0) :
    ps = [] ∨ ∃ a, ps = [a] := by
  have hring := hV.ring
  have hnd := hV.nodup
  have hshort := hV.short
  match ps with
  | [] => exact .inl rfl
  | [a] => exact .inr ⟨a, rfl⟩
  | [a, b] =>
    obtain ⟨h₁, -, -, -, -, h₂⟩ := hring
    rw [h₁, h₂] at h
    simp [h] at hnd
  | _ :: _ :: _ :: _ => simp at hshort

lemma insertRun_link (h : S.Shows m V) (hx : x < S.pageCount) (hp : n < 4294967296)
    (hq : q < S.pageCount) (hqn : V.next q < S.pageCount) (hqp : V.prev q < S.pageCount)
    (hne : q ≠ x) (hadj : x ≠ u32 (q + V.count q)) :
    ∃ m', S.insertRun m S.pt x n q = (m', x) ∧ S.Shows m' (V.insert x n q) ∧
      S.hdr m' 43 = u32 (S.hdr m 43 + 1) ∧ S.hdr m' 44 = S.hdr m 44 := by
  have hpc := S.pageCount_le
  have h₁ := h.setCount (v := n) hx hp
  have h₂ := h₁.setNext (v := V.next q) hx (by omega)
  have h₃ := h₂.setPrev (v := q) hx (by omega)
  have h₄ := h₃.setNext (v := x) hq (by omega)
  have h₅ := h₄.setPrev (v := x) hqp (by omega)
  have hp₄ := h₄.prev q hq
  simp only [update_of_ne hne] at hp₄
  rw [insertRun, h.count q hq, if_neg hadj]
  simp only [h₁.next q hq, hp₄]
  refine ⟨_, rfl, h₅.addHdr (i := 43) (by omega) 1, ?_⟩
  simp (disch := omega) only [Smm.addHdr, hdr_setHdr, hdr_setPte]
  simp

lemma insertRun_extend (h : S.Shows m V) (hq : q < S.pageCount)
    (hfit : q + V.count q + n < 4294967296) :
    S.insertRun m S.pt (q + V.count q) n q = (m.setPte S.pt q 0 (V.count q + n), q) ∧
      S.Shows (m.setPte S.pt q 0 (V.count q + n)) (V.lengthen q n) := by
  refine ⟨?_, h.setCount hq (by omega)⟩
  rw [insertRun, h.count q hq, u32_of_lt (by omega), if_pos rfl]

lemma insert_freed {ps' : List ℕ} (hV : S.Pages V use ps) (hb : BigAt use x pages)
    (hq : q ∈ 0 :: ps) (hlen : ps.length ≤ 1) (hperm : ps'.Perm (x :: ps))
    (hring : Linked (V.insert x pages q).next (V.insert x pages q).prev 0 ps' 0) :
    ∃ use', S.Pages (V.insert x pages q) use' ps' ∧ Freed x V use (V.insert x pages q) use' := by
  have hpos := hb.1
  obtain ⟨hx0, hxs⟩ : x ≠ 0 ∧ x ∉ ps := by simpa using hb.notMem hV
  have hnd : (0 :: ps').Nodup := by
    rw [nodup_cons, hperm.mem_iff, hperm.nodup_iff, mem_cons, not_or, nodup_cons]
    have hps := nodup_cons.mp hV.nodup
    exact ⟨⟨hx0.symm, hps.1⟩, hxs, hps.2⟩
  have hlen' := hperm.length_eq
  rw [length_cons] at hlen'
  refine ⟨relabel use x pages (.run x), hV.change rfl rfl
    (fun p => ne_none_of_relabel fun p => hb.used) hring hnd (by omega) ?_ fun h hh => ?_,
    rfl, rfl, rfl, le_rfl, fun p hrun hnone hbig => ?_, fun p i hp => cut_of_relabel hp (by simp)⟩
  · exact (update_of_ne hx0.symm _ _).trans hV.zero
  · rcases mem_cons.mp (hperm.mem_iff.mp hh) with rfl | hh
    · simp only [Arena.insert, update_self]
      exact ⟨hpos, fun k hk => relabel_in (by omega)⟩
    · have hne : h ≠ x := by
        rintro rfl
        exact hxs hh
      simp only [Arena.insert, update_of_ne hne]
      exact hV.run_relabel hh fun k => hb.run_notIn hV hh
  · have hp : ¬ (x ≤ p ∧ p < x + pages) := fun hr => hbig (hb.use_eq hr.1 hr.2)
    have hpx : p ≠ x := by omega
    have hpq : p ≠ q := by
      rintro rfl
      exact hV.notMem_ring hrun hnone hq
    simp only [relabel_out hp, Arena.insert, update_of_ne hpx, update_of_ne hpq, and_self]

lemma Pages.runs_longer {a : ℕ} {l : List ℕ} (hV : S.Pages V use ps) (hl : l ⊆ ps)
    (hadj : r + V.count r = a) (hout : ∀ h ∈ l, ∀ k < V.count h, ¬ (a ≤ h + k ∧ h + k < a + n)) :
    ∀ h ∈ l, 0 < (V.lengthen r n).count h ∧ ∀ k < (V.lengthen r n).count h,
      relabel use a n (.run r) (h + k) = .run h := by
  intro h hh
  obtain ⟨hpos, hrun⟩ := hV.runs h (hl hh)
  by_cases hhr : h = r
  · subst hhr
    simp only [Arena.lengthen, update_self]
    refine ⟨by omega, fun k hk => ?_⟩
    by_cases hkc : k < V.count h
    · rw [relabel_out (by omega), hrun k hkc]
    · exact relabel_in (by omega)
  · simp only [Arena.lengthen, update_of_ne hhr]
    exact hV.run_relabel (hl hh) (hout h hh)

lemma extend_freed (hV : S.Pages V use ps) (hb : BigAt use x pages) (hq : q ∈ ps)
    (hadj : x = q + V.count q) :
    ∃ use', S.Pages (V.lengthen q pages) use' ps ∧ Freed x V use (V.lengthen q pages) use' := by
  refine ⟨_, hV.change rfl rfl (fun p => ne_none_of_relabel fun p => hb.used) hV.ring hV.nodup
    hV.short ?_ (hV.runs_longer (List.Subset.refl ps) hadj.symm fun h hh k => hb.run_notIn hV hh),
    rfl, rfl, rfl, le_rfl, fun p hrun hnone hbig => ?_, fun p i hp => cut_of_relabel hp (by simp)⟩
  · exact (update_of_ne (hV.ne_zero hq).symm _ _).trans hV.zero
  · have hpq : p ≠ q := by
      rintro rfl
      exact hrun p (hV.run_self hq)
    rw [relabel_out fun hr => hbig (hb.use_eq hr.1 hr.2)]
    simp only [Arena.lengthen, update_of_ne hpq, and_self]

lemma Pages.prev_next (hV : S.Pages V use ps) (hc : c ∈ 0 :: ps) : V.prev (V.next c) = c := by
  obtain ⟨⟨l, hl, -⟩, -⟩ := hV.split_ring hc
  cases l with
  | nil => rw [hl.1, hl.2]
  | cons w l => rw [hl.1, hl.2.1]

lemma merge_freed (l₁ l₂ : List ℕ) (hV : S.Pages V use (l₁ ++ c :: l₂)) (hr : r ∈ l₁ ++ c :: l₂)
    (hn : V.next r = c) (hadj : r + V.count r = c) :
    ∃ use', S.Pages (V.merge r c) use' (l₁ ++ l₂) ∧ Freed x V use (V.merge r c) use' := by
  have hc : c ∈ l₁ ++ c :: l₂ := mem_append_right l₁ mem_cons_self
  have hpos := (hV.runs r hr).1
  have hprev : V.prev c = r := by
    rw [← hn]
    exact hV.prev_next (mem_cons_of_mem 0 hr)
  obtain ⟨hring, hnd, hlen⟩ := hV.unlink
  rw [Arena.unlink, hprev] at hring
  refine ⟨_, hV.change rfl rfl (fun p => ne_none_of_relabel fun p => hV.run_used hc) hring hnd
    hlen ?_ (hV.runs_longer (fun h hh => (hV.mem_rest.mp hh).1) hadj fun h hh k =>
      hV.run_disjoint hc (hV.mem_rest.mp hh).1 (hV.mem_rest.mp hh).2),
    rfl, rfl, rfl, le_rfl, fun p hrun hnone _ => ?_, fun p i hp => cut_of_relabel hp (by simp)⟩
  · exact (update_of_ne (hV.ne_zero hr).symm _ _).trans hV.zero
  · have hpr : p ≠ r := by
      rintro rfl
      exact hrun p (hV.run_self hr)
    rw [relabel_out fun hin => hrun c (hV.run_use hc hin.1 hin.2)]
    simp only [Arena.merge, Arena.lengthen, update_of_ne hpr, and_self]

lemma mergeNext_merge (h : S.Shows m V) (hr : r < S.pageCount) (hc : c < S.pageCount)
    (hn : V.next c < S.pageCount) (hadj : r + V.count r = c)
    (hfit : V.count r + V.count c < 4294967296) :
    S.Shows (S.mergeNext m S.pt r c) (V.merge r c) ∧
      S.hdr (S.mergeNext m S.pt r c) 43 = sub32 (S.hdr m 43) 1 ∧
      S.hdr (S.mergeNext m S.pt r c) 44 = S.hdr m 44 := by
  have hpc := S.pageCount_le
  have h₁ := h.setCount (v := V.count r + V.count c) hr hfit
  have h₂ := h₁.setNext (v := V.next c) hr (by omega)
  have h₃ := h₂.setPrev (v := r) hn (by omega)
  rw [mergeNext, h.count r hr, u32_of_lt (by omega), if_pos hadj, h.count c hc]
  simp only [h₁.next c hc]
  refine ⟨h₃.subHdr (by omega) 1, ?_⟩
  simp (disch := omega) only [Smm.subHdr, hdr_setHdr, hdr_setPte, u32_sub32]
  simp

lemma mergeNext_self {cur : ℕ} (h : S.Shows m V) (hr : r < S.pageCount)
    (hfit : r + V.count r < 4294967296) (hne : r + V.count r ≠ cur) :
    S.mergeNext m S.pt r cur = m := by
  rw [mergeNext, h.count r hr, u32_of_lt hfit, if_neg hne]

/-! ### The released pages in the ring -/

/-- The run of `n` released pages at `x`, joined with the one of `c` pages at `r` if that is next to
it. -/
def joinedRun (r c x n : ℕ) : ℕ × ℕ :=
  if r ≠ 0 ∧ r + c = x then (r, c + n) else if x + n = r then (x, n + c) else (x, n)

/-- The pages from `x` on are in run `r`. If `cur` is the place for them, the free runs are counted
as before. -/
structure Joined (S : Smm) (m : Mem) (V : Arena) (use : ℕ → Use) (ps : List ℕ) (x pages cur : ℕ)
    (m' : Mem) (r : ℕ) (V' : Arena) (use' : ℕ → Use) (ps' : List ℕ) : Prop where
  shows : S.Shows m' V'
  ok : S.Pages V' use' ps'
  freed : Freed x V use V' use'
  mem : r ∈ ps'
  brk : V'.brk = V.brk
  limit : V'.limit = V.limit
  runs : ∀ p, InRuns V.count ps p ∨ x ≤ p ∧ p < x + pages → InRuns V'.count ps' p
  counted : (∀ h ∈ ps, cur = if x < h then h else 0) →
    Ascending V.count (S.dataStart / 4096) (V.brk / 4096) ps → S.hdr m 43 = ps.length →
    S.hdr m 44 = u32 (4096 * ((ps.map V.count).sum + pages)) →
    S.Counted m' V' ps' ∧ (r, V'.count r) = joinedRun (V.next 0) (V.count (V.next 0)) x pages

lemma Pages.counted (hV : S.Pages V use ps)
    (hruns : Ascending V.count (S.dataStart / 4096) (V.brk / 4096) ps)
    (hlen : S.hdr m 43 = ps.length) (hbytes : S.hdr m 44 = u32 (4096 * (ps.map V.count).sum)) :
    S.Counted m V ps := by
  have hle := hV.bytes_le hruns
  have hlt := hV.brk_lt
  exact ⟨hruns, hlen, by rw [hbytes, u32_of_lt (by omega)]⟩

lemma BigAt.apart_run (hV : S.Pages V use ps) (hb : BigAt use x pages) (hr : r ∈ ps) :
    r + V.count r ≤ x ∨ x + pages ≤ r := by
  have hpos := hb.1
  have hcount := (hV.runs r hr).1
  by_contra hno
  rcases Nat.le_total r x with hle | hle
  · exact hb.run_notIn hV hr (k := x - r) (by omega) (by omega)
  · exact hb.run_notIn hV hr hcount (by omega)

lemma linked_before {a : ℕ} (hV : S.Pages V use [a]) (hx0 : x ≠ 0) (hxa : x ≠ a) (pages : ℕ) :
    Linked (V.insert x pages 0).next (V.insert x pages 0).prev 0 [x, a] 0 := by
  have ha := hV.ne_zero mem_cons_self
  obtain ⟨hn0, -, hna, hp0⟩ := hV.ring
  simp [Arena.insert, hn0, hna, hp0, hx0, hx0.symm, ha, ha.symm, hxa, hxa.symm]

section Join

variable {ps' : List ℕ} {cur a : ℕ} (h : S.Shows m V) (hb : BigAt use x pages)
include h hb

lemma insert_joined (hV : S.Pages V use ps) (hq : q ∈ 0 :: ps) (hadj : x ≠ q + V.count q)
    (hcur : x + pages ≠ cur) (hlen : ps.length ≤ 1) (hperm : ps'.Perm (x :: ps))
    (hring : Linked (V.insert x pages q).next (V.insert x pages q).prev 0 ps' 0)
    (hplace : (∀ h ∈ ps, cur = if x < h then h else 0) →
      ps'.Pairwise (fun a b => a + (V.insert x pages q).count a < b) ∧
        (x, pages) = joinedRun (V.next 0) (V.count (V.next 0)) x pages) :
    ∃ m₁ V' use', S.insertRun m S.pt x pages q = (m₁, x) ∧
      S.Joined m V use ps x pages cur (S.mergeNext m₁ S.pt x cur) x V' use' ps' := by
  have hbound := hb.bounds hV
  have hpos := hb.1
  have hbrk := hV.brk_lt
  have hds := S.dataStart_mod
  have hx := hb.notMem hV
  have hxl := hV.lt_pageCount (hb.used le_rfl (Nat.lt_add_of_pos_right hpos))
  have hend : q + V.count q < 4294967296 := by
    rcases mem_cons.mp hq with rfl | hq
    · rw [hV.zero]
      omega
    · have := hV.run_end hq
      omega
  rw [← u32_of_lt hend] at hadj
  obtain ⟨m₁, hm, hs, h43, h44⟩ := insertRun_link (n := pages) h hxl (by omega) (hV.lt_of_mem hq)
    (hV.next_lt hq) (hV.prev_lt hq) (fun e => hx (e ▸ hq)) hadj
  obtain ⟨use', hV', hf⟩ := insert_freed hV hb hq hlen hperm hring
  have hcx : (V.insert x pages q).count x = pages := update_self ..
  have hcr : ∀ r ∈ ps, (V.insert x pages q).count r = V.count r := by
    intro r hr
    refine update_of_ne ?_ _ _
    rintro rfl
    exact hx (mem_cons_of_mem 0 hr)
  refine ⟨m₁, V.insert x pages q, use', hm, ?_⟩
  rw [mergeNext_self hs hxl (by omega) (by rw [hcx]; exact hcur)]
  refine ⟨hs, hV', hf, hperm.mem_iff.mpr mem_cons_self, rfl, rfl, fun p hp => ?_,
    fun hpl hruns hl hbytes => ⟨hV'.counted ⟨(hplace hpl).1, fun r hr => ?_⟩ ?_ ?_, ?_⟩⟩
  · rcases hp with ⟨r, hr, hp⟩ | hp
    · exact ⟨r, hperm.mem_iff.mpr (mem_cons_of_mem x hr), by rw [hcr r hr]; exact hp⟩
    · exact ⟨x, hperm.mem_iff.mpr mem_cons_self, by rw [hcx]; exact hp⟩
  · rcases mem_cons.mp (hperm.mem_iff.mp hr) with rfl | hr
    · rw [hcx]
      show 0 < pages ∧ _ ∧ r + pages ≤ V.brk / 4096
      omega
    · rw [hcr r hr]
      exact hruns.bounds r hr
  · rw [h43, hl, hperm.length_eq, length_cons, u32_of_lt (by omega)]
  · rw [h44, hbytes, (hperm.map _).sum_eq, map_cons, sum_cons, hcx, map_congr_left hcr,
      Nat.add_comm pages]
  · rw [hcx]
    exact (hplace hpl).2

lemma extend_joined (hV : S.Pages V use [a]) (hadj : x = a + V.count a) :
    ∃ m₁ V' use', S.insertRun m S.pt x pages a = (m₁, a) ∧
      S.Joined m V use [a] x pages 0 (S.mergeNext m₁ S.pt a 0) a V' use' [a] := by
  have ha : a ∈ [a] := mem_cons_self
  have hbound := hb.bounds hV
  have hbrk := hV.brk_lt
  have hpos := (hV.runs a ha).1
  have hal := hV.lt_of_mem (mem_cons_of_mem 0 ha)
  obtain ⟨hm, hs⟩ := insertRun_extend (n := pages) h hal (by omega)
  obtain ⟨use', hV', hf⟩ := extend_freed hV hb ha hadj
  have hca : (V.lengthen a pages).count a = V.count a + pages := update_self ..
  refine ⟨_, V.lengthen a pages, use', hadj ▸ hm, ?_⟩
  rw [mergeNext_self hs hal (by omega) (by omega)]
  refine ⟨hs, hV', hf, ha, rfl, rfl, fun p hp => ?_, fun _ hruns hl hbytes =>
    ⟨hV'.counted ⟨pairwise_singleton _ _, fun r hr => ?_⟩ ?_ ?_, ?_⟩⟩
  · simp only [InRuns, mem_singleton, exists_eq_left, hca] at hp ⊢
    omega
  · obtain rfl := mem_singleton.mp hr
    have := hruns.bounds r ha
    rw [hca]
    show _ ∧ _ ∧ r + (V.count r + pages) ≤ V.brk / 4096
    omega
  · rw [hdr_setPte (by omega) hal (by omega), hl]
  · rw [hdr_setPte (by omega) hal (by omega), hbytes]
    simp [hca]
  · rw [hca, joinedRun, hV.ring.1, if_pos ⟨hV.ne_zero ha, hadj.symm⟩]

lemma merge_joined (hV : S.Pages V use [a]) (hadj : x + pages = a) :
    ∃ m₁ V' use', S.insertRun m S.pt x pages 0 = (m₁, x) ∧
      S.Joined m V use [a] x pages a (S.mergeNext m₁ S.pt x a) x V' use' [x] := by
  have hx0 : x ≠ 0 := fun e => hb.notMem hV (e ▸ mem_cons_self)
  have ha0 := hV.ne_zero mem_cons_self
  have hxa : x ≠ a := fun e => hb.notMem hV (e ▸ mem_cons_of_mem 0 mem_cons_self)
  have hpos := hb.1
  have hal := hV.lt_of_mem (mem_cons_of_mem 0 mem_cons_self)
  have hend := hV.run_end mem_cons_self
  have hbrk := hV.brk_lt
  have hbound := hb.bounds hV
  obtain ⟨hn0, hpa, hna, hp0⟩ := hV.ring
  -- linked before run `a` first, and then joined with it
  have hring := linked_before hV hx0 hxa pages
  obtain ⟨m₁, hm, hs, h43, h44⟩ := insertRun_link (n := pages) (q := 0) h
    (hV.lt_pageCount (hb.used le_rfl (by omega))) (by omega) (Pages.pageCount_pos S)
    (hV.next_lt mem_cons_self) (hV.prev_lt mem_cons_self) hx0.symm
    (by rw [hV.zero]; exact hx0)
  obtain ⟨use₁, hV₁, hf₁⟩ := insert_freed hV hb mem_cons_self le_rfl (.refl [x, a]) hring
  have hcx : (V.insert x pages 0).count x = pages := update_self ..
  have hca : (V.insert x pages 0).count a = V.count a := update_of_ne hxa.symm _ _
  obtain ⟨hs₂, h43', h44'⟩ := mergeNext_merge hs (hV₁.lt_of_mem (p := x) (by simp))
    hal (hV₁.next_lt (p := a) (by simp)) (by rw [hcx, hadj]) (by omega)
  obtain ⟨use₂, hV₂, hf₂⟩ := merge_freed (x := x) [x] [] hV₁ mem_cons_self
    hring.2.2.1 (by rw [hcx, hadj])
  have hc₂ : ((V.insert x pages 0).merge x a).count x = pages + V.count a :=
    (update_self ..).trans (by rw [hcx, hca])
  refine ⟨m₁, _, use₂, hm, hs₂, hV₂, hf₁.trans hf₂, mem_cons_self, rfl, rfl, fun p hp => ?_,
    fun _ hruns hl hbytes => ⟨hV₂.counted ⟨pairwise_singleton _ _, fun r hr => ?_⟩ ?_ ?_, ?_⟩⟩
  · simp only [InRuns, mem_singleton, exists_eq_left, hc₂] at hp ⊢
    omega
  · obtain rfl := mem_singleton.mp hr
    have := hruns.bounds a mem_cons_self
    have := S.dataStart_mod
    rw [hc₂]
    show _ ∧ _ ∧ r + (pages + V.count a) ≤ V.brk / 4096
    omega
  · rw [h43', h43, hl]
    simp [sub32, u32]
  · rw [h44', h44, hbytes]
    simp [hc₂, Nat.add_comm]
  · rw [hc₂, joinedRun, hn0, if_neg (by omega), if_pos hadj]

lemma joinRun_spec (hV : S.Pages V use ps) (hone : V.next 0 = V.prev 0) (hcur : cur ∈ 0 :: ps) :
    ∃ m₁ r V' use' ps', S.insertRun m S.pt x pages (V.next cur) = (m₁, r) ∧
      S.Joined m V use ps x pages cur (S.mergeNext m₁ S.pt r cur) r V' use' ps' := by
  have hpos := hb.1
  obtain ⟨hx0, hxs⟩ : x ≠ 0 ∧ x ∉ ps := by simpa using hb.notMem hV
  have hz : x ≠ 0 + V.count 0 := by rwa [hV.zero]
  rcases hV.single hone with rfl | ⟨a, rfl⟩
  · obtain rfl := mem_singleton.mp hcur
    obtain ⟨hn, hp⟩ := hV.ring
    rw [hn]
    obtain ⟨m₁, V', use', hm, hj⟩ := insert_joined h hb hV mem_cons_self hz
      (show x + pages ≠ 0 by omega) (Nat.zero_le 1) (.refl [x]) (by simp [Arena.insert, hn, hp, hx0])
      fun _ => ⟨pairwise_singleton _ _, by rw [joinedRun, hn, if_neg (by tauto), if_neg (by omega)]⟩
    exact ⟨m₁, x, V', use', _, hm, hj⟩
  have ha : a ≠ 0 := hV.ne_zero mem_cons_self
  have hxa : x ≠ a := by simpa using hxs
  have hapart := hb.apart_run hV mem_cons_self
  have hcount := (hV.runs a mem_cons_self).1
  obtain ⟨hn0, hpa, hna, hp0⟩ := hV.ring
  rcases mem_cons.mp hcur with rfl | hcur
  · rw [hn0]
    by_cases hadj : x = a + V.count a
    · obtain ⟨m₁, V', use', hm, hj⟩ := extend_joined h hb hV hadj
      exact ⟨m₁, a, V', use', _, hm, hj⟩
    · have hca : (V.insert x pages a).count a = V.count a := update_of_ne hxa.symm _ _
      have hring : Linked (V.insert x pages a).next (V.insert x pages a).prev 0 [a, x] 0 := by
        simp [Arena.insert, hn0, hpa, hna, hx0, hx0.symm, ha, ha.symm, hxa, hxa.symm]
      obtain ⟨m₁, V', use', hm, hj⟩ := insert_joined h hb hV (mem_cons_of_mem 0 mem_cons_self)
        hadj (show x + pages ≠ 0 by omega) le_rfl (.swap x a []) hring fun hpl => by
          have hnot : ¬ x < a := fun hlt => ha (by simpa [hlt] using (hpl a mem_cons_self).symm)
          rw [joinedRun, hn0, if_neg (by omega), if_neg (by omega), pairwise_pair, hca]
          exact ⟨by omega, rfl⟩
      exact ⟨m₁, x, V', use', _, hm, hj⟩
  · obtain rfl := mem_singleton.mp hcur
    rw [hna]
    by_cases hadj : x + pages = cur
    · obtain ⟨m₁, V', use', hm, hj⟩ := merge_joined h hb hV hadj
      exact ⟨m₁, x, V', use', _, hm, hj⟩
    · have hcx : (V.insert x pages 0).count x = pages := update_self ..
      obtain ⟨m₁, V', use', hm, hj⟩ := insert_joined h hb hV mem_cons_self hz hadj le_rfl
        (.refl [x, cur]) (linked_before hV hx0 hxa pages) fun hpl => by
          have hlt : x < cur := by
            by_contra hge
            exact ha (by simpa [hge] using hpl cur mem_cons_self)
          rw [joinedRun, hn0, if_neg (by omega), if_neg (by omega), pairwise_pair, hcx]
          exact ⟨by omega, rfl⟩
      exact ⟨m₁, x, V', use', _, hm, hj⟩

end Join

/-! ### The break moves down -/

lemma shmallocBrk_down {a : ℕ} (h : S.Shows m V) (hpos : 0 < a) (ha : a ≤ V.brk)
    (hb : V.brk ≤ S.size) (hs : S.size < 2147483648) :
    (S.shmallocBrk m (sub32 0 a)).1 = S.setHdr m 45 (V.brk - a) := by
  have hsub : sub32 0 a = 4294967296 - a := by
    simp only [sub32, u32]
    omega
  have hnew : u32 (4294967296 - a + V.brk) = V.brk - a := by
    simp only [u32]
    omega
  have hle : ¬ i32 (V.brk - a) > i32 S.size := by
    rw [i32_of_lt (by omega), i32_of_lt hs]
    omega
  rw [shmallocBrk, h.brk, h.size, hsub, hnew, if_neg (by tauto)]
  exact if_pos (by omega)

lemma shrink_shows {n : ℕ} (h : S.Shows m V) (hV : S.Pages V use ps) (hr : r ∈ ps)
    (hn : n = V.count r) (hlim : V.limit = r + n) (hs : S.size < 2147483648) :
    S.Shows (S.shmallocBrk (S.subHdr m 4 n) (sub32 0 (4096 * n))).1
      { V with brk := V.brk - 4096 * n, limit := r } := by
  have hend := hV.run_end hr
  have hpos := (hV.runs r hr).1
  have hbrk := hV.brk_lt
  have h₁ : S.Shows (S.subHdr m 4 n) { V with limit := r } := by
    have hv : sub32 (S.hdr m 4) n = r := by
      rw [h.limit, hlim, sub32_of_le (by omega) (by omega)]
      omega
    rw [Smm.subHdr, hv]
    exact h.setLimit (by omega)
  rw [shmallocBrk_down h₁ (by omega) (by simp only; omega) hV.brk_le hs]
  exact h₁.setBrk (by simp only; omega)

lemma shrink_freed (hV : S.Pages V use ps) (hr : r ∈ ps) (hlim : V.limit = r + V.count r) :
    ∃ use' ps', S.Pages (V.shrink r) use' ps' ∧ S.HintFree (V.shrink r) ps' ∧
      Freed x V use (V.shrink r) use' ∧ ∀ p, Spare V ps p → Spare (V.shrink r) ps' p := by
  have hpos := (hV.runs r hr).1
  have hmod := hV.brk_mod
  have hsize := hV.brk_le
  have hrm := mem_cons_of_mem 0 hr
  have hlt := hV.brk_lt
  have hbrk : V.brk = 4096 * (r + V.count r) := by
    rcases hV.limit with hl | ⟨hl, -⟩ <;> omega
  have hbrk' : (V.shrink r).brk = V.brk - 4096 * V.count r := rfl
  have hlim' : (V.shrink r).limit = r := rfl
  have hbound := hV.used r (hV.run_ne_none hr)
  have hnext := hV.next_ne hr
  have hprev := hV.prev_ne hr
  have hpm := hV.prev_mem hrm
  obtain ⟨l₁, l₂, rfl⟩ := append_of_mem hr
  obtain ⟨hring, hnd, hlen⟩ := hV.unlink
  refine ⟨relabel use r (V.count r) .none, l₁ ++ l₂, ⟨by omega, by omega, by omega, by omega,
    hV.signed.imp_left fun hd => by omega, .inl (by omega), fun p hp => ?_, hring, hnd, hlen,
    hV.zero, fun h hh => ?_⟩, .inr ⟨?_, hV.lt_of_mem hrm, ?_⟩,
    ⟨rfl, rfl, rfl, sub_le _ _, fun p hrun hnone _ => ?_,
    fun p i hp => cut_of_relabel hp (by simp)⟩, fun p hp => ?_⟩
  · by_cases hin : r ≤ p ∧ p < r + V.count r
    · exact absurd (relabel_in hin) hp
    · rw [relabel_out hin] at hp
      have := hV.used p hp
      omega
  · obtain ⟨hh', hne⟩ := hV.mem_rest.mp hh
    exact hV.run_relabel hh' fun k => hV.run_disjoint hr hh' hne
  · show (V.shrink r).brk ≤ 4096 * r
    omega
  · simp only [Arena.shrink, Arena.unlink, update_of_ne hnext.symm, mem_cons, hV.mem_rest] at hpm ⊢
    tauto
  · have hpp : p ≠ V.prev r := by
      rintro rfl
      exact hV.notMem_ring hrun hnone hpm
    rw [relabel_out fun hin => hrun r (hV.run_use hr hin.1 hin.2)]
    simp only [Arena.shrink, Arena.unlink, update_of_ne hpp, and_self]
  · rcases hp with hp | hp
    · exact hp.remove.imp_right fun hin => by omega
    · exact .inr (by omega)

lemma shrinkBreak_spec (h : S.Shows m V) (hV : S.Pages V use ps) (hr : r ∈ ps) :
    ∃ V' use' ps', S.Shows (S.setHdr (S.shrinkBreak m S.pt r) 3 r) V' ∧ S.Pages V' use' ps' ∧
      S.HintFree V' ps' ∧ Freed x V use V' use' ∧ (∀ p, Spare V ps p → Spare V' ps' p) ∧
      (S.Counted m V ps → ¬ (7 < V.count r ∧ r + V.count r = V.limit) →
        S.Counted (S.setHdr (S.shrinkBreak m S.pt r) 3 r) V' ps' ∧ HintOk V' ps') := by
  have hpc := S.pageCount_le
  have hrm := mem_cons_of_mem 0 hr
  have hrl := hV.lt_of_mem hrm
  have hend := hV.run_end hr
  have hbrk := hV.brk_lt
  rw [shrinkBreak, h.count r hrl, u32_of_lt (by omega), h.limit]
  split_ifs with hcond
  · have hbound := hV.used r (hV.run_ne_none hr)
    have hs : S.size < 2147483648 := hV.signed.resolve_left (by omega)
    have hp := hV.prev_lt hrm
    have hn := hV.next_lt hrm
    have h₁ := shrink_shows h hV hr rfl hcond.2.1.symm hs
    have h₂ := h₁.setNext (v := V.next r) hp (by omega)
    have h₃ := h₂.setPrev (v := V.prev r) hn (by omega)
    have hn₂ := h₂.next r hrl
    simp only [update_of_ne (hV.prev_ne hr).symm] at hn₂
    obtain ⟨use', ps', hV', hh', hf, hsp⟩ := shrink_freed (x := x) hV hr hcond.2.1.symm
    refine ⟨_, use', ps', ?_, hV', hh', hf, hsp, fun _ hno => absurd ⟨hcond.1, hcond.2.1⟩ hno⟩
    simp only [h₁.next r hrl, h₁.prev r hrl, hn₂, h₂.prev r hrl]
    exact ((h₃.subHdr (by omega) 1).subHdr (by omega) _).setHint (by omega)
  · refine ⟨_, use, ps, h.setHint (by omega), hV.change rfl rfl (fun _ => id) hV.ring hV.nodup
      hV.short hV.zero hV.runs, .inl hrm, ⟨rfl, rfl, rfl, le_rfl, fun _ _ _ _ => ⟨rfl, rfl, rfl⟩,
      fun _ _ hp => hp⟩, fun _ hp => hp, fun hc _ => ⟨⟨hc.runs, ?_, ?_⟩, hrm⟩⟩
    · rw [hdr_setHdr (by omega) (by omega), if_neg (by omega), hc.length]
    · rw [hdr_setHdr (by omega) (by omega), if_neg (by omega), hc.bytes]

/-! ### The whole release -/

lemma Pages.curSearch_one (hV : S.Pages V use [r]) (h : S.Shows m V) (hh : HintOk V [r])
    (hx : V.hint ≤ x) (hxr : x ≠ r) : S.curSearch m S.pt x = some (if x < r then r else 0) := by
  obtain ⟨hn0, -, hnr, -⟩ := hV.ring
  have hr0 := hV.ne_zero mem_cons_self
  have h0l := hV.lt_of_mem mem_cons_self
  have hrl := hV.lt_of_mem (mem_cons_of_mem 0 mem_cons_self)
  have hup : ∀ k, walkUp m S.pt x (k + 1) r = some 0 := by
    intro k
    rw [walkUp, h.next r hrl, hnr]
    exact if_pos rfl
  rw [curSearch, h.hint, if_pos hx]
  simp only [HintOk, mem_cons, not_mem_nil, or_false] at hh
  rcases hh with h0 | hr
  · rw [h0, show loopFuel = 4294967295 + 1 + 1 from rfl, walkUp, h.next 0 h0l, hn0]
    by_cases hlt : x < r
    · simp only [if_neg hr0, if_neg (show ¬ x > r by omega), if_pos hlt]
    · simp only [if_neg hr0, if_pos (show x > r by omega), if_neg hlt, hup]
  · rw [hr, show loopFuel = 4294967296 + 1 from rfl, hup, if_neg (by omega)]

/-- A release makes the pages from `x` on spare. It keeps the free runs counted if it comes to their
place from below and leaves the break. -/
structure GaveRuns (S : Smm) (m : Mem) (V : Arena) (ps : List ℕ) (x pages : ℕ) (m' : Mem)
    (V' : Arena) (ps' : List ℕ) : Prop where
  spare : ∀ p, Spare V ps p ∨ x ≤ p ∧ p < x + pages → Spare V' ps' p
  counted : S.Counted m V ps → HintOk V ps → V.hint ≤ x →
    ¬ (7 < (joinedRun (V.next 0) (V.count (V.next 0)) x pages).2 ∧
      (joinedRun (V.next 0) (V.count (V.next 0)) x pages).1 +
        (joinedRun (V.next 0) (V.count (V.next 0)) x pages).2 = V.limit) →
    S.Counted m' V' ps' ∧ HintOk V' ps'

lemma freePages_spec (h : S.Shows m V) (hV : S.Pages V use ps) (hh : S.HintFree V ps)
    (hb : BigAt use x pages) (hone : V.next 0 = V.prev 0) :
    ∃ m' V' use' ps', S.freePages m S.pt x pages = some m' ∧ S.Shows m' V' ∧
      S.Pages V' use' ps' ∧ S.HintFree V' ps' ∧ Freed x V use V' use' ∧
      S.GaveRuns m V ps x pages m' V' ps' := by
  have h₁ := (h.subHdr (i := 42) (by omega) (4096 * pages)).addHdr (i := 44) (by omega)
    (4096 * pages)
  have hbound := hb.bounds hV
  have hpos := hb.1
  obtain ⟨cur, hcur, hc⟩ := curSearch_spec (x := x) h₁ hV hh (by omega)
  obtain ⟨m₂, r, V₃, use₃, ps₃, hm₂, hj⟩ := joinRun_spec h₁ hb hV hone hcur
  obtain ⟨V₄, use₄, ps₄, h₄, hV₄, hh₄, hf₄, hsp, hct⟩ :=
    shrinkBreak_spec (x := x) hj.shows hj.ok hj.mem
  refine ⟨_, V₄, use₄, ps₄, ?_, h₄, hV₄, hh₄, hj.freed.trans hf₄, fun p hp => hsp p ?_,
    fun hcount hhint hle hno => ?_⟩
  · simp only [freePages, hc, map_some, h₁.next cur (hV.lt_of_mem hcur), hm₂]
  · rw [Spare, hj.brk]
    rcases hp with (hp | hp) | hp
    · exact .inl (hj.runs p (.inl hp))
    · exact .inr hp
    · exact .inl (hj.runs p (.inr hp))
  · have hplace : ∀ a ∈ ps, cur = if x < a then a else 0 := by
      intro a ha
      rcases hV.single hone with rfl | ⟨b, rfl⟩
      · cases ha
      · obtain rfl := mem_singleton.mp ha
        have hxa : x ≠ a := by
          rintro rfl
          exact hb.notMem hV (mem_cons_of_mem 0 ha)
        exact Option.some.inj (hc.symm.trans (hV.curSearch_one h₁ hhint hle hxa))
    obtain ⟨hct₃, hjoin⟩ := hj.counted hplace hcount.runs
      (by simp (disch := omega) only [subHdr, addHdr, hdr_setHdr]; simpa using hcount.length)
      (by simp (disch := omega) only [subHdr, addHdr, hdr_setHdr]
          simp [hcount.bytes, Nat.mul_add])
    refine hct hct₃ ?_
    rw [hj.limit]
    rw [← hjoin] at hno
    exact hno

end Smm

end CpuComm
