import H713.CpuComm.Smm.View
import H713.Machine.Ring
import H713.Machine.Runs

/-!
# The pages of the heap

What each page between the page table and the break is used for, and how the allocator takes pages:
from a free run that its search finds, or from the break. The free runs form a ring through entry
`0` of the page table.
-/

namespace CpuComm

open Machine Function List Option

/-- The use of a page. A run and a block of whole pages are named by their first page. -/
inductive Use
  | none
  | run (first : ℕ)
  | big (first : ℕ)
  | cut (sizeClass : ℕ)
deriving DecidableEq

namespace Arena

variable (V : Arena)

/-- Entry `x` marks a block of `n` pages. -/
def take (x n : ℕ) : Arena :=
  { V with count := update V.count x 0, next := update V.next x n }

/-- Run `c` is out of the ring. -/
def unlink (c : ℕ) : Arena :=
  { V with
    next := update V.next (V.prev c) (V.next c)
    prev := update V.prev (V.next c) (V.prev c) }

/-- The pages of run `c` behind its first `n` are a run in its place. -/
def split (c n : ℕ) : Arena :=
  { V with
    hint := c + n
    count := update V.count (c + n) (V.count c - n)
    next := update (update V.next (c + n) (V.next c)) (V.prev c) (c + n)
    prev := update (update V.prev (c + n) (V.prev c)) (V.next c) (c + n) }

/-- The break is `n` pages higher. -/
def raise (n : ℕ) : Arena :=
  { V with brk := V.brk + 4096 * n, limit := (V.brk + 4096 * n) / 4096 }

end Arena

/-- The `n` pages from page `a` on have use `u`. -/
def relabel (use : ℕ → Use) (a n : ℕ) (u : Use) (p : ℕ) : Use :=
  if a ≤ p ∧ p < a + n then u else use p

namespace Smm

/-- The free runs `ps`, and the uses of the pages, as the page table has them. -/
structure Pages (S : Smm) (V : Arena) (use : ℕ → Use) (ps : List ℕ) : Prop where
  brk_mod : V.brk % 4096 = 0
  brk_ge : S.dataStart ≤ V.brk
  brk_le : V.brk ≤ S.size
  brk_lt : V.brk < 2147483648
  signed : V.brk = S.dataStart ∨ S.size < 2147483648
  limit : V.limit = V.brk / 4096 ∨ V.limit = 0 ∧ V.brk = S.dataStart
  used : ∀ p, use p ≠ .none → S.dataStart ≤ 4096 * p ∧ 4096 * p < V.brk
  ring : Linked V.next V.prev 0 ps 0
  nodup : (0 :: ps).Nodup
  short : ps.length ≤ 2
  zero : V.count 0 = 0
  runs : ∀ h ∈ ps, 0 < V.count h ∧ ∀ k < V.count h, use (h + k) = .run h

def HintOk (V : Arena) (ps : List ℕ) : Prop := V.hint ∈ 0 :: ps

variable {S : Smm} {m : Mem} {V : Arena} {use : ℕ → Use} {u : Use} {ps : List ℕ}
  {a n p r x pages : ℕ}

lemma relabel_in (h : a ≤ p ∧ p < a + n) : relabel use a n u p = u := if_pos h

lemma relabel_out (h : ¬ (a ≤ p ∧ p < a + n)) : relabel use a n u p = use p := if_neg h

lemma ne_none_of_relabel (hin : ∀ p, a ≤ p → p < a + n → use p ≠ .none)
    (hp : relabel use a n u p ≠ .none) : use p ≠ .none := by
  by_cases h : a ≤ p ∧ p < a + n
  · exact hin p h.1 h.2
  · rwa [relabel_out h] at hp

lemma cut_of_relabel {i : ℕ} (hp : relabel use a n u p = .cut i) (hu : u ≠ .cut i) :
    use p = .cut i := by
  by_cases h : a ≤ p ∧ p < a + n
  · exact absurd ((relabel_in h).symm.trans hp) hu
  · rwa [relabel_out h] at hp

namespace Pages

lemma lt_pageCount (h : S.Pages V use ps) (hp : use p ≠ .none) : p < S.pageCount := by
  have := (h.used p hp).2
  have := h.brk_le
  have := S.pageCount_eq
  omega

lemma run_self (h : S.Pages V use ps) (hp : p ∈ ps) : use p = .run p := by
  obtain ⟨hpos, hall⟩ := h.runs p hp
  exact hall 0 hpos

lemma run_ne_none (h : S.Pages V use ps) (hp : p ∈ ps) : use p ≠ .none := by
  rw [h.run_self hp]
  nofun

lemma pageCount_pos (S : Smm) : 0 < S.pageCount := by
  have := S.pt_le_dataStart
  have := S.dataStart_le
  have := S.pageCount_eq
  omega

lemma lt_of_mem (h : S.Pages V use ps) (hp : p ∈ 0 :: ps) : p < S.pageCount := by
  rcases mem_cons.mp hp with rfl | hp
  · exact pageCount_pos S
  · exact h.lt_pageCount (h.run_ne_none hp)

lemma run_end (h : S.Pages V use ps) (hp : p ∈ ps) : 4096 * (p + V.count p) ≤ V.brk := by
  obtain ⟨hpos, hall⟩ := h.runs p hp
  have hlast := hall (V.count p - 1) (by omega)
  have hu := (h.used (p + (V.count p - 1)) (by rw [hlast]; nofun)).2
  have := h.brk_mod
  omega

lemma next_mem (h : S.Pages V use ps) (hp : p ∈ 0 :: ps) : V.next p ∈ 0 :: ps := by
  have := h.ring.next_mem hp
  simp only [mem_append, mem_singleton] at this
  exact mem_cons.mpr this.symm

lemma prev_mem (h : S.Pages V use ps) (hp : p ∈ 0 :: ps) : V.prev p ∈ 0 :: ps := by
  refine h.ring.prev_mem ?_
  simp only [mem_append, mem_singleton]
  exact (mem_cons.mp hp).symm

lemma next_lt (h : S.Pages V use ps) (hp : p ∈ 0 :: ps) : V.next p < S.pageCount :=
  h.lt_of_mem (h.next_mem hp)

lemma prev_lt (h : S.Pages V use ps) (hp : p ∈ 0 :: ps) : V.prev p < S.pageCount :=
  h.lt_of_mem (h.prev_mem hp)

lemma nodup' (h : S.Pages V use ps) : (ps ++ [0]).Nodup :=
  (perm_append_singleton 0 ps).nodup_iff.mpr h.nodup

lemma change {V' : Arena} {use' : ℕ → Use} {ps' : List ℕ} (h : S.Pages V use ps)
    (hbrk : V'.brk = V.brk) (hlimit : V'.limit = V.limit)
    (hused : ∀ p, use' p ≠ .none → use p ≠ .none) (hring : Linked V'.next V'.prev 0 ps' 0)
    (hnd : (0 :: ps').Nodup) (hlen : ps'.length ≤ 2) (hzero : V'.count 0 = 0)
    (hruns : ∀ r ∈ ps', 0 < V'.count r ∧ ∀ k < V'.count r, use' (r + k) = .run r) :
    S.Pages V' use' ps' := by
  refine ⟨?_, ?_, ?_, ?_, ?_, ?_, fun p hp => ?_, hring, hnd, hlen, hzero, hruns⟩
  all_goals rw [hbrk]
  exacts [h.brk_mod, h.brk_ge, h.brk_le, h.brk_lt, h.signed, hlimit ▸ h.limit,
    h.used p (hused p hp)]

lemma run_relabel (h : S.Pages V use ps) (hr : r ∈ ps)
    (hout : ∀ k < V.count r, ¬ (a ≤ r + k ∧ r + k < a + n)) :
    0 < V.count r ∧ ∀ k < V.count r, relabel use a n u (r + k) = .run r :=
  ⟨(h.runs r hr).1, fun k hk => (relabel_out (hout k hk)).trans ((h.runs r hr).2 k hk)⟩

end Pages

/-! ### The break -/

lemma oldBreak_eq (S : Smm) {a b : ℕ} (hb : b ≤ S.size) (hab : a ≤ b) :
    (if u32 (S.toPhy S.heap + b) ≠ a then sub32 (S.toVir (u32 (S.toPhy S.heap + b))) a else 0) =
      S.heap + b - a := by
  have hbase := S.base_le
  have haddr := S.addr_pos
  have hvir := S.vir_lt
  have hphy := S.phy_lt
  have hsum : u32 (S.toPhy S.heap + b) = S.toPhy (S.heap + b) := by
    rw [S.toPhy_eq le_rfl (by omega), S.toPhy_eq (by omega) (by omega), u32_of_lt (by omega)]
    omega
  have hne : S.toPhy (S.heap + b) ≠ a := by
    rw [S.toPhy_eq (by omega) (by omega)]
    omega
  rw [hsum, if_pos hne, S.toVir_toPhy (by omega) (by omega), sub32_of_le (by omega) (by omega)]

lemma shmallocBrk_zero (h : S.Shows m V) (hb : V.brk ≤ S.size) :
    S.shmallocBrk m 0 = (m, S.heap + V.brk) := by
  have hold := S.oldBreak_eq hb (Nat.zero_le _)
  rw [shmallocBrk, if_neg (by simp)]
  simp only [ne_eq, not_true_eq_false, if_false, h.phy, h.brk]
  rw [hold, Nat.sub_zero]

lemma shmallocBrk_up {a : ℕ} (h : S.Shows m V) (ha : 0 < a) (hlt : V.brk + a < 2147483648) :
    S.shmallocBrk m a = (m, 0) ∨
      S.shmallocBrk m a = (S.setHdr m 45 (V.brk + a), S.heap + V.brk) ∧ V.brk + a ≤ S.size ∧
        S.size < 2147483648 := by
  have hvir := S.vir_lt
  have hnew : u32 (a + S.hdr m 45) = V.brk + a := by
    rw [h.brk, u32_of_lt (by omega)]
    omega
  by_cases hgt : i32 (V.brk + a) > i32 S.size
  · refine .inl ?_
    rw [shmallocBrk, hnew, h.size]
    exact if_pos ⟨by omega, hgt⟩
  · have hsize : V.brk + a ≤ S.size ∧ S.size < 2147483648 := by
      rw [i32_of_lt hlt] at hgt
      by_cases hs : S.size < 2147483648
      · rw [i32_of_lt hs] at hgt
        omega
      · rw [i32_of_ge (by omega) (by omega)] at hgt
        omega
    refine .inr ⟨?_, hsize⟩
    have h' := h.setBrk (v := V.brk + a) (by omega)
    have hold := S.oldBreak_eq hsize.1 (Nat.le_add_left a V.brk)
    rw [shmallocBrk, hnew, h.size, if_neg (by tauto)]
    simp only [if_pos (show a ≠ 0 by omega), h'.phy, h'.brk]
    rw [hold]
    congr 1
    omega

lemma morecore_spec (h : S.Shows m V) (hV : S.Pages V use ps) (hpos : 0 < pages)
    (hlt : V.brk + 4096 * pages < 2147483648) :
    S.morecore m (4096 * pages) = (m, 0) ∨
      S.morecore m (4096 * pages) = (S.setHdr (S.setHdr m 45 (V.brk + 4096 * pages)) 4
          ((V.brk + 4096 * pages) / 4096), S.heap + V.brk) ∧
        S.Shows (S.setHdr (S.setHdr m 45 (V.brk + 4096 * pages)) 4 ((V.brk + 4096 * pages) / 4096))
          { V with brk := V.brk + 4096 * pages, limit := (V.brk + 4096 * pages) / 4096 } ∧
        V.brk + 4096 * pages ≤ S.size ∧ S.size < 2147483648 := by
  have hal := S.aligned
  have := S.vir_lt
  have := hV.brk_mod
  have := hV.brk_ge
  have := S.pt_le_dataStart
  have hpc := S.pageCount_eq
  rcases shmallocBrk_up h (a := 4096 * pages) (by omega) hlt with hb | ⟨hb, hle, hs⟩
  · refine .inl ?_
    simp only [morecore, hb]
    rfl
  · refine .inr ?_
    have h' := h.setBrk (v := V.brk + 4096 * pages) (by omega)
    have hneed : S.neededPages (S.setHdr m 45 (V.brk + 4096 * pages))
        (u32 (S.heap + V.brk + 4096 * pages)) = ((V.brk + 4096 * pages) / 4096 : ℕ) := by
      have hsub : sub32 (u32 (S.heap + V.brk + 4096 * pages)) S.pt =
          V.brk + 4096 * pages - 4096 := by
        rw [u32_of_lt (by omega), sub32_of_le (by simp only [pt]; omega) (by omega)]
        simp only [pt]
        omega
      rw [neededPages, h'.dataBase_eq, hsub, i32_of_lt (by omega)]
      rw [show ((V.brk + 4096 * pages - 4096 : ℕ) : ℤ).tdiv 4096 =
        ((V.brk + 4096 * pages - 4096) / 4096 : ℕ) from rfl]
      omega
    have hmod : ¬ (S.heap + V.brk) % 4096 ≠ 0 := by omega
    have hnn : ¬ (((V.brk + 4096 * pages) / 4096 : ℕ) : ℤ) > i32 S.pageCount := by
      rw [i32_of_lt (by omega)]
      omega
    have hof : ofInt32 (((V.brk + 4096 * pages) / 4096 : ℕ) : ℤ) =
        (V.brk + 4096 * pages) / 4096 := by
      simp only [ofInt32]
      omega
    refine ⟨?_, h'.setLimit (by omega), hle, hs⟩
    simp only [morecore, hb, if_neg hmod, morecoreAt, hneed, h'.pages, if_neg hnn, hof]
    rw [if_neg (by omega)]

/-! ### The search for a free run -/

lemma pageOf_eq (h : S.Shows m V) (hp : p < S.pageCount) : S.pageOf m p = S.heap + 4096 * p := by
  have hvir := S.vir_lt
  have hpc := S.pageCount_eq
  simp only [pageOf, h.dataBase_eq, pt, sub32, u32]
  omega

lemma pageIndex_eq (h : S.Shows m V) (hp : 0 < p) (hlt : 4096 * p < 2147483648)
    (hle : 4096 * p ≤ S.size) : S.pageIndex m (S.heap + 4096 * p) = p := by
  have hvir := S.vir_lt
  have hsub : sub32 (S.heap + 4096 * p) S.pt = 4096 * (p - 1) := by
    rw [sub32_of_le (by simp only [pt]; omega) (by omega)]
    simp only [pt]
    omega
  rw [pageIndex, h.dataBase_eq, hsub, i32_of_lt (by omega)]
  rw [show ((4096 * (p - 1) : ℕ) : ℤ).tdiv 4096 = ((4096 * (p - 1) / 4096 : ℕ) : ℤ) from rfl]
  simp only [ofInt32]
  omega

lemma runSearch_linked {cur start n : ℕ} {l : List ℕ} (h : S.Shows m V)
    (hl : Linked V.next V.prev cur l start) (hs : start ∉ l)
    (hlt : ∀ y ∈ cur :: l, y < S.pageCount) (hn : l.length < n) :
    ∃ r, runSearch m S.pt pages start n cur = some r ∧
      ∀ c, r = some c → c ∈ cur :: l ∧ pages ≤ V.count c := by
  induction n generalizing cur l with
  | zero => exact absurd hn (Nat.not_lt_zero _)
  | succ n ih =>
    have hcur := hlt cur mem_cons_self
    rw [runSearch, h.count cur hcur, h.next cur hcur]
    by_cases hc : pages ≤ V.count cur
    · refine ⟨some cur, if_pos hc, ?_⟩
      rintro _ ⟨⟩
      exact ⟨mem_cons_self, hc⟩
    rw [if_neg hc]
    cases l with
    | nil => exact ⟨none, if_pos hl.1, nofun⟩
    | cons w l =>
      rw [mem_cons, not_or] at hs
      obtain ⟨r, hr, hrc⟩ := ih hl.2.2 hs.2 (fun y hy => hlt y (mem_cons_of_mem cur hy))
        (by simpa using hn)
      rw [hl.1, if_neg (Ne.symm hs.1)]
      exact ⟨r, hr, fun c hc => (hrc c hc).imp_left (mem_cons_of_mem cur)⟩

lemma Pages.rotate {start : ℕ} (hV : S.Pages V use ps) (hs : start ∈ 0 :: ps) :
    ∃ l, Linked V.next V.prev start l start ∧ start ∉ l ∧ (start :: l).Perm (0 :: ps) := by
  rcases mem_cons.mp hs with rfl | hs
  · exact ⟨ps, hV.ring, (nodup_cons.mp hV.nodup).1, List.Perm.refl _⟩
  · obtain ⟨l₁, l₂, rfl⟩ := append_of_mem hs
    obtain ⟨h₁, h₂⟩ := Linked.append_cons.mp hV.ring
    have hperm : (start :: l₂ ++ 0 :: l₁).Perm (0 :: l₁ ++ start :: l₂) := perm_append_comm
    refine ⟨l₂ ++ 0 :: l₁, Linked.append_cons.mpr ⟨h₂, h₁⟩, ?_, hperm⟩
    exact (nodup_cons.mp (hperm.nodup_iff.mpr hV.nodup)).1

lemma runSearch_spec (h : S.Shows m V) (hV : S.Pages V use ps) (hh : HintOk V ps) :
    ∃ r, runSearch m S.pt pages V.hint loopFuel V.hint = some r ∧
      ∀ c, r = some c → c ∈ 0 :: ps ∧ pages ≤ V.count c := by
  obtain ⟨l, hl, hs, hperm⟩ := hV.rotate hh
  have hlen : l.length < loopFuel := by
    have := hperm.length_eq
    have := hV.short
    simp only [length_cons, loopFuel] at *
    omega
  obtain ⟨r, hr, hrc⟩ := runSearch_linked h hl hs
    (fun y hy => hV.lt_of_mem (hperm.mem_iff.mp hy)) hlen
  exact ⟨r, hr, fun c hc => ⟨hperm.mem_iff.mp (hrc c hc).1, (hrc c hc).2⟩⟩

lemma extendLast_eq (h : S.Shows m V) (hV : S.Pages V use ps) :
    S.extendLast m S.pt pages = (m, false) := by
  have hlast : V.prev 0 ∈ 0 :: ps := hV.prev_mem mem_cons_self
  have hlt := hV.lt_of_mem hlast
  rw [extendLast, h.prev 0 (Pages.pageCount_pos S), h.count _ hlt, h.limit]
  by_cases hlim : V.limit = 0 ∨ V.limit ≠ u32 (V.prev 0 + V.count (V.prev 0))
  · exact if_pos hlim
  · rw [if_neg hlim, shmallocBrk_zero h hV.brk_le, pageOf_eq h hlt, if_pos]
    rw [not_or, not_not] at hlim
    rcases mem_cons.mp hlast with h0 | hmem
    · rw [h0, hV.zero] at hlim
      exact absurd hlim.2 hlim.1
    · have hpos := (hV.runs _ hmem).1
      have hend := hV.run_end hmem
      have hbrk := hV.brk_lt
      have hmod := hV.brk_mod
      rw [u32_of_lt (by omega)] at hlim
      rcases hV.limit with hl | hl
      · intro e
        have : V.brk = 4096 * V.prev 0 := by simpa using e
        omega
      · exact absurd hl.1 hlim.1

lemma pageSearch_spec (h : S.Shows m V) (hV : S.Pages V use ps) (hh : HintOk V ps)
    (hpos : 0 < pages) :
    S.pageSearch S.pt pages V.hint loopFuel m V.hint = some (m, none) ∨
      ∃ c ∈ ps, pages ≤ V.count c ∧
        S.pageSearch S.pt pages V.hint loopFuel m V.hint = some (m, some c) := by
  obtain ⟨r, hr, hrc⟩ := runSearch_spec h hV hh
  rw [show loopFuel = 4294967296 + 1 from rfl, pageSearch, hr]
  cases r with
  | none =>
    refine .inl ?_
    simp only [bind_some, extendLast_eq h hV]
    rfl
  | some c =>
    obtain ⟨hc, hcount⟩ := hrc c rfl
    rcases mem_cons.mp hc with rfl | hc
    · rw [hV.zero] at hcount
      omega
    · exact .inr ⟨c, hc, hcount, rfl⟩

/-! ### Taking pages -/

/-- The pages from `x` on have been taken. The other blocks and their page table entries are as they
were. -/
structure Took (S : Smm) (V : Arena) (use : ℕ → Use) (x pages : ℕ) (V' : Arena)
    (use' : ℕ → Use) (ps' : List ℕ) : Prop where
  ok : S.Pages V' use' ps'
  hint : HintOk V' ps'
  heads : V'.heads = V.heads
  cuts : V'.cuts = V.cuts
  word : V'.word = V.word
  brk_le : V.brk ≤ V'.brk
  fresh : ∀ k < pages, use (x + k) = .none ∨ ∃ h, use (x + k) = .run h
  big : ∀ k < pages, use' (x + k) = .big x
  count : V'.count x = 0
  next : V'.next x = pages
  kept : ∀ p, (∀ h, use p ≠ .run h) → use p ≠ .none →
    use' p = use p ∧ V'.count p = V.count p ∧ V'.next p = V.next p
  cut : ∀ p i, use' p = .cut i → use p = .cut i

/-- The free runs are in ascending order, not adjacent, and counted in the header. -/
structure Counted (S : Smm) (m : Mem) (V : Arena) (ps : List ℕ) : Prop where
  runs : Ascending V.count (S.dataStart / 4096) (V.brk / 4096) ps
  length : S.hdr m 43 = ps.length
  bytes : S.hdr m 44 = 4096 * (ps.map V.count).sum

/-- Page `p` is in a free run or above the break. -/
def Spare (V : Arena) (ps : List ℕ) (p : ℕ) : Prop := InRuns V.count ps p ∨ V.brk ≤ 4096 * p

/-- A request for the pages from `x` on keeps the free runs counted, and takes no other page. -/
structure CutRuns (S : Smm) (m : Mem) (V : Arena) (ps : List ℕ) (x pages : ℕ) (m' : Mem)
    (V' : Arena) (ps' : List ℕ) : Prop where
  counted : S.Counted m V ps → S.Counted m' V' ps'
  spare : ∀ p, Spare V ps p → Spare V' ps' p ∨ x ≤ p ∧ p < x + pages

variable {c : ℕ} {m' : Mem} {l₁ l₂ : List ℕ}

namespace Pages

lemma bytes_le (hV : S.Pages V use ps)
    (h : Ascending V.count (S.dataStart / 4096) (V.brk / 4096) ps) :
    4096 * (ps.map V.count).sum ≤ V.brk := by
  have := hV.brk_ge
  have := h.sum_le (by omega)
  omega

lemma next_ne (h : S.Pages V use ps) (hc : c ∈ ps) : V.next c ≠ c := by
  obtain ⟨l₁, l₂, rfl⟩ := append_of_mem hc
  intro e
  have hmem := (Linked.append_cons.mp h.ring).2.next_mem mem_cons_self
  rw [e] at hmem
  have hnd := h.nodup'
  rw [append_assoc, cons_append] at hnd
  exact (nodup_cons.mp (nodup_append.mp hnd).2.1).1 hmem

lemma prev_ne (h : S.Pages V use ps) (hc : c ∈ ps) : V.prev c ≠ c := by
  obtain ⟨l₁, l₂, rfl⟩ := append_of_mem hc
  intro e
  have hmem := (Linked.append_cons.mp h.ring).1.prev_mem (x := c) (by simp)
  rw [e] at hmem
  have hnd : ((0 :: l₁) ++ c :: l₂).Nodup := h.nodup
  exact (nodup_append.mp hnd).2.2 c hmem c mem_cons_self rfl

lemma ne_zero (h : S.Pages V use ps) (hc : c ∈ ps) : c ≠ 0 := by
  rintro rfl
  exact (nodup_cons.mp h.nodup).1 hc

end Pages

lemma u32_sub32 (a b : ℕ) : u32 (sub32 a b) = sub32 a b := u32_of_lt (u32_lt _)

lemma consumeRun_spec (h : S.Shows m V) (hV : S.Pages V use ps) (hc : c ∈ ps) :
    S.Shows (S.consumeRun m S.pt c) { V.unlink c with hint := V.next c } ∧
      S.hdr (S.consumeRun m S.pt c) 43 = sub32 (S.hdr m 43) 1 ∧
      S.hdr (S.consumeRun m S.pt c) 44 = S.hdr m 44 := by
  have hpc := S.pageCount_le
  have hcm := mem_cons_of_mem 0 hc
  have hcl := hV.lt_of_mem hcm
  have hn := hV.next_lt hcm
  have hp := hV.prev_lt hcm
  have h₁ := h.setPrev (v := V.prev c) hn (by omega)
  have h₂ := h₁.setNext (v := V.next c) hp (by omega)
  have hp₁ := h₁.prev c hcl
  have hn₂ := h₂.next c hcl
  simp only [update_of_ne (hV.next_ne hc).symm] at hp₁
  simp only [update_of_ne (hV.prev_ne hc).symm] at hn₂
  simp only [consumeRun, h.next c hcl, h.prev c hcl, hp₁, h₁.next c hcl, hn₂]
  refine ⟨(h₂.setHint (by omega)).subHdr (by omega) 1, ?_⟩
  simp (disch := omega) only [Smm.subHdr, hdr_setHdr, hdr_setPte, u32_sub32]
  simp

lemma Pages.run_disjoint (hV : S.Pages V use ps) {h k : ℕ} (hc : c ∈ ps) (hh : h ∈ ps)
    (hne : h ≠ c) (hk : k < V.count h) : ¬ (c ≤ h + k ∧ h + k < c + V.count c) := by
  rintro ⟨hle, hlt⟩
  have h₁ := (hV.runs h hh).2 k hk
  have h₂ := (hV.runs c hc).2 (h + k - c) (by omega)
  rw [show c + (h + k - c) = h + k by omega, h₁] at h₂
  exact hne (Use.run.inj h₂)

lemma Pages.run_use (hV : S.Pages V use ps) (hc : c ∈ ps) (hle : c ≤ p)
    (hlt : p < c + V.count c) : use p = .run c := by
  have := (hV.runs c hc).2 (p - c) (by omega)
  rwa [show c + (p - c) = p by omega] at this

lemma Pages.run_used (hV : S.Pages V use ps) (hc : c ∈ ps) (hle : c ≤ p)
    (hlt : p < c + V.count c) : use p ≠ .none := by
  rw [hV.run_use hc hle hlt]
  nofun

lemma Pages.split_notMem (hV : S.Pages V use ps) (hc : c ∈ ps) (hpos : 0 < pages)
    (hlt : pages < V.count c) : c + pages ∉ 0 :: ps ∧ c + pages < S.pageCount := by
  have huse := hV.run_use hc (Nat.le_add_right c pages) (by omega)
  refine ⟨fun hm => ?_, hV.lt_pageCount (by rw [huse]; nofun)⟩
  rcases mem_cons.mp hm with h0 | hm
  · exact hV.ne_zero hc (by omega)
  · rw [hV.run_self hm] at huse
    have := Use.run.inj huse
    omega

lemma splitRun_spec (h : S.Shows m V) (hV : S.Pages V use ps) (hc : c ∈ ps) (hpos : 0 < pages)
    (hlt : pages < V.count c) :
    S.Shows (S.splitRun m S.pt c pages (V.count c)) (V.split c pages) ∧
      S.hdr (S.splitRun m S.pt c pages (V.count c)) 43 = S.hdr m 43 ∧
      S.hdr (S.splitRun m S.pt c pages (V.count c)) 44 = S.hdr m 44 := by
  obtain ⟨hs, hsl⟩ := hV.split_notMem hc hpos hlt
  have hpc := S.pageCount_le
  have hend := hV.run_end hc
  have hbrk := hV.brk_lt
  have hcm := mem_cons_of_mem 0 hc
  have hcl := hV.lt_of_mem hcm
  have hn := hV.next_lt hcm
  have hp := hV.prev_lt hcm
  have hcs : c ≠ c + pages := by omega
  have h₁ := h.setCount (v := V.count c - pages) hsl (by omega)
  have h₂ := h₁.setNext (v := V.next c) hsl (by omega)
  have h₃ := h₂.setPrev (v := V.prev c) hsl (by omega)
  have h₄ := h₃.setHint (v := c + pages) (by omega)
  have h₅ := h₄.setPrev (v := c + pages) hn (by omega)
  have hn₄ := h₄.next c hcl
  have hp₅ := h₅.prev c hcl
  simp only [update_of_ne hcs] at hn₄
  simp only [update_of_ne (hV.next_ne hc).symm, update_of_ne hcs] at hp₅
  have hsum : u32 (c + pages) = c + pages := u32_of_lt (by omega)
  have hsub : sub32 (V.count c) pages = V.count c - pages := sub32_of_le hlt.le (by omega)
  simp only [splitRun, hsum, hsub, h₁.next c hcl, h₂.prev c hcl, hn₄, hp₅]
  refine ⟨h₅.setNext hp (by omega), ?_⟩
  simp (disch := omega) only [hdr_setHdr, hdr_setPte]
  simp

lemma takeEntry_spec {m₁ : Mem} (h : S.Shows m V) (hc : c < S.pageCount) (hp : n < 4294967296)
    (hm : m₁ = S.subHdr (S.addHdr (S.addHdr ((m.setPte S.pt c 0 0).setPte S.pt c 1 n) 41 1) 42
      (4096 * n)) 44 (4096 * n)) :
    S.Shows m₁ (V.take c n) ∧ S.hdr m₁ 43 = S.hdr m 43 ∧
      S.hdr m₁ 44 = sub32 (S.hdr m 44) (4096 * n) := by
  have h₁ := (h.setCount (v := 0) hc (by omega)).setNext (v := n) hc hp
  subst hm
  refine ⟨((h₁.addHdr (by omega) 1).addHdr (by omega) _).subHdr (by omega) _, ?_⟩
  simp (disch := omega) only [Smm.subHdr, Smm.addHdr, hdr_setHdr, hdr_setPte, u32_sub32]
  simp

lemma Pages.notMem_ring (hV : S.Pages V use ps) (hrun : ∀ h, use p ≠ .run h)
    (hnone : use p ≠ .none) : p ∉ 0 :: ps := by
  intro hp
  rcases mem_cons.mp hp with rfl | hm
  · have := (hV.used 0 hnone).1
    have := S.pt_le_dataStart
    omega
  · exact hrun _ (hV.run_self hm)

lemma Pages.notMem_rest (hV : S.Pages V use (l₁ ++ c :: l₂)) : c ∉ 0 :: (l₁ ++ l₂) := by
  have hnd := hV.nodup
  have hc0 := hV.ne_zero (mem_append_right l₁ mem_cons_self)
  rw [nodup_cons, nodup_middle, nodup_cons] at hnd
  rw [mem_cons, not_or]
  exact ⟨hc0, hnd.2.1⟩

lemma Pages.mem_rest (hV : S.Pages V use (l₁ ++ c :: l₂)) {h : ℕ} :
    h ∈ l₁ ++ l₂ ↔ h ∈ l₁ ++ c :: l₂ ∧ h ≠ c := by
  have hcl : h = c → h ∉ l₁ ++ l₂ := by
    rintro rfl hm
    exact hV.notMem_rest (mem_cons_of_mem 0 hm)
  simp only [mem_append, mem_cons] at hcl ⊢
  tauto

lemma Pages.unlink (hV : S.Pages V use (l₁ ++ c :: l₂)) :
    Linked (V.unlink c).next (V.unlink c).prev 0 (l₁ ++ l₂) 0 ∧ (0 :: (l₁ ++ l₂)).Nodup ∧
      (l₁ ++ l₂).length ≤ 2 := by
  have hsub : (0 :: (l₁ ++ l₂)).Sublist (0 :: (l₁ ++ c :: l₂)) :=
    ((List.Sublist.refl l₁).append (sublist_cons_self c l₂)).cons_cons 0
  refine ⟨hV.ring.remove hV.nodup hV.nodup', hsub.nodup hV.nodup, ?_⟩
  have := hV.short
  simp only [length_append, length_cons] at this ⊢
  omega

lemma consume_took (hV : S.Pages V use (l₁ ++ c :: l₂)) (hcount : V.count c = pages) :
    ∃ use', S.Took V use c pages ({ V.unlink c with hint := V.next c }.take c pages)
      use' (l₁ ++ l₂) := by
  subst hcount
  have hc : c ∈ l₁ ++ c :: l₂ := mem_append_right l₁ mem_cons_self
  have hpos := (hV.runs c hc).1
  have hcm := mem_cons_of_mem 0 hc
  obtain ⟨hring, hnd, hlen⟩ := hV.unlink
  refine ⟨relabel use c (V.count c) (.big c), hV.change rfl rfl
    (fun p => ne_none_of_relabel fun p => hV.run_used hc) ?_ hnd hlen ?_ fun h hh => ?_, ?_, rfl,
    rfl, rfl, le_rfl, fun k hk => .inr ⟨c, (hV.runs c hc).2 k hk⟩,
    fun k hk => relabel_in (by omega), update_self .., update_self .., fun p hrun hnone => ?_,
    fun p i hp => cut_of_relabel hp (by simp)⟩
  · refine hring.congr (fun y hy => update_of_ne ?_ _ _) fun y _ => rfl
    rintro rfl
    exact hV.notMem_rest hy
  · exact (update_of_ne (hV.ne_zero hc).symm _ _).trans hV.zero
  · obtain ⟨hh', hne⟩ := hV.mem_rest.mp hh
    simp only [Arena.take, Arena.unlink, update_of_ne hne]
    exact hV.run_relabel hh' fun k => hV.run_disjoint hc hh' hne
  · have hn := hV.next_mem hcm
    have hne := hV.next_ne hc
    simp only [HintOk, Arena.take, mem_cons, hV.mem_rest] at hn ⊢
    tauto
  · have hpc : ¬ (c ≤ p ∧ p < c + V.count c) := fun hr => hrun c (hV.run_use hc hr.1 hr.2)
    have hne : p ≠ c := by omega
    have hnp : p ≠ V.prev c := by
      rintro rfl
      exact hV.notMem_ring hrun hnone (hV.prev_mem hcm)
    simp only [relabel_out hpc, Arena.take, Arena.unlink, update_of_ne hne, update_of_ne hnp,
      and_self]

lemma consume_cut (hV : S.Pages V use (l₁ ++ c :: l₂)) (hcount : V.count c = pages)
    (h43 : S.hdr m' 43 = sub32 (S.hdr m 43) 1)
    (h44 : S.hdr m' 44 = sub32 (S.hdr m 44) (4096 * pages)) :
    S.CutRuns m V (l₁ ++ c :: l₂) c pages m'
      ({ V.unlink c with hint := V.next c }.take c pages) (l₁ ++ l₂) := by
  subst hcount
  have hcr : ∀ r ∈ l₁ ++ l₂, update V.count c 0 r = V.count r :=
    fun r hr => update_of_ne (hV.mem_rest.mp hr).2 _ _
  refine ⟨fun h => ⟨(h.runs.sublist ((List.Sublist.refl l₁).append
    (sublist_cons_self c l₂))).congr hcr, ?_, ?_⟩, fun p hp => ?_⟩
  · have hshort := hV.short
    rw [h43, h.length]
    simp only [length_append, length_cons] at hshort ⊢
    rw [sub32_of_le (by omega) (by omega)]
    omega
  · have hle := hV.bytes_le h.runs
    have hlt := hV.brk_lt
    have hsum := sum_middle V.count l₁ l₂ c
    show _ = 4096 * ((l₁ ++ l₂).map (update V.count c 0)).sum
    rw [h44, h.bytes, map_congr_left hcr, sub32_of_le (by omega) (by omega)]
    omega
  · rcases hp with hp | hp
    · exact hp.remove.imp_left fun hin => .inl ((InRuns.congr hcr).mpr hin)
    · exact .inl (.inr hp)

lemma Pages.mem_split (hV : S.Pages V use (l₁ ++ c :: l₂)) (hpos : 0 < pages)
    (hlt : pages < V.count c) {h : ℕ} (hh : h ∈ 0 :: (l₁ ++ l₂)) : h ≠ c ∧ h ≠ c + pages := by
  have hs := (hV.split_notMem (mem_append_right l₁ mem_cons_self) hpos hlt).1
  refine ⟨?_, ?_⟩
  · rintro rfl
    exact hV.notMem_rest hh
  · rintro rfl
    simp only [mem_cons, mem_append] at hs hh
    tauto

lemma split_took (hV : S.Pages V use (l₁ ++ c :: l₂)) (hpos : 0 < pages)
    (hlt : pages < V.count c) :
    ∃ use', S.Took V use c pages ((V.split c pages).take c pages) use'
      (l₁ ++ (c + pages) :: l₂) := by
  have hc : c ∈ l₁ ++ c :: l₂ := mem_append_right l₁ mem_cons_self
  obtain ⟨hs, hsl⟩ := hV.split_notMem hc hpos hlt
  have hc0 := hV.ne_zero hc
  have hmem : ∀ h, h ∈ l₁ ++ (c + pages) :: l₂ ↔ h = c + pages ∨ h ∈ l₁ ++ l₂ := by
    intro h
    simp only [mem_append, mem_cons]
    tauto
  refine ⟨relabel (relabel use c (V.count c) (.run (c + pages))) c pages (.big c),
    hV.change rfl rfl (fun p hp => ?_) ?_ ?_ ?_ ?_ fun h hh => ?_, ?_, rfl,
    rfl, rfl, le_rfl, fun k hk => .inr ⟨c, (hV.runs c hc).2 k (by omega)⟩,
    fun k hk => relabel_in (by omega), update_self .., update_self .., fun p hrun hnone => ?_,
    fun p i hp => cut_of_relabel (cut_of_relabel hp (by simp)) (by simp)⟩
  · by_cases hin : c ≤ p ∧ p < c + V.count c
    · exact hV.run_used hc hin.1 hin.2
    · rwa [relabel_out (by omega), relabel_out hin] at hp
  · refine (hV.ring.replace hV.nodup hV.nodup' hs (by omega)).congr (fun y hy => ?_) fun y _ => rfl
    refine update_of_ne ?_ _ _
    rw [mem_cons, hmem, or_left_comm, ← mem_cons] at hy
    rcases hy with hy | hy
    · omega
    · exact (hV.mem_split hpos hlt hy).1
  · have hnd := hV.unlink.2.1
    have hsn : c + pages ∉ 0 :: (l₁ ++ l₂) := fun hm => (hV.mem_split hpos hlt hm).2 rfl
    rw [nodup_cons, nodup_middle, nodup_cons]
    rw [nodup_cons] at hnd
    rw [mem_cons, not_or] at hsn
    refine ⟨fun hm => ?_, hsn.2, hnd.2⟩
    exact ((hmem 0).mp hm).elim (fun h0 => hsn.1 h0.symm) hnd.1
  · simpa only [length_append, length_cons] using hV.short
  · have h0s : 0 ≠ c + pages := by omega
    simp only [Arena.take, Arena.split, update_of_ne hc0.symm, update_of_ne h0s, hV.zero]
  · rcases (hmem h).mp hh with rfl | hh
    · have hsc : c + pages ≠ c := by omega
      simp only [Arena.take, Arena.split, update_of_ne hsc, update_self]
      refine ⟨by omega, fun k hk => ?_⟩
      rw [relabel_out (by omega), relabel_in (by omega)]
    · obtain ⟨hh', hhc⟩ := hV.mem_rest.mp hh
      have hhs := (hV.mem_split hpos hlt (mem_cons_of_mem 0 hh)).2
      simp only [Arena.take, Arena.split, update_of_ne hhc, update_of_ne hhs]
      refine ⟨(hV.runs h hh').1, fun k hk => ?_⟩
      have := hV.run_disjoint hc hh' hhc hk
      rw [relabel_out (by omega), relabel_out (by omega)]
      exact (hV.runs h hh').2 k hk
  · simp [HintOk, Arena.take, Arena.split]
  · have hpc : ¬ (c ≤ p ∧ p < c + V.count c) := fun hr => hrun c (hV.run_use hc hr.1 hr.2)
    have hne : p ≠ c := by omega
    have hns : p ≠ c + pages := by omega
    have hnp : p ≠ V.prev c := by
      rintro rfl
      exact hV.notMem_ring hrun hnone (hV.prev_mem (mem_cons_of_mem 0 hc))
    rw [relabel_out (by omega), relabel_out hpc]
    simp only [Arena.take, Arena.split, update_of_ne hne, update_of_ne hns, update_of_ne hnp,
      and_self]

lemma split_cut (hV : S.Pages V use (l₁ ++ c :: l₂)) (hpos : 0 < pages) (hlt : pages < V.count c)
    (h43 : S.hdr m' 43 = S.hdr m 43) (h44 : S.hdr m' 44 = sub32 (S.hdr m 44) (4096 * pages)) :
    S.CutRuns m V (l₁ ++ c :: l₂) c pages m' ((V.split c pages).take c pages)
      (l₁ ++ (c + pages) :: l₂) := by
  have hcs : ((V.split c pages).take c pages).count (c + pages) = V.count c - pages :=
    (update_of_ne (by omega) _ _).trans (update_self ..)
  have hcr : ∀ r ∈ l₁ ++ l₂, ((V.split c pages).take c pages).count r = V.count r := fun r hr =>
    have hne := hV.mem_split hpos hlt (mem_cons_of_mem 0 hr)
    (update_of_ne hne.1 _ _).trans (update_of_ne hne.2 _ _)
  refine ⟨fun h => ⟨h.runs.trim hlt hcs hcr, ?_, ?_⟩, fun p hp => ?_⟩
  · rw [h43, h.length]
    simp only [length_append, length_cons]
  · have hle := hV.bytes_le h.runs
    have hbrk := hV.brk_lt
    have hsum := sum_trim (by omega) hcs hcr
    rw [h44, h.bytes, ← hsum, sub32_of_le (by omega) (by omega)]
    omega
  · rcases hp with hp | hp
    · exact (hp.trim hcs hcr).imp_left .inl
    · exact .inl (.inr hp)

lemma new_took (hV : S.Pages V use ps) (hh : HintOk V ps) (hpos : 0 < pages)
    (hle : V.brk + 4096 * pages ≤ S.size) (hsize : S.size < 2147483648) :
    ∃ use', S.Took V use (V.brk / 4096) pages ((V.raise pages).take (V.brk / 4096) pages)
      use' ps := by
  have hmod := hV.brk_mod
  have hge := hV.brk_ge
  have hds := S.pt_le_dataStart
  have hnone : ∀ k, use (V.brk / 4096 + k) = .none := by
    intro k
    by_contra hne
    have := (hV.used _ hne).2
    omega
  have hring : V.brk / 4096 ∉ 0 :: ps := by
    intro hm
    rcases mem_cons.mp hm with h0 | hm
    · omega
    · exact hV.run_ne_none hm (hnone 0)
  have hbrk : ((V.raise pages).take (V.brk / 4096) pages).brk = V.brk + 4096 * pages := rfl
  refine ⟨relabel use (V.brk / 4096) pages (.big (V.brk / 4096)), ⟨by omega, by omega, hle,
    by omega, .inr hsize, .inl rfl, fun p hp => ?_, ?_, hV.nodup, hV.short, ?_, fun h hh => ?_⟩,
    hh, rfl, rfl, rfl, by omega, fun k _ => .inl (hnone k), fun k hk => relabel_in (by omega),
    update_self .., update_self .., fun p hrun hp => ?_, fun p i hp => cut_of_relabel hp (by simp)⟩
  · by_cases hin : V.brk / 4096 ≤ p ∧ p < V.brk / 4096 + pages
    · omega
    · rw [relabel_out hin] at hp
      have := hV.used p hp
      omega
  · refine hV.ring.congr (fun y hy => ?_) fun y _ => rfl
    exact update_of_ne (by rintro rfl; exact hring hy) _ _
  · exact (update_of_ne (by omega) _ _).trans hV.zero
  · have hne : h ≠ V.brk / 4096 := by
      rintro rfl
      exact hring (mem_cons_of_mem 0 hh)
    have hend := hV.run_end hh
    simp only [Arena.take, Arena.raise, update_of_ne hne]
    exact hV.run_relabel hh fun k hk => by omega
  · have := (hV.used p hp).2
    have hne : p ≠ V.brk / 4096 := by omega
    rw [relabel_out (by omega)]
    simp only [Arena.take, Arena.raise, update_of_ne hne, and_self]

lemma new_cut (hV : S.Pages V use ps) (h43 : S.hdr m' 43 = S.hdr m 43)
    (h44 : S.hdr m' 44 = S.hdr m 44) :
    S.CutRuns m V ps (V.brk / 4096) pages m' ((V.raise pages).take (V.brk / 4096) pages) ps := by
  have hmod := hV.brk_mod
  have hbrk : ((V.raise pages).take (V.brk / 4096) pages).brk = V.brk + 4096 * pages := rfl
  have hcr : ∀ r ∈ ps, update V.count (V.brk / 4096) 0 r = V.count r := by
    intro r hr
    have := hV.run_end hr
    have := (hV.runs r hr).1
    exact update_of_ne (by omega) _ _
  refine ⟨fun h => ⟨(h.runs.congr hcr).mono (by omega), h43.trans h.length, ?_⟩, fun p hp => ?_⟩
  · show _ = 4096 * (ps.map (update V.count (V.brk / 4096) 0)).sum
    rw [h44, map_congr_left hcr, h.bytes]
  · rcases hp with hp | hp
    · exact .inl (.inl ((InRuns.congr hcr).mpr hp))
    · rcases Nat.lt_or_ge p (V.brk / 4096 + pages) with hlt | hge
      · exact .inr ⟨by omega, hlt⟩
      · exact .inl (.inr (by omega))

lemma takeRun_spec (h : S.Shows m V) (hV : S.Pages V use ps) (hc : c ∈ ps) (hpos : 0 < pages)
    (hle : pages ≤ V.count c) :
    ∃ m' V' use' ps', S.takeRun m S.pt c pages = (m', S.heap + 4096 * c) ∧ S.Shows m' V' ∧
      S.Took V use c pages V' use' ps' ∧ S.CutRuns m V ps c pages m' V' ps' := by
  have hcl := hV.lt_of_mem (mem_cons_of_mem 0 hc)
  have hend := hV.run_end hc
  have hbrk := hV.brk_lt
  have hsize : pages < 4294967296 := by omega
  rw [takeRun, h.count c hcl, pageOf_eq h hcl]
  rcases Nat.lt_or_eq_of_le hle with hlt | heq
  · obtain ⟨hs, h43, h44⟩ := splitRun_spec h hV hc hpos hlt
    obtain ⟨hs', h43', h44'⟩ := takeEntry_spec hs hcl hsize rfl
    obtain ⟨l₁, l₂, rfl⟩ := append_of_mem hc
    obtain ⟨use', ht⟩ := split_took hV hpos hlt
    exact ⟨_, _, use', _, by rw [if_neg (by omega)], hs', ht,
      split_cut hV hpos hlt (h43'.trans h43) (by rw [h44', h44])⟩
  · obtain ⟨hs, h43, h44⟩ := consumeRun_spec h hV hc
    obtain ⟨hs', h43', h44'⟩ := takeEntry_spec hs hcl hsize rfl
    obtain ⟨l₁, l₂, rfl⟩ := append_of_mem hc
    obtain ⟨use', ht⟩ := consume_took hV heq.symm
    exact ⟨_, _, use', _, by rw [if_pos (by omega)], hs', ht,
      consume_cut hV heq.symm (h43'.trans h43) (by rw [h44', h44])⟩

lemma newPages_eq (h : S.Shows m V) (hV : S.Pages V use ps) (hpos : 0 < pages)
    (hlt : V.brk + 4096 * pages < 2147483648) :
    S.newPages m S.pt pages = (m, 0) ∨
      ∃ m', S.newPages m S.pt pages = (m', S.heap + 4096 * (V.brk / 4096)) ∧
        S.Shows m' ((V.raise pages).take (V.brk / 4096) pages) ∧ S.hdr m' 43 = S.hdr m 43 ∧
        S.hdr m' 44 = S.hdr m 44 ∧ V.brk + 4096 * pages ≤ S.size ∧ S.size < 2147483648 := by
  have hmod := hV.brk_mod
  have hge := hV.brk_ge
  have hds := S.pt_le_dataStart
  have hpc := S.pageCount_eq
  have hbytes : u32 (4096 * pages) = 4096 * pages := u32_of_lt (by omega)
  rcases morecore_spec h hV hpos hlt with hm | ⟨hm, hshow, hle, hsize⟩
  · refine .inl ?_
    rw [newPages, hbytes, hm]
    rfl
  · have hbrk : S.heap + V.brk = S.heap + 4096 * (V.brk / 4096) := by omega
    have hidx := pageIndex_eq (p := V.brk / 4096) hshow (by omega) (by omega) (by omega)
    rw [← hbrk] at hidx
    have h₁ := (hshow.setCount (p := V.brk / 4096) (v := 0) (by omega) (by omega)).setNext
      (p := V.brk / 4096) (v := pages) (by omega) (by omega)
    refine .inr ⟨_, ?_, (h₁.addHdr (i := 41) (by omega) 1).addHdr (i := 42) (by omega)
      (4096 * pages), ?_, ?_, hle, hsize⟩
    · rw [newPages, hbytes, hm]
      simp only [hidx]
      rw [if_neg (by omega), hbrk]
    all_goals
      simp (disch := omega) only [Smm.addHdr, hdr_setHdr, hdr_setPte]
      simp

lemma newPages_spec (h : S.Shows m V) (hV : S.Pages V use ps) (hh : HintOk V ps)
    (hpos : 0 < pages) (hlt : V.brk + 4096 * pages < 2147483648) :
    S.newPages m S.pt pages = (m, 0) ∨
      ∃ m' V' use' ps', S.newPages m S.pt pages = (m', S.heap + 4096 * (V.brk / 4096)) ∧
        S.Shows m' V' ∧ S.Took V use (V.brk / 4096) pages V' use' ps' ∧
        S.CutRuns m V ps (V.brk / 4096) pages m' V' ps' := by
  rcases newPages_eq h hV hpos hlt with hm | ⟨m', hm, hshow, h43, h44, hle, hsize⟩
  · exact .inl hm
  · obtain ⟨use', ht⟩ := new_took hV hh hpos hle hsize
    exact .inr ⟨m', _, use', ps, hm, hshow, ht, new_cut hV h43 h44⟩

/-- A request for pages returns `0` without a change, or a block of pages. -/
theorem shmallocPages_spec {size : ℕ} (h : S.Shows m V) (hV : S.Pages V use ps)
    (hh : HintOk V ps) (hsize : 0 < size)
    (hlt : V.brk + 4096 * ((size + 4095) / 4096) < 2147483648) :
    S.shmallocPages m size = some (m, 0) ∨
      ∃ m' x V' use' ps', S.shmallocPages m size = some (m', S.heap + 4096 * x) ∧
        S.Shows m' V' ∧ S.Took V use x ((size + 4095) / 4096) V' use' ps' ∧
        S.CutRuns m V ps x ((size + 4095) / 4096) m' V' ps' := by
  have hpos : 0 < (size + 4095) / 4096 := by omega
  have hu : u32 (size + 4095) = size + 4095 := u32_of_lt (by omega)
  rw [shmallocPages, hu, h.pageTable_eq, h.hint]
  rcases pageSearch_spec h hV hh hpos with hs | ⟨c, hc, hle, hs⟩
  · simp only [hs, map_some]
    rcases newPages_spec h hV hh hpos hlt with hn | ⟨m', V', use', ps', hn, hrest⟩
    · exact .inl (by rw [hn])
    · exact .inr ⟨m', _, V', use', ps', by rw [hn], hrest⟩
  · simp only [hs, map_some]
    obtain ⟨m', V', use', ps', hr, hrest⟩ := takeRun_spec h hV hc hpos hle
    exact .inr ⟨m', c, V', use', ps', by rw [hr], hrest⟩

end Smm

end CpuComm
