import Mathlib.Order.Interval.Finset.Nat
import H713.CpuComm.Smm.BlockCalls

/-!
# The invariant of the allocator

Every live block is a block of whole pages or a block of a page that was cut, and no free list holds
it. The condition on a call is met unless it runs into one of the places where the source loses
track of its pages.
-/

namespace CpuComm

open Machine Function List

namespace Smm

variable {S : Smm} {m m' : Mem} {V V' : Arena} {use use' : ℕ → Use} {ps ps' : List ℕ}
  {L L' : ℕ → List ℕ} {live : List (ℕ × ℕ)} {s : State} {e e' : ℕ × ℕ} {a x n i : ℕ}

/-! ### Live blocks -/

/-- The place of a live block, given by its address and the size it was asked for. -/
inductive LiveAt (S : Smm) (V : Arena) (use : ℕ → Use) : ℕ × ℕ → Prop
  | pages {x n size : ℕ} (hb : BigAt use x n) (hc : V.count x = 0) (hn : V.next x = n)
      (hgt : 2048 < size) (hle : size ≤ 4096 * n) : LiveAt S V use (S.heap + 4096 * x, size)
  | block {i b size : ℕ} (hb : S.BlockAt use i b) (hle : size ≤ 2 ^ i)
      (hc : sizeClass (max size 8) = i) : LiveAt S V use (b, size)

lemma pageNo_page (S : Smm) (x : ℕ) : S.pageNo (S.heap + 4096 * x) = x := by
  simp only [pageNo]
  omega

lemma BlockAt.bounds {b : ℕ} (h : S.BlockAt use i b) (hV : S.Pages V use ps) :
    S.heap + S.dataStart ≤ b ∧ b + 2 ^ i ≤ S.heap + V.brk := by
  have hu := hV.used _ (by rw [h.cut]; nofun)
  have := h.end_le
  have := h.page_le
  have := hV.brk_mod
  omega

namespace LiveAt

lemma bounds (h : S.LiveAt V use e) (hV : S.Pages V use ps) :
    S.heap + S.dataStart ≤ e.1 ∧ e.1 + e.2 ≤ S.heap + V.brk := by
  cases h with
  | pages hb hc hn hgt hle =>
    have := hb.bounds hV
    omega
  | block hb hle =>
    have := hb.bounds hV
    omega

lemma use_page (h : S.LiveAt V use e) :
    use (S.pageNo e.1) = .big (S.pageNo e.1) ∨ ∃ i, use (S.pageNo e.1) = .cut i := by
  cases h with
  | pages hb => exact .inl (by rw [pageNo_page, hb.self])
  | block hb => exact .inr ⟨_, hb.cut⟩

lemma pages_disjoint {b : ℕ} (hb : BigAt use x n) (hc : S.BlockAt use i b) :
    S.heap + 4096 * (x + n) ≤ b ∨ b + 2 ^ i ≤ S.heap + 4096 * x := by
  have hend := hc.end_le
  have hpage := hc.page_le
  have hcut := hc.cut
  by_contra hno
  have huse := hb.use_eq (p := S.pageNo b) (by omega) (by omega)
  rw [huse] at hcut
  cases hcut

lemma disjoint (h : S.LiveAt V use e) (h' : S.LiveAt V use e') (hne : e.1 ≠ e'.1) :
    e.1 + e.2 ≤ e'.1 ∨ e'.1 + e'.2 ≤ e.1 := by
  cases h with
  | @pages x n size hb hc hn hgt hle =>
    cases h' with
    | @pages x' n' size' hb' hc' hn' hgt' hle' =>
      simp only [ne_eq, Nat.add_left_cancel_iff] at hne ⊢
      have hxx : x ≠ x' := by omega
      have h₁ : ¬ (x ≤ x' ∧ x' < x + n) := fun hin => hxx
        (Use.big.inj ((hb.use_eq hin.1 hin.2).symm.trans hb'.self))
      have h₂ : ¬ (x' ≤ x ∧ x < x' + n') := fun hin => hxx
        (Use.big.inj (hb.self.symm.trans (hb'.use_eq hin.1 hin.2)))
      omega
    | block hb' hle' =>
      have := pages_disjoint hb hb'
      omega
  | block hb hle =>
    cases h' with
    | pages hb' hc' hn' hgt' hle' =>
      have := pages_disjoint hb' hb
      omega
    | block hb' hle' =>
      have := hb.disjoint hb' hne
      omega

lemma keep (h : S.LiveAt V use e)
    (hbig : ∀ x n, e.1 = S.heap + 4096 * x → BigAt use x n → 2048 < e.2 →
      BigAt use' x n ∧ V'.count x = V.count x ∧ V'.next x = V.next x)
    (hcut : ∀ p i, use p = .cut i → use' p = .cut i) : S.LiveAt V' use' e := by
  cases h with
  | @pages x n size hb hc hn hgt hle =>
    obtain ⟨hb', hc', hn'⟩ := hbig x n rfl hb hgt
    exact .pages hb' (hc'.trans hc) (hn'.trans hn) hgt hle
  | block hb hle hc => exact .block (hb.mono fun p => hcut p _) hle hc

end LiveAt

/-! ### Counts -/

def cutPages (S : Smm) (use : ℕ → Use) (i : ℕ) : ℕ :=
  ((Finset.range S.pageCount).filter fun p => use p = .cut i).card

lemma cutPages_congr (h : ∀ p, use' p = .cut i ↔ use p = .cut i) :
    S.cutPages use' i = S.cutPages use i := by
  simp only [cutPages, h]

lemma cutPages_le (S : Smm) (use : ℕ → Use) (i : ℕ) : S.cutPages use i ≤ S.pageCount := by
  exact (Finset.card_filter_le _ _).trans_eq (Finset.card_range _)

lemma cutPages_update {j : ℕ} (hx : x < S.pageCount) (hu : use x ≠ .cut j) :
    S.cutPages (update use x (.cut i)) j = S.cutPages use j + if j = i then 1 else 0 := by
  have hne : ∀ p, p ≠ x → (update use x (.cut i) p = .cut j ↔ use p = .cut j) := fun p hp => by
    rw [update_of_ne hp]
  split_ifs with hji
  · have hmem : x ∉ (Finset.range S.pageCount).filter fun p => use p = .cut j := by simp [hu]
    rw [cutPages, cutPages, ← Finset.card_insert_of_notMem hmem]
    congr 1
    ext p
    rcases eq_or_ne p x with rfl | hp
    · simp [hx, hji]
    · simp [hp]
  · refine cutPages_congr fun p => ?_
    rcases eq_or_ne p x with rfl | hp
    · simpa [hu] using Ne.symm hji
    · exact hne p hp

/-- The page table counts the blocks of each page that are on the list of their class. -/
def Counts (S : Smm) (V : Arena) (use : ℕ → Use) (L : ℕ → List ℕ) : Prop :=
  ∀ p i, use p = .cut i → V.next p = (L i).countP fun b => S.pageNo b = p

/-! ### The invariant -/

lemma HintFree.congr (h : S.HintFree V ps) (hb : V'.brk = V.brk) (hh : V'.hint = V.hint)
    (hp : V.brk ≤ 4096 * V.hint → V'.prev V.hint = V.prev V.hint) : S.HintFree V' ps := by
  rw [HintFree, hb, hh]
  refine h.imp_right fun hd => ⟨hd.1, hd.2.1, ?_⟩
  rw [hp hd.1]
  exact hd.2.2

/-- Memory holds the parts `V`, and the pages, the free lists and the live blocks are consistent. -/
structure Inv (S : Smm) (s : State) (V : Arena) (use : ℕ → Use) (ps : List ℕ) (L : ℕ → List ℕ) :
    Prop where
  shows : S.Shows s.mem V
  pages : S.Pages V use ps
  hint : S.HintFree V ps
  lists : S.Lists V use L
  cuts : ∀ p i, use p = .cut i → V.count p = i ∧ 4 ≤ i ∧ i ≤ 11
  live : ∀ e ∈ s.live, S.LiveAt V use e
  nodup : (s.live.map Prod.fst).Nodup
  free : ∀ i, 4 ≤ i → i ≤ 11 → ∀ b ∈ L i, b ∉ s.live.map Prod.fst
  all : ∀ i b, S.BlockAt use i b → b ∈ s.live.map Prod.fst ∨ b ∈ L i
  counters : ∀ k, 4 < k → k < 25 → V.cuts k = S.cutPages use (k - 5)

lemma live_add {size : ℕ} (hlive : ∀ e ∈ live, S.LiveAt V use e)
    (hnd : (live.map Prod.fst).Nodup)
    (hfree : ∀ i, 4 ≤ i → i ≤ 11 → ∀ b ∈ L i, b ∉ live.map Prod.fst)
    (ha : S.LiveAt V use (a, size)) (hn : a ∉ live.map Prod.fst)
    (hf : ∀ i, 4 ≤ i → i ≤ 11 → a ∉ L i) :
    (∀ e ∈ live ++ [(a, size)], S.LiveAt V use e) ∧ ((live ++ [(a, size)]).map Prod.fst).Nodup ∧
      ∀ i, 4 ≤ i → i ≤ 11 → ∀ b ∈ L i, b ∉ (live ++ [(a, size)]).map Prod.fst := by
  refine ⟨fun e he => ?_, ?_, fun i hi hi' b hb hm => ?_⟩
  · rcases mem_append.mp he with he | he
    · exact hlive e he
    · rw [mem_singleton.mp he]
      exact ha
  · rw [map_append, nodup_append]
    refine ⟨hnd, nodup_singleton a, fun b hb c hc => ?_⟩
    obtain rfl : c = a := mem_singleton.mp hc
    rintro rfl
    exact hn hb
  · rw [map_append] at hm
    rcases mem_append.mp hm with hm | hm
    · exact hfree i hi hi' b hb hm
    · obtain rfl : b = a := mem_singleton.mp hm
      exact hf i hi hi' hb

lemma mem_live_add {b size : ℕ} :
    b ∈ (live ++ [(a, size)]).map Prod.fst ↔ b ∈ live.map Prod.fst ∨ b = a := by
  rw [map_append, mem_append]
  exact or_congr_right mem_singleton

namespace Inv

lemma add {size : ℕ} (h : S.Inv ⟨m, live⟩ V use ps L) (ha : S.LiveAt V use (a, size))
    (hn : a ∉ live.map Prod.fst) (hf : ∀ i, 4 ≤ i → i ≤ 11 → a ∉ L i) :
    S.Inv ⟨m, live ++ [(a, size)]⟩ V use ps L := by
  obtain ⟨hlive, hnd, hfree⟩ := live_add h.live h.nodup h.free ha hn hf
  exact ⟨h.shows, h.pages, h.hint, h.lists, h.cuts, hlive, hnd, hfree,
    fun i b hb => (h.all i b hb).imp_left fun hm => mem_live_add.mpr (.inl hm), h.counters⟩

lemma fresh_page (h : S.Inv s V use ps L) (hx : use x = .none ∨ ∃ r, use x = .run r)
    (ha : S.pageNo a = x) :
    a ∉ s.live.map Prod.fst ∧ ∀ i, 4 ≤ i → i ≤ 11 → a ∉ L i := by
  constructor
  · intro hm
    obtain ⟨e, he, rfl⟩ := mem_map.mp hm
    have := (h.live e he).use_page
    rw [ha] at this
    rcases hx with hx | ⟨r, hx⟩ <;> simp [hx] at this
  · intro i hi hi' hm
    have := (h.lists.block i hi hi' a hm).cut
    rw [ha] at this
    rcases hx with hx | ⟨r, hx⟩ <;> simp [hx] at this

lemma took (h : S.Inv ⟨m, live⟩ V use ps L) (ht : S.Took V use x n V' use' ps') (hn : 0 < n)
    (hs : S.Shows m' V') : S.Inv ⟨m', live⟩ V' use' ps' L := by
  have hfresh := h.fresh_page (ht.fresh 0 hn) (S.pageNo_page x)
  have hcut : ∀ p i, use p = .cut i → use' p = .cut i := by
    intro p i hp
    rw [(ht.kept p (by rw [hp]; nofun) (by rw [hp]; nofun)).1, hp]
  refine ⟨hs, ht.ok, .inl ht.hint, h.lists.congr ht.heads ht.word hcut, fun p i hp => ?_,
    fun e he => (h.live e he).keep (fun y k _ hb _ => ?_) hcut, h.nodup, h.free,
    fun i b hb => h.all i b (hb.mono fun p => ht.cut p i), fun k hk hk' => ?_⟩
  · have hp' := ht.cut p i hp
    rw [(ht.kept p (by rw [hp']; nofun) (by rw [hp']; nofun)).2.1]
    exact h.cuts p i hp'
  · have hk : ∀ j < k, use' (y + j) = .big y := by
      intro j hj
      have hu := hb.2 j hj
      rw [(ht.kept _ (by rw [hu]; nofun) (by rw [hu]; nofun)).1, hu]
    have hself := hb.self
    exact ⟨⟨hb.1, hk⟩, (ht.kept y (by rw [hself]; nofun) (by rw [hself]; nofun)).2⟩
  · rw [ht.cuts, h.counters k hk hk', cutPages_congr fun p => ⟨ht.cut p _, hcut p _⟩]

lemma took_counts (hc : S.Counts V use L) (ht : S.Took V use x n V' use' ps') :
    S.Counts V' use' L := by
  intro p i hp
  have hp' := ht.cut p i hp
  rw [(ht.kept p (by rw [hp']; nofun) (by rw [hp']; nofun)).2.2, hc p i hp']

lemma freed (h : S.Inv ⟨m, live⟩ V use ps L) (hx : use x = .big x) (hf : Freed x V use V' use')
    (hV' : S.Pages V' use' ps') (hh : S.HintFree V' ps') (hs : S.Shows m' V') :
    S.Inv ⟨m', live.filter fun b => b.1 ≠ S.heap + 4096 * x⟩ V' use' ps' L := by
  have hcut : ∀ p i, use p = .cut i → use' p = .cut i := by
    intro p i hp
    rw [(hf.kept p (by rw [hp]; nofun) (by rw [hp]; nofun) (by rw [hp]; nofun)).1, hp]
  have hsub : (live.filter fun b => b.1 ≠ S.heap + 4096 * x).Sublist live := filter_sublist
  refine ⟨hs, hV', hh, h.lists.congr hf.heads hf.word hcut, fun p i hp => ?_, fun e he => ?_,
    (hsub.map Prod.fst).nodup h.nodup, fun i hi hi' b hb hm => ?_, fun i b hb => ?_,
    fun k hk hk' => ?_⟩
  · have hp' := hf.cut p i hp
    rw [(hf.kept p (by rw [hp']; nofun) (by rw [hp']; nofun) (by rw [hp']; nofun)).2.1]
    exact h.cuts p i hp'
  · obtain ⟨he, hne⟩ := mem_filter.mp he
    refine (h.live e he).keep (fun y k hy hb _ => ?_) hcut
    have hyx : y ≠ x := by
      rintro rfl
      simp [hy] at hne
    have hkept : ∀ j < k, _ := fun j hj => hf.kept (y + j)
      (by rw [hb.2 j hj]; nofun) (by rw [hb.2 j hj]; nofun)
      (by rw [hb.2 j hj]; exact fun e => hyx (Use.big.inj e))
    exact ⟨⟨hb.1, fun j hj => (hkept j hj).1.trans (hb.2 j hj)⟩, (hkept 0 hb.1).2⟩
  · exact h.free i hi hi' b hb ((hsub.map Prod.fst).subset hm)
  · have hb' := hb.mono fun p => hf.cut p i
    refine (h.all i b hb').imp_left fun hm => ?_
    obtain ⟨e, he, rfl⟩ := mem_map.mp hm
    refine mem_map_of_mem (mem_filter.mpr ⟨he, decide_eq_true fun hex => ?_⟩)
    have hcut' := hb'.cut
    rw [hex, pageNo_page, hx] at hcut'
    cases hcut'
  · rw [hf.cuts, h.counters k hk hk', cutPages_congr fun p => ⟨hf.cut p _, hcut p _⟩]

lemma freed_counts (hc : S.Counts V use L) (hf : Freed x V use V' use') : S.Counts V' use' L := by
  intro p i hp
  have hp' := hf.cut p i hp
  rw [(hf.kept p (by rw [hp']; nofun) (by rw [hp']; nofun) (by rw [hp']; nofun)).2.2, hc p i hp']

lemma returned {b p n v : ℕ} (h : S.Inv ⟨m, live⟩ V use ps L) (hb : S.BlockAt use i b)
    (hl : b ∈ live.map Prod.fst) (hp : p = S.pageNo b)
    (hs : S.Shows m' { V.push S i b with
      next := update V.next p n
      prev := update V.prev p v }) :
    S.Inv ⟨m', live.filter fun e => e.1 ≠ b⟩
      { V.push S i b with
        next := update V.next p n
        prev := update V.prev p v } use ps (update L i (b :: L i)) := by
  have huse : use p = .cut i := hp ▸ hb.cut
  have hring : p ∉ 0 :: ps := h.pages.notMem_ring (by rw [huse]; nofun) (by rw [huse]; nofun)
  have hlt := (h.pages.used p (by rw [huse]; nofun)).2
  have hnL : b ∉ L i := fun hm => h.free i hb.ge hb.le b hm hl
  have hpush := h.lists.push h.pages hb hnL
  have hne : ∀ q, q ≠ p → update V.next p n q = V.next q ∧
      update V.prev p v q = V.prev q := fun q hq =>
    ⟨update_of_ne hq _ _, update_of_ne hq _ _⟩
  have hsub : (live.filter fun e => e.1 ≠ b).Sublist live := filter_sublist
  refine ⟨hs, h.pages.congr rfl rfl fun q hq => ⟨rfl, hne q ?_⟩, h.hint.congr rfl rfl fun hd => ?_,
    hpush.congr rfl rfl fun _ _ hp => hp, h.cuts, fun e he => ?_,
    (hsub.map Prod.fst).nodup h.nodup, fun j hj hj' c hc hm => ?_, fun j c hc => ?_, h.counters⟩
  · rintro rfl
    exact hring hq
  · exact (hne V.hint (by omega)).2
  · refine (h.live e (hsub.subset he)).keep (fun y k _ hbig _ => ⟨hbig, rfl, (hne y ?_).1⟩)
      fun _ _ hp => hp
    rintro rfl
    rw [hbig.self] at huse
    cases huse
  · have hlive := (hsub.map Prod.fst).subset hm
    rcases eq_or_ne j i with rfl | hji
    · rw [update_self] at hc
      rcases mem_cons.mp hc with rfl | hc
      · obtain ⟨e, he, rfl⟩ := mem_map.mp hm
        simp at he
      · exact h.free j hj hj' c hc hlive
    · rw [update_of_ne hji] at hc
      exact h.free j hj hj' c hc hlive
  · rcases eq_or_ne c b with rfl | hcb
    · rw [hc.inj hb, update_self]
      exact .inr mem_cons_self
    · refine (h.all j c hc).imp (fun hm => ?_) fun hm => ?_
      · obtain ⟨e, he, rfl⟩ := mem_map.mp hm
        exact mem_map_of_mem (mem_filter.mpr ⟨he, decide_eq_true hcb⟩)
      · rcases eq_or_ne j i with rfl | hji
        · rw [update_self]
          exact mem_cons_of_mem b hm
        · rwa [update_of_ne hji]

lemma length_le (h : S.Inv s V use ps L) (hi : 4 ≤ i) (hi' : i ≤ 11) : (L i).length ≤ S.size := by
  have hnd := (nodup_cons.mp (h.lists.chain i hi hi').nodup).2
  have hsub : (L i).toFinset ⊆ Finset.Ico S.heap (S.heap + S.size) := by
    intro b hb
    have hblk := h.lists.block i hi hi' b (mem_toFinset.mp hb)
    have hend := hblk.bounds h.pages
    have hsize := hblk.size_ge
    have hbrk := h.pages.brk_le
    exact Finset.mem_Ico.mpr ⟨hblk.heap_le, by omega⟩
  have hcard := Finset.card_le_card hsub
  rwa [toFinset_card_of_nodup hnd, Nat.card_Ico, Nat.add_sub_cancel_left] at hcard

/-- A release counts the block in the entry of its own page. -/
lemma returned_counts {b v : ℕ} (h : S.Inv s V use ps L) (hc : S.Counts V use L)
    (hb : S.BlockAt use i b) :
    S.Counts { V.push S i b with
      next := update V.next (S.pageNo b) (u32 (V.next (S.pageNo b) + 1))
      prev := update V.prev (S.pageNo b) v } use (update L i (b :: L i)) := by
  intro p j hp
  have hlen := h.length_le hb.ge hb.le
  have hheap := S.heap_ge
  have hvir := S.vir_lt
  rcases eq_or_ne p (S.pageNo b) with rfl | hpb
  · obtain rfl : j = i := Use.cut.inj (hp.symm.trans hb.cut)
    have hle := (L j).countP_le_length (p := fun c => decide (S.pageNo c = S.pageNo b))
    simp only [update_self]
    rw [hc _ j hp, u32_of_lt (by omega), countP_cons_of_pos (by simp)]
  · simp only [update_of_ne hpb, hc p j hp]
    rcases eq_or_ne j i with rfl | hji
    · rw [update_self, countP_cons_of_neg (by simpa using hpb.symm)]
    · rw [update_of_ne hji]

lemma popped {b d size : ℕ} {l : List ℕ} {next prev : ℕ → ℕ} (h : S.Inv ⟨m, live⟩ V use ps L)
    (hi : 4 ≤ i) (hi' : i ≤ 11) (hl : L i = b :: l) (hsize : size ≤ 2 ^ i)
    (hclass : sizeClass (max size 8) = i) (hring : d ∉ 0 :: ps) (hhint : d ≠ V.hint)
    (hlive : ∀ e ∈ live, 2048 < e.2 → e.1 ≠ S.heap + 4096 * d)
    (hd : ∀ q, q ≠ d → next q = V.next q ∧ prev q = V.prev q)
    (hs : S.Shows m' { V.pop S i b with next := next, prev := prev }) :
    S.Inv ⟨m', live ++ [(b, size)]⟩ { V.pop S i b with next := next, prev := prev } use ps
      (update L i l) := by
  have hbm : b ∈ L i := hl ▸ mem_cons_self
  have hb := h.lists.block i hi hi' b hbm
  have hpop := h.lists.pop h.pages hi hi' hl
  have hsub : ∀ j, ∀ c ∈ update L i l j, c ∈ L j := by
    intro j c hc
    rcases eq_or_ne j i with rfl | hji
    · rw [update_self] at hc
      exact hl ▸ mem_cons_of_mem b hc
    · rwa [update_of_ne hji] at hc
  have hkeep : ∀ e ∈ live, S.LiveAt { V.pop S i b with next := next, prev := prev } use e := by
    intro e he
    refine (h.live e he).keep (fun y k hy hbig hgt => ⟨hbig, rfl, (hd y ?_).1⟩) fun _ _ hp => hp
    rintro rfl
    exact hlive e he hgt hy
  have hgone : ∀ j, 4 ≤ j → j ≤ 11 → b ∉ update L i l j := by
    intro j hj hj' hm
    obtain rfl := h.lists.class_eq hj hj' hb (hsub j b hm)
    -- a chain has no block twice
    have hnd := (h.lists.chain i hi hi').nodup
    rw [update_self] at hm
    rw [hl] at hnd
    exact (nodup_cons.mp (nodup_cons.mp hnd).2).1 hm
  obtain ⟨h₁, h₂, h₃⟩ := live_add hkeep h.nodup
    (fun j hj hj' c hc => h.free j hj hj' c (hsub j c hc)) (.block hb hsize hclass)
    (h.free i hi hi' b hbm) hgone
  refine ⟨hs, h.pages.congr rfl rfl fun q hq => ⟨rfl, hd q ?_⟩,
    h.hint.congr rfl rfl fun _ => (hd V.hint hhint.symm).2, hpop.congr rfl rfl fun _ _ hp => hp,
    h.cuts, h₁, h₂, h₃, fun j c hc => ?_, h.counters⟩
  · rintro rfl
    exact hring hq
  · rw [mem_live_add]
    rcases h.all j c hc with hm | hm
    · exact .inl (.inl hm)
    · rcases eq_or_ne j i with rfl | hji
      · rw [hl] at hm
        rw [update_self]
        exact (mem_cons.mp hm).imp_left .inr
      · exact .inr (by rwa [update_of_ne hji])

lemma countedPage_eq {b : ℕ} (h : S.Inv s V use ps L) (hb : S.BlockAt use i b) :
    S.countedPage s.mem b = if b % 4096 = 0 then S.pageNo b else S.pageNo b + 1 := by
  have hin := hb.bounds h.pages
  have hbrk := h.pages.brk_le
  have hds := S.pt_le_dataStart
  have hsize := hb.size_ge
  have hal := S.aligned
  have hvir := S.vir_lt
  simp only [countedPage, pageNo, h.shows.dataBase_eq]
  rw [sub32_of_le (by simp only [pt]; omega) (by omega), u32_of_lt (by simp only [pt]; omega)]
  simp only [pt]
  split_ifs <;> omega

/-- A block that is taken is counted in the entry of its own page only if it starts that page. -/
lemma popped_counts {b : ℕ} {l : List ℕ} {prev : ℕ → ℕ} (h : S.Inv s V use ps L)
    (hc : S.Counts V use L) (hi : 4 ≤ i) (hi' : i ≤ 11) (hl : L i = b :: l) :
    S.Counts { V.pop S i b with
      next := update V.next (S.countedPage s.mem b) (sub32 (V.next (S.countedPage s.mem b)) 1)
      prev := prev } use (update L i l) ↔ b % 4096 = 0 := by
  have hb := h.lists.block i hi hi' b (hl ▸ mem_cons_self)
  have hself := hc _ i hb.cut
  rw [hl, countP_cons_of_pos (by simp)] at hself
  rw [h.countedPage_eq hb]
  refine ⟨fun hc' => ?_, fun h0 p j hp => ?_⟩
  · by_contra h0
    have hself' := hc' _ i hb.cut
    rw [if_neg h0, update_self] at hself'
    simp only [update_of_ne (show S.pageNo b ≠ S.pageNo b + 1 by omega)] at hself'
    omega
  · rw [if_pos h0]
    rcases eq_or_ne p (S.pageNo b) with rfl | hpb
    · obtain rfl : j = i := Use.cut.inj (hp.symm.trans hb.cut)
      have hlen := h.length_le hi hi'
      have hle := l.countP_le_length (p := fun c => decide (S.pageNo c = S.pageNo b))
      have hvir := S.vir_lt
      rw [hl, length_cons] at hlen
      simp only [update_self]
      rw [sub32_of_le (by omega) (by omega), hself, Nat.add_sub_cancel]
    · simp only [update_of_ne hpb, hc p j hp]
      rcases eq_or_ne j i with rfl | hji
      · rw [update_self, hl, countP_cons_of_neg (by simpa using hpb.symm)]
      · rw [update_of_ne hji]

section Cut

variable {size v : ℕ} {heads word : ℕ → ℕ} {l : List ℕ}

lemma cutted (h : S.Inv ⟨m, live⟩ V use ps L) (hh : HintOk V ps) (hi : 4 ≤ i) (hi' : i ≤ 11)
    (hnil : L i = []) (hx : use x = .big x) (hsize : size ≤ 2 ^ i)
    (hclass : sizeClass (max size 8) = i)
    (hlive : ∀ b, S.pageNo b = x → b ∉ live.map Prod.fst ∧ ∀ i, 4 ≤ i → i ≤ 11 → b ∉ L i)
    (hs : S.Shows m' (V.cut i x l.length v heads word))
    (hL : S.Lists { V with heads := heads, word := word } (update use x (.cut i))
      (update L i l))
    (hn : S.heap + 4096 * x ∉ l) (hl : ∀ b ∈ l, S.pageNo b = x)
    (hall : ∀ b, S.BlockAt (update use x (.cut i)) i b → S.pageNo b = x →
      b = S.heap + 4096 * x ∨ b ∈ l) :
    S.Inv ⟨m', live ++ [(S.heap + 4096 * x, size)]⟩ (V.cut i x l.length v heads word)
      (update use x (.cut i)) ps (update L i l) := by
  have hring : x ∉ 0 :: ps := h.pages.notMem_ring (by rw [hx]; nofun) (by rw [hx]; nofun)
  have hxl : x < S.pageCount := h.pages.lt_pageCount (by rw [hx]; nofun)
  have hself : S.BlockAt (update use x (.cut i)) i (S.heap + 4096 * x) := by
    refine ⟨hi, hi', ?_, Nat.le_add_right _ _,
      Nat.mod_eq_zero_of_dvd (S.page_dvd (by omega) x)⟩
    rw [pageNo_page, update_self]
  have hold : ∀ p, p ≠ x → update use x (.cut i) p = use p := fun p hp => update_of_ne hp _ _
  have hcut : ∀ p j, use p = .cut j → update use x (.cut i) p = .cut j := by
    intro p j hp
    rw [hold, hp]
    rintro rfl
    rw [hx] at hp
    cases hp
  have hkeep : ∀ e ∈ live,
      S.LiveAt (V.cut i x l.length v heads word) (update use x (.cut i)) e := by
    intro e he
    have hne : S.pageNo e.1 ≠ x := fun hno => (hlive e.1 hno).1 (mem_map_of_mem he)
    refine (h.live e he).keep (fun y k hy hb _ => ?_) hcut
    have hyx : y ≠ x := by
      rintro rfl
      rw [hy, pageNo_page] at hne
      exact hne rfl
    simp only [Arena.cut, update_of_ne hyx, and_true]
    refine ⟨hb.1, fun j hj => ?_⟩
    have hu := hb.2 j hj
    rw [hold, hu]
    intro hjx
    rw [hjx, hx] at hu
    exact hyx (Use.big.inj hu).symm
  have hfree : ∀ j, 4 ≤ j → j ≤ 11 → ∀ b ∈ update L i l j, b ∉ live.map Prod.fst := by
    intro j hj hj' b hb
    rcases eq_or_ne j i with rfl | hji
    · rw [update_self] at hb
      exact (hlive b (hl b hb)).1
    · rw [update_of_ne hji] at hb
      exact h.free j hj hj' b hb
  have hpage : ∀ j, 4 ≤ j → j ≤ 11 → S.heap + 4096 * x ∉ update L i l j := by
    intro j hj hj' hm
    rcases eq_or_ne j i with rfl | hji
    · rw [update_self] at hm
      exact hn hm
    · rw [update_of_ne hji] at hm
      exact (hlive _ (S.pageNo_page x)).2 j hj hj' hm
  obtain ⟨h₁, h₂, h₃⟩ := live_add hkeep h.nodup hfree (.block hself hsize hclass)
    (hlive _ (S.pageNo_page x)).1 hpage
  refine ⟨hs, (h.pages.setUse (by rw [hx]; nofun) (by rw [hx]; nofun)).congr rfl rfl fun q hq => ?_,
    .inl hh,
    hL.congr rfl rfl fun _ _ hp => hp, fun p j hp => ?_, h₁, h₂, h₃, fun j b hb => ?_,
    fun k hk hk' => ?_⟩
  · have hqx : q ≠ x := by
      rintro rfl
      exact hring hq
    simp only [Arena.cut, update_of_ne hqx, and_self]
  · rcases eq_or_ne p x with rfl | hpx
    · rw [update_self] at hp
      obtain rfl := Use.cut.inj hp
      exact ⟨update_self .., hi, hi'⟩
    · rw [hold p hpx] at hp
      simp only [Arena.cut, update_of_ne hpx]
      exact h.cuts p j hp
  · rw [mem_live_add]
    by_cases hno : S.pageNo b = x
    · have hji := hb.cut
      rw [hno, update_self] at hji
      obtain rfl := Use.cut.inj hji
      rw [update_self]
      exact (hall b hb hno).imp_left .inr
    · have hb' : S.BlockAt use j b := ⟨hb.ge, hb.le, hold _ hno ▸ hb.cut, hb.heap_le, hb.mod⟩
      refine (h.all j b hb').imp .inl fun hm => ?_
      rwa [update_of_ne]
      rintro rfl
      rw [hnil] at hm
      cases hm
  · have hlt := S.cutPages_le use (k - 5)
    have hpc := S.pageCount_le
    rw [cutPages_update hxl (by rw [hx]; nofun), ← h.counters k hk hk']
    rw [← h.counters k hk hk'] at hlt
    rcases eq_or_ne k (mallocPageCounter i) with rfl | hki
    · simp only [Arena.cut, update_self]
      rw [u32_of_lt (by omega), if_pos (by simp only [mallocPageCounter]; omega)]
    · simp only [Arena.cut, update_of_ne hki]
      rw [if_neg (by simp only [mallocPageCounter] at hki; omega), Nat.add_zero]

lemma cutted_counts (hc : S.Counts V use L) (hnil : L i = []) (hl : ∀ b ∈ l, S.pageNo b = x) :
    S.Counts (V.cut i x l.length v heads word) (update use x (.cut i)) (update L i l) := by
  intro p j hp
  rcases eq_or_ne p x with rfl | hpx
  · rw [update_self] at hp
    obtain rfl := Use.cut.inj hp
    simp only [Arena.cut, update_self]
    exact (countP_eq_length.mpr fun b hb => decide_eq_true (hl b hb)).symm
  · rw [update_of_ne hpx] at hp
    simp only [Arena.cut, update_of_ne hpx, hc p j hp]
    rcases eq_or_ne j i with rfl | hji
    · rw [update_self, hnil, countP_nil, eq_comm, countP_eq_zero]
      intro b hb
      simpa [hl b hb] using hpx.symm
    · rw [update_of_ne hji]

end Cut

end Inv

end Smm

end CpuComm
