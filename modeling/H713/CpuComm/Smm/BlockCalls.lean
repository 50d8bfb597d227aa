import Mathlib.Algebra.Ring.Divisibility.Basic
import Mathlib.Data.List.Range
import Mathlib.Tactic.Ring
import H713.CpuComm.Smm.Blocks

/-!
# Allocation and release of blocks

The stores of `__shmalloc` and `Trid_SMM_Free` for blocks of a page, as changes of the free lists. A
block that `__shmalloc` takes off a list is counted down in a page table entry that is not always
the one of its page.
-/

namespace CpuComm

open Machine Function List

namespace Smm

variable {S : Smm} {m : Mem} {V V' : Arena} {use : ℕ → Use} {ps : List ℕ} {L : ℕ → List ℕ}
  {p i b x : ℕ} {l : List ℕ}

/-! ### Size classes -/

lemma classLoop_le {n k v : ℕ} (hv : v < 2 ^ k) : classLoop n i v ≤ i + k := by
  induction n generalizing i k v with
  | zero => exact Nat.le_add_right i k
  | succ n ih =>
    rw [classLoop]
    split_ifs with h0
    · exact Nat.le_add_right i k
    · cases k with
      | zero => omega
      | succ k =>
        have := ih (i := i + 1) (v := v / 2) (k := k) (by rw [pow_succ] at hv; omega)
        omega

lemma le_classLoop {n v : ℕ} (hv : v < 2 ^ n) : (v + 1) * 2 ^ i ≤ 2 ^ classLoop n i v := by
  induction n generalizing i v with
  | zero =>
    obtain rfl : v = 0 := by omega
    simp [classLoop]
  | succ n ih =>
    rw [classLoop]
    split_ifs with h0
    · simp [h0]
    · calc (v + 1) * 2 ^ i ≤ (2 * (v / 2 + 1)) * 2 ^ i := Nat.mul_le_mul_right _ (by omega)
        _ = (v / 2 + 1) * 2 ^ (i + 1) := by ring
        _ ≤ 2 ^ classLoop n (i + 1) (v / 2) := ih (by rw [pow_succ] at hv; omega)

lemma sizeClass_spec {size : ℕ} (hge : 8 ≤ size) (hle : size ≤ 1024) :
    4 ≤ sizeClass size ∧ sizeClass size ≤ 11 ∧ size ≤ 2 ^ sizeClass size := by
  have hle' : sizeClass size ≤ 1 + 10 := classLoop_le (by omega)
  have hpow : (size - 1 + 1) * 2 ^ 1 ≤ 2 ^ sizeClass size := le_classLoop (by omega)
  refine ⟨(Nat.pow_le_pow_iff_right (a := 2) (by decide)).mp ?_, hle', by omega⟩
  omega

/-! ### Changes that the ring does not see -/

lemma Pages.congr (hV : S.Pages V use ps) (hb : V'.brk = V.brk) (hl : V'.limit = V.limit)
    (hring : ∀ q ∈ 0 :: ps, V'.count q = V.count q ∧ V'.next q = V.next q ∧ V'.prev q = V.prev q) :
    S.Pages V' use ps := by
  refine ⟨?_, ?_, ?_, ?_, ?_, ?_, ?_, hV.ring.congr (fun q hq => (hring q hq).2.1) fun q hq => ?_,
    hV.nodup, hV.short, ?_, fun h hh => ?_⟩
  · rw [hb]
    exact hV.brk_mod
  · rw [hb]
    exact hV.brk_ge
  · rw [hb]
    exact hV.brk_le
  · rw [hb]
    exact hV.brk_lt
  · rw [hb]
    exact hV.signed
  · rw [hb, hl]
    exact hV.limit
  · rw [hb]
    exact hV.used
  · refine (hring q ?_).2.2
    exact mem_cons.mpr ((mem_append.mp hq).symm.imp_left mem_singleton.mp)
  · rw [(hring 0 mem_cons_self).1, hV.zero]
  · rw [(hring h (mem_cons_of_mem 0 hh)).1]
    exact hV.runs h hh

lemma Pages.setUse {u : Use} (hV : S.Pages V use ps) (hx : use x ≠ .none)
    (hrun : ∀ r, use x ≠ .run r) : S.Pages V (update use x u) ps := by
  refine ⟨hV.brk_mod, hV.brk_ge, hV.brk_le, hV.brk_lt, hV.signed, hV.limit, fun p hp => ?_, hV.ring,
    hV.nodup, hV.short, hV.zero, fun h hh => ⟨(hV.runs h hh).1, fun k hk => ?_⟩⟩
  · refine hV.used p ?_
    rcases eq_or_ne p x with rfl | hne
    · exact hx
    · rwa [update_of_ne hne] at hp
  · have hk' := (hV.runs h hh).2 k hk
    rw [update_of_ne, hk']
    intro e
    exact hrun h (e ▸ hk')

/-! ### Blocks put on a list -/

lemma Shows.not_outside {a : ℕ} (h : S.Shows m V) (ha : S.InPages a) (h4 : a % 4 = 0) :
    ¬ S.Outside m a := by
  have hheap := S.smmPhy2vir_toPhy le_rfl (Nat.le_add_right S.heap S.size)
  have := S.pt_le_dataStart
  have := ha.1
  have := ha.2
  rw [Outside, h.phy, h.size, hheap, u32_of_lt S.vir_lt]
  omega

lemma push_shows (h : S.Shows m V) (hV : S.Pages V use ps) (hL : S.Lists V use L)
    (hb : S.BlockAt use i b) :
    S.Shows ((m.wr b (V.heads i)).wr (b + 4) (S.toPhy (S.classSlot i)))
      { V with
        word := update (update V.word b (V.heads i)) (b + 4)
          (S.toPhy (S.classSlot i)) } := by
  have hin := hb.inPages hV
  have hlt := hL.head_lt i hb.ge hb.le
  exact (h.setWord hin.1 hlt).setWord hin.2 (S.toPhy_lt _)

lemma pushBlock_shows (h : S.Shows m V) (hV : S.Pages V use ps) (hL : S.Lists V use L)
    (hb : S.BlockAt use i b) : S.Shows (S.pushBlock m i b) (V.push S i b) := by
  have hin := hb.inPages hV
  have h₂ := push_shows h hV hL hb
  have h₃ := h₂.setHead (v := S.toPhy b) hb.ge hb.le (S.toPhy_lt b)
  have hrd := h₃.word b hin.1
  simp only [update_of_ne (show b ≠ b + 4 by omega), update_self] at hrd
  simp only [pushBlock, h.heads i hb.ge hb.le, S.smmVir2phy_eq hb.heap_le, hrd, Arena.push]
  by_cases h0 : V.heads i = 0
  · simp only [h0, ne_eq, not_true_eq_false, if_false, if_true] at h₃ ⊢
    exact h₃
  · rw [if_pos h0, if_neg h0]
    have hold := (hL.block i hb.ge hb.le _ (hL.head_block hb.ge hb.le h0)).inPages hV
    exact h₃.setWord hold.2 (S.toPhy_lt b)

lemma insertBlock_shows (h : S.Shows m V) (hV : S.Pages V use ps) (hL : S.Lists V use L)
    (hb : S.BlockAt use i b) (hp : p < S.pageCount) :
    ∃ v, S.Shows (S.insertBlock m S.pt p i b)
      { V.push S i b with
        next := update V.next p (u32 (V.next p + 1))
        prev := update V.prev p v } := by
  have hin := hb.inPages hV
  have h₂ := push_shows h hV hL hb
  have hlt : ∀ w, w % 4096 / 2 ^ i < 4294967296 := by
    intro w
    have := Nat.div_le_self (w % 4096) (2 ^ i)
    omega
  have h₄ : S.Shows (S.setHdr (if V.heads i ≠ 0 ∧ ¬ S.Outside
      ((m.wr b (V.heads i)).wr (b + 4) (S.toPhy (S.classSlot i))) (S.toVir (V.heads i))
      then ((m.wr b (V.heads i)).wr (b + 4) (S.toPhy (S.classSlot i))).wr
        (S.toVir (V.heads i) + 4) (S.toPhy b)
      else (m.wr b (V.heads i)).wr (b + 4) (S.toPhy (S.classSlot i))) (2 * i + 17) (S.toPhy b))
      (V.push S i b) := by
    rw [Arena.push]
    by_cases h0 : V.heads i = 0
    · simp only [h0, ne_eq, not_true_eq_false, false_and, if_false, if_true] at h₂ ⊢
      exact h₂.setHead hb.ge hb.le (S.toPhy_lt b)
    · have hold := hL.block i hb.ge hb.le _ (hL.head_block hb.ge hb.le h0)
      have h16 := hold.mod16
      have hout := h₂.not_outside (hold.inPages hV).1 (by omega)
      rw [if_pos ⟨h0, hout⟩]
      simp only [if_neg h0]
      exact (h₂.setWord (hold.inPages hV).2 (S.toPhy_lt b)).setHead hb.ge hb.le (S.toPhy_lt b)
  have h₅ := h₄.storeNext hp (V.next p + 1)
  refine ⟨(V.push S i b).word b % 4096 / 2 ^ i, ?_⟩
  simp only [insertBlock, h.heads i hb.ge hb.le, S.smmVir2phy_eq hb.heap_le, h₄.next p hp]
  rw [show (V.push S i b).next p = V.next p from rfl, h₅.word b hin.1]
  exact h₅.setPrev hp (hlt _)

lemma hdr_freed (S : Smm) (m : Mem) (hi : i ≤ 11) :
    S.hdr (S.addHdr (S.addHdr (S.subHdr m 42 (2 ^ i)) 44 (2 ^ i)) 43 1) (freePageCounter i) =
      S.hdr m (freePageCounter i) := by
  rw [freePageCounter, addHdr, hdr_setHdr (by omega) (by omega), if_neg (by omega), addHdr,
    hdr_setHdr (by omega) (by omega), if_neg (by omega), subHdr,
    hdr_setHdr (by omega) (by omega), if_neg (by omega)]

lemma freeBlock_eq (h : S.Shows m V) (hV : S.Pages V use ps) (hb : S.BlockAt use i b)
    (hp : p < S.pageCount) : S.freeBlock m S.pt p i b =
      if V.next p = 4096 / 2 ^ i - 1 ∧ S.hdr m (freePageCounter i) > 1 then
        S.releasePage (S.addHdr (S.addHdr (S.subHdr m 42 (2 ^ i)) 44 (2 ^ i)) 43 1) S.pt i b
      else some (S.insertBlock (S.addHdr (S.addHdr (S.subHdr m 42 (2 ^ i)) 44 (2 ^ i)) 43 1)
        S.pt p i b) := by
  have h16 := hb.mod16
  have hle := hb.le
  have hpow : 0 < 4096 / 2 ^ i :=
    Nat.div_pos (Nat.pow_le_pow_right two_pos (show i ≤ 12 by omega)) (Nat.two_pow_pos i)
  have hdiv : 4096 / 2 ^ i ≤ 4096 := Nat.div_le_self _ _
  rw [freeBlock, if_neg (h.not_outside (hb.inPages hV).1 (by omega)), h.next p hp]
  simp only [S.hdr_freed m hle, sub32_of_le (show 1 ≤ 4096 / 2 ^ i from hpow) (by omega)]

lemma freeBlock_spec (h : S.Shows m V) (hV : S.Pages V use ps) (hL : S.Lists V use L)
    (hb : S.BlockAt use i b) (hp : p < S.pageCount)
    (hok : ¬ (V.next p = 4096 / 2 ^ i - 1 ∧ S.hdr m (freePageCounter i) > 1)) :
    ∃ m' v, S.freeBlock m S.pt p i b = some m' ∧ S.Shows m'
      { V.push S i b with
        next := update V.next p (u32 (V.next p + 1))
        prev := update V.prev p v } := by
  have h₁ := ((h.subHdr (i := 42) (by omega) (2 ^ i)).addHdr (i := 44) (by omega) (2 ^ i)).addHdr
    (i := 43) (by omega) 1
  obtain ⟨v, hs⟩ := insertBlock_shows h₁ hV hL hb hp
  exact ⟨_, v, by rw [freeBlock_eq h hV hb hp, if_neg hok], hs⟩

/-! ### A block taken off a list -/

lemma classSlot_mem (hi : i ≤ 11) :
    S.heap ≤ S.classSlot i ∧ S.classSlot i ≤ S.heap + S.size := by
  have := S.pt_le_dataStart
  have := S.dataStart_le
  simp only [classSlot] at *
  omega

lemma pop_shows (h : S.Shows m V) (hV : S.Pages V use ps) (hL : S.Lists V use L) (hi : 4 ≤ i)
    (hi' : i ≤ 11) (hb : b ∈ L i) :
    S.Shows (S.setHdr (S.wrPhy m (V.word b) 4 (S.toPhy (S.classSlot i))) (2 * i + 17) (V.word b))
      (V.pop S i b) := by
  have hlt := hL.word_lt i hi hi' b hb
  rw [wrPhy, smmPhy2vir, Arena.pop]
  by_cases h0 : V.word b = 0
  · simp only [h0, if_true, ne_eq, not_true_eq_false, if_false]
    exact h.setHead hi hi' (by omega)
  · have hnext := hL.block i hi hi' _ (hL.next_block hV hi hi' hb h0)
    have hheap := S.heap_ge
    have hge := hnext.heap_le
    simp only [if_neg h0]
    rw [if_pos (by omega)]
    exact (h.setWord (hnext.inPages hV).2 (S.toPhy_lt _)).setHead hi hi' hlt

lemma takeBlock_spec (h : S.Shows m V) (hV : S.Pages V use ps) (hL : S.Lists V use L) (hi : 4 ≤ i)
    (hi' : i ≤ 11) (hl : L i = b :: l) (hd : S.countedPage m b < S.pageCount) :
    ∃ m' next prev, S.takeBlock m S.pt i b = (m', b) ∧
      S.Shows m' { V.pop S i b with next := next, prev := prev } ∧
      next = update V.next (S.countedPage m b) (sub32 (V.next (S.countedPage m b)) 1) ∧
      ∀ q, q ≠ S.countedPage m b → prev q = V.prev q := by
  have hbm : b ∈ L i := hl ▸ mem_cons_self
  have hin := (hL.block i hi hi' b hbm).inPages hV
  have hback := hL.back_head hi hi' hl
  have hslot := S.classSlot_mem hi'
  have hheap := S.heap_ge
  have h₂ := pop_shows h hV hL hi hi' hbm
  have hd' : S.countedPage (S.setHdr (S.wrPhy m (V.word b) 4 (S.toPhy (S.classSlot i)))
      (2 * i + 17) (V.word b)) b = S.countedPage m b := by
    simp only [countedPage, h₂.dataBase_eq, h.dataBase_eq]
  have hlt : ∀ w, w % 4096 / 2 ^ i < 4294967296 := by
    intro w
    have := Nat.div_le_self (w % 4096) (2 ^ i)
    omega
  have h₃ := h₂.setNext (v := sub32 (V.next (S.countedPage m b)) 1) hd (u32_lt _)
  have hm₂ : (S.wrPhy m (V.word b) 4 (S.toPhy (S.classSlot i))).wr (S.classSlot i) (V.word b) =
      S.setHdr (S.wrPhy m (V.word b) 4 (S.toPhy (S.classSlot i))) (2 * i + 17) (V.word b) := rfl
  have hcounters : ∀ {m' : Mem} {V' : Arena}, S.Shows m' V' → S.Shows (S.subHdr (S.subHdr
      (S.addHdr (S.addHdr m' 41 1) 42 (2 ^ i)) 43 1) 44 (2 ^ i)) V' := fun h' =>
    (((h'.addHdr (by omega) 1).addHdr (by omega) _).subHdr (by omega) 1).subHdr (by omega) _
  simp only [takeBlock, h.word b hin.1, h.word (b + 4) hin.2, hback, S.toVir_toPhy hslot.1 hslot.2,
    if_pos (show S.classSlot i ≠ 0 by omega), hm₂, hd', h₂.next _ hd]
  rw [show (V.pop S i b).next = V.next from rfl, h₃.word b hin.1]
  split_ifs with h0
  · exact ⟨_, _, _, rfl, hcounters (h₃.setPrev hd (hlt _)), rfl, fun q hq => update_of_ne hq _ _⟩
  · exact ⟨_, _, _, rfl, hcounters h₃, rfl, fun _ _ => rfl⟩

/-! ### A page cut into blocks -/

lemma pushBlocks_spec {bs : List ℕ} (h : S.Shows m V) (hV : S.Pages V use ps)
    (hL : S.Lists V use L) (hbs : ∀ b ∈ bs, S.BlockAt use i b) (hn : ∀ b ∈ bs, b ∉ L i)
    (hnd : bs.Nodup) :
    ∃ heads word, S.Shows (bs.foldl (fun m b => S.pushBlock m i b) m)
        { V with heads := heads, word := word } ∧
      S.Lists { V with heads := heads, word := word } use
        (update L i (bs.reverse ++ L i)) := by
  induction bs generalizing m V L with
  | nil =>
    refine ⟨V.heads, V.word, h, ?_⟩
    rwa [reverse_nil, nil_append, update_eq_self]
  | cons b bs ih =>
    obtain ⟨hnb, hnd⟩ := nodup_cons.mp hnd
    have hb := hbs b mem_cons_self
    have hL' := hL.push hV hb (hn b mem_cons_self)
    have hV' : S.Pages (V.push S i b) use ps := hV.congr rfl rfl fun q _ => ⟨rfl, rfl, rfl⟩
    have hn' : ∀ c ∈ bs, c ∉ update L i (b :: L i) i := by
      intro c hc
      rw [update_self, mem_cons, not_or]
      refine ⟨?_, hn c (mem_cons_of_mem b hc)⟩
      rintro rfl
      exact hnb hc
    obtain ⟨heads, word, hs, hl⟩ := ih (pushBlock_shows h hV hL hb) hV' hL'
      (fun c hc => hbs c (mem_cons_of_mem b hc)) hn' hnd
    refine ⟨heads, word, hs, ?_⟩
    rw [update_idem, update_self] at hl
    rwa [reverse_cons, append_assoc]

lemma page_dvd (S : Smm) (hi : i ≤ 12) (x : ℕ) : 2 ^ i ∣ S.heap + 4096 * x := by
  have hdvd : 2 ^ i ∣ 4096 := pow_dvd_pow 2 hi
  have hheap : 2 ^ i ∣ S.heap := hdvd.trans (Nat.dvd_of_mod_eq_zero S.aligned)
  exact hheap.add (hdvd.mul_right x)

lemma page_blocks (hi : 4 ≤ i) (hi' : i ≤ 11) (hx : 4096 * (x + 1) ≤ S.size) (hcut : use x = .cut i)
    {k : ℕ} (hk : k < 4096 / 2 ^ i) :
    u32 (S.heap + 4096 * x + k * 2 ^ i) = S.heap + 4096 * x + k * 2 ^ i ∧
      S.BlockAt use i (S.heap + 4096 * x + k * 2 ^ i) ∧
      S.pageNo (S.heap + 4096 * x + k * 2 ^ i) = x := by
  have hvir := S.vir_lt
  have hk' : k * 2 ^ i < 4096 := by
    interval_cases i <;> omega
  have hpage : S.pageNo (S.heap + 4096 * x + k * 2 ^ i) = x := by
    simp only [pageNo]
    omega
  refine ⟨u32_of_lt (by omega), ⟨hi, hi', by rwa [hpage], by omega, ?_⟩, hpage⟩
  exact Nat.mod_eq_zero_of_dvd ((S.page_dvd (by omega) x).add (Nat.dvd_mul_left _ k))

lemma cutPage_spec (h : S.Shows m V) (hV : S.Pages V use ps) (hL : S.Lists V use L) (hi : 4 ≤ i)
    (hi' : i ≤ 11) (hnil : L i = []) (hx : use x = .big x) :
    ∃ heads word v l, S.Shows (S.cutPage m S.pt i (S.heap + 4096 * x))
        (V.cut i x l.length v heads word) ∧
      S.Lists { V with heads := heads, word := word } (update use x (.cut i))
        (update L i l) ∧
      S.heap + 4096 * x ∉ l ∧ (∀ b ∈ l, S.pageNo b = x) ∧
      ∀ b, S.BlockAt (update use x (.cut i)) i b → S.pageNo b = x →
        b = S.heap + 4096 * x ∨ b ∈ l := by
  have hbound := hV.used x (by rw [hx]; nofun)
  have hxl : x < S.pageCount := hV.lt_pageCount (by rw [hx]; nofun)
  have hbrk := hV.brk_lt
  have hmod := hV.brk_mod
  have hsize := hV.brk_le
  have hdata := S.pt_le_dataStart
  set page := S.heap + 4096 * x with hpage
  set bs := (List.range' 1 (4096 / 2 ^ i - 1)).map fun k => u32 (page + k * 2 ^ i) with hbs
  have hsub : 4096 / 2 ^ i ≤ 4096 := Nat.div_le_self _ _
  have hblock : ∀ k < 4096 / 2 ^ i, u32 (page + k * 2 ^ i) = page + k * 2 ^ i ∧
      S.BlockAt (update use x (.cut i)) i (page + k * 2 ^ i) ∧
      S.pageNo (page + k * 2 ^ i) = x := fun k hk =>
    page_blocks hi hi' (by omega) (update_self ..) hk
  have hmem : ∀ b ∈ bs, S.BlockAt (update use x (.cut i)) i b ∧ S.pageNo b = x ∧
      page < b := by
    intro b hb
    obtain ⟨k, hk, rfl⟩ := mem_map.mp hb
    obtain ⟨hk, hk'⟩ := mem_range'_1.mp hk
    obtain ⟨he, hblk, hno⟩ := hblock k (by omega)
    rw [he]
    exact ⟨hblk, hno, Nat.lt_add_of_pos_right (Nat.mul_pos hk (Nat.two_pow_pos i))⟩
  have hnd : bs.Nodup := by
    refine List.Nodup.map_on (fun k hk k' hk' he => ?_) nodup_range'
    rw [mem_range'_1] at hk hk'
    rw [(hblock k (by omega)).1, (hblock k' (by omega)).1] at he
    exact Nat.eq_of_mul_eq_mul_right (Nat.two_pow_pos i) (by omega)
  have hcutp : ∀ p j, use p = .cut j → update use x (.cut i) p = .cut j := by
    intro p j hp
    rw [update_of_ne, hp]
    rintro rfl
    rw [hx] at hp
    cases hp
  have hcounter : 4 < mallocPageCounter i ∧ mallocPageCounter i < 25 := by
    simp only [mallocPageCounter]
    omega
  have h₀ := h.setCut hcounter (V.cuts (mallocPageCounter i) + 1)
  have hV₀ : S.Pages { V with
      cuts := update V.cuts (mallocPageCounter i) (u32 (V.cuts (mallocPageCounter i) + 1)) }
      (update use x (.cut i)) ps :=
    (hV.setUse (by rw [hx]; nofun) (by rw [hx]; nofun)).congr rfl rfl fun q _ => ⟨rfl, rfl, rfl⟩
  have hL₀ : S.Lists { V with
      cuts := update V.cuts (mallocPageCounter i) (u32 (V.cuts (mallocPageCounter i) + 1)) }
      (update use x (.cut i)) L :=
    hL.congr rfl rfl hcutp
  obtain ⟨heads, word, hs, hl⟩ := pushBlocks_spec h₀ hV₀ hL₀ (fun b hb => (hmem b hb).1)
    (fun b _ => by rw [hnil]; exact not_mem_nil) hnd
  have hlen : bs.reverse.length = 4096 / 2 ^ i - 1 := by simp [hbs]
  refine ⟨heads, word, 4096 / 2 ^ i - 1, bs.reverse, ?_, ?_, fun hm => ?_, fun b hb => ?_,
    fun b hb hno => ?_⟩
  · have h₁ := hs.setCount (v := i) hxl (by omega)
    have h₂ := h₁.setNext (v := 4096 / 2 ^ i - 1) hxl (by omega)
    have h₃ := h₂.setPrev (v := 4096 / 2 ^ i - 1) hxl (by omega)
    rw [hbs, foldl_map] at hs h₃
    have hidx := pageIndex_eq hs (show 0 < x by omega) (by omega) (by omega)
    rw [← hpage] at hidx
    simp only [cutPage, addHdr, h.cuts _ hcounter.1 hcounter.2]
    rw [hidx, hlen]
    exact ((h₃.setHdr (by omega) _).setHdr (by omega) _).setHdr (by omega) _
  · rw [hnil, append_nil] at hl
    exact hl.congr rfl rfl fun _ _ hp => hp
  · exact lt_irrefl _ (hmem _ (mem_reverse.mp hm)).2.2
  · exact (hmem _ (mem_reverse.mp hb)).2.1
  · -- the multiples of the size in the page
    have hge := hb.page_le
    have hend := hb.end_le
    rw [hno, ← hpage] at hge
    rw [hno] at hend
    obtain ⟨k, hk⟩ : 2 ^ i ∣ b - page :=
      Nat.dvd_sub (Nat.dvd_of_mod_eq_zero hb.mod) (S.page_dvd (by omega) x)
    have hk' : b = page + k * 2 ^ i := by
      rw [Nat.mul_comm, ← hk]
      omega
    have hlt : k + 1 ≤ 4096 / 2 ^ i := by
      rw [Nat.le_div_iff_mul_le (Nat.two_pow_pos i), Nat.succ_mul]
      omega
    rcases Nat.eq_zero_or_pos k with rfl | hpos
    · exact .inl (by rw [hk', Nat.zero_mul, Nat.add_zero])
    · refine .inr (mem_reverse.mpr (mem_map.mpr ⟨k, ?_, ?_⟩))
      · exact mem_range'_1.mpr (by omega)
      · rw [(hblock k (by omega)).1, hk']

end Smm

end CpuComm
