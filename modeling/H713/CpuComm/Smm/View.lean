import H713.CpuComm.Smm.Basic
import Mathlib.Tactic.Linarith

/-!
# The parts of the heap

The header, the page table and the pages behind it do not overlap, so the memory of the heap can be
read as a record of its parts. `Smm.Shows m V` says that memory `m` holds the parts `V`, and each
store of the allocator changes one of them.
-/

namespace CpuComm

open Machine Function

/-- What the allocator reads: the break, the limit of the page numbers, the search hint, the heads
of the free lists, the words of the header from 5 to 24, the page table entries and the words of the
pages. -/
@[ext]
structure Arena where
  brk : ℕ
  limit : ℕ
  hint : ℕ
  heads : ℕ → ℕ
  cuts : ℕ → ℕ
  count : ℕ → ℕ
  next : ℕ → ℕ
  prev : ℕ → ℕ
  word : ℕ → ℕ

namespace Smm

variable (S : Smm)

/-! ### Addresses -/

def pageCount : ℕ := smmPageCount S.size

def dataStart : ℕ := smmDataStart S.size

def pt : ℕ := S.heap + 4096

lemma heap_ge : 4096 ≤ S.heap := by
  have := S.base_pos
  have := S.base_le
  have := S.aligned
  omega

lemma pageCount_eq : S.pageCount = (S.size + 4095) / 4096 := by
  have := S.heap_ge
  have := S.vir_lt
  rw [pageCount, smmPageCount, u32_of_lt (by omega)]

lemma dataStart_eq : S.dataStart = (12 * S.pageCount + 4095) / 4096 * 4096 + 4096 := rfl

lemma dataStart_le : S.dataStart ≤ S.size := S.room

lemma pageCount_le : S.pageCount ≤ 1048576 := by
  have := S.pageCount_eq
  have := S.vir_lt
  omega

lemma pt_le_dataStart : 4096 + 12 * S.pageCount ≤ S.dataStart := by
  rw [dataStart_eq]
  omega

lemma dataStart_mod : S.dataStart % 4096 = 0 := by
  rw [dataStart_eq]
  omega

lemma toPhy_eq {v : ℕ} (h : S.heap ≤ v) (h' : v ≤ S.heap + S.size) :
    S.toPhy v = v - S.shMemAddrBase + S.shMemAddr := by
  have := S.base_le
  have := S.phy_lt
  simp only [toPhy, sub32, u32]
  omega

lemma toPhy_ne_zero {v : ℕ} (h : S.heap ≤ v) (h' : v ≤ S.heap + S.size) : S.toPhy v ≠ 0 := by
  have := S.addr_pos
  rw [S.toPhy_eq h h']
  omega

lemma toPhy_lt (v : ℕ) : S.toPhy v < 4294967296 := u32_lt _

lemma toVir_toPhy {v : ℕ} (h : S.heap ≤ v) (h' : v ≤ S.heap + S.size) :
    S.toVir (S.toPhy v) = v := by
  have := S.base_le
  have := S.vir_lt
  rw [S.toPhy_eq h h']
  simp only [toVir, sub32, u32]
  omega

lemma smmPhy2vir_toPhy {v : ℕ} (h : S.heap ≤ v) (h' : v ≤ S.heap + S.size) :
    S.smmPhy2vir (S.toPhy v) = v := by
  rw [smmPhy2vir, if_neg (S.toPhy_ne_zero h h'), S.toVir_toPhy h h']

lemma smmVir2phy_eq {v : ℕ} (h : S.heap ≤ v) : S.smmVir2phy v = S.toPhy v := by
  have := S.heap_ge
  rw [smmVir2phy, if_neg (by omega)]

/-! ### Stores do not meet -/

def InPages (a : ℕ) : Prop := S.heap + S.dataStart ≤ a ∧ a < S.heap + S.size

variable {S} {m : Mem} {i j p q k l a b v : ℕ}

lemma rd_wr (ha : a < 4294967296) (hb : b < 4294967296) :
    (m.wr b v).rd a = if a = b then u32 v else m.rd a := by
  rw [Mem.rd, Mem.wr, u32_of_lt ha, u32_of_lt hb, Mem.rd, u32_of_lt ha]
  exact update_apply m.word b (u32 v) a

lemma InPages.lt (h : S.InPages a) : a < 4294967296 := h.2.trans S.vir_lt

lemma hdr_addr (hi : i < 1024) : S.heap + 4 * i < S.pt ∧ S.pt < 4294967296 := by
  have := S.vir_lt
  have := S.pt_le_dataStart
  have := S.dataStart_le
  simp only [pt]
  omega

lemma pte_addr (hp : p < S.pageCount) (hk : k < 3) :
    S.pt ≤ Mem.pteAddr S.pt p k ∧ Mem.pteAddr S.pt p k < S.heap + S.dataStart ∧
      S.heap + S.dataStart < 4294967296 := by
  have := S.vir_lt
  have := S.pt_le_dataStart
  have := S.dataStart_le
  simp only [pt, Mem.pteAddr]
  omega

lemma hdr_setHdr (hi : i < 1024) (hj : j < 1024) :
    S.hdr (S.setHdr m j v) i = if i = j then u32 v else S.hdr m i := by
  have h := hdr_addr (S := S) hi
  have h' := hdr_addr (S := S) hj
  rw [hdr, setHdr, rd_wr (by omega) (by omega), hdr]
  congr 1
  simp

lemma hdr_setPte (hi : i < 1024) (hp : p < S.pageCount) (hk : k < 3) :
    S.hdr (m.setPte S.pt p k v) i = S.hdr m i := by
  have h := hdr_addr (S := S) hi
  have h' := pte_addr hp hk
  rw [hdr, Mem.setPte, rd_wr (by omega) (by omega), if_neg (by omega), hdr]

lemma hdr_wr (hi : i < 1024) (ha : S.InPages a) : S.hdr (m.wr a v) i = S.hdr m i := by
  have h := hdr_addr (S := S) hi
  have h' := ha.lt
  have := ha.1
  have := S.pt_le_dataStart
  rw [hdr, rd_wr (by omega) h', if_neg (by simp only [pt] at h; omega), hdr]

lemma pte_setHdr (hp : p < S.pageCount) (hk : k < 3) (hj : j < 1024) :
    (S.setHdr m j v).pte S.pt p k = m.pte S.pt p k := by
  have h := pte_addr hp hk
  have h' := hdr_addr (S := S) hj
  rw [Mem.pte, setHdr, rd_wr (by omega) (by omega), if_neg (by omega), Mem.pte]

lemma pte_setPte (hp : p < S.pageCount) (hk : k < 3) (hq : q < S.pageCount) (hl : l < 3) :
    (m.setPte S.pt q l v).pte S.pt p k = if p = q ∧ k = l then u32 v else m.pte S.pt p k := by
  have h := pte_addr hp hk
  have h' := pte_addr hq hl
  rw [Mem.pte, Mem.setPte, rd_wr (by omega) (by omega), Mem.pte]
  congr 1
  simp only [Mem.pteAddr, eq_iff_iff]
  omega

lemma pte_wr (hp : p < S.pageCount) (hk : k < 3) (ha : S.InPages a) :
    (m.wr a v).pte S.pt p k = m.pte S.pt p k := by
  have h := pte_addr hp hk
  have := ha.1
  rw [Mem.pte, rd_wr (by omega) ha.lt, if_neg (by omega), Mem.pte]

lemma rd_setHdr (ha : S.InPages a) (hj : j < 1024) : (S.setHdr m j v).rd a = m.rd a := by
  have h := hdr_addr (S := S) hj
  have := ha.1
  have := S.pt_le_dataStart
  rw [setHdr, rd_wr ha.lt (by omega), if_neg (by simp only [pt] at h; omega)]

lemma rd_setPte (ha : S.InPages a) (hp : p < S.pageCount) (hk : k < 3) :
    (m.setPte S.pt p k v).rd a = m.rd a := by
  have h := pte_addr hp hk
  have := ha.1
  rw [Mem.setPte, rd_wr ha.lt (by omega), if_neg (by omega)]

/-! ### Memory that holds the parts -/

/-- Memory `m` holds the parts `V`, and the words of the header that never change. -/
structure Shows (S : Smm) (m : Mem) (V : Arena) : Prop where
  base : S.hdr m 0 = S.toPhy S.pt
  table : S.hdr m 1 = S.toPhy S.pt
  pages : S.hdr m 2 = S.pageCount
  size : S.hdr m 46 = S.size
  phy : S.hdr m 47 = S.toPhy S.heap
  brk : S.hdr m 45 = V.brk
  limit : S.hdr m 4 = V.limit
  hint : S.hdr m 3 = V.hint
  heads : ∀ i, 4 ≤ i → i ≤ 11 → S.hdr m (2 * i + 17) = V.heads i
  cuts : ∀ k, 4 < k → k < 25 → S.hdr m k = V.cuts k
  count : ∀ p < S.pageCount, m.pte S.pt p 0 = V.count p
  next : ∀ p < S.pageCount, m.pte S.pt p 1 = V.next p
  prev : ∀ p < S.pageCount, m.pte S.pt p 2 = V.prev p
  word : ∀ a, S.InPages a → m.rd a = V.word a

variable {V : Arena}

namespace Shows

lemma pt_le (S : Smm) : S.heap ≤ S.pt ∧ S.pt ≤ S.heap + S.size := by
  have := S.pt_le_dataStart
  have := S.dataStart_le
  simp only [pt]
  omega

lemma pageTable_eq (h : S.Shows m V) : S.pageTable m = S.pt := by
  rw [pageTable, h.table, S.smmPhy2vir_toPhy (pt_le S).1 (pt_le S).2]

lemma dataBase_eq (h : S.Shows m V) : S.dataBase m = S.pt := by
  rw [dataBase, h.base, S.smmPhy2vir_toPhy (pt_le S).1 (pt_le S).2]

lemma store_hdr {V' : Arena} (h : S.Shows m V) (hi : 2 < i ∧ i < 46)
    (hb : (if 45 = i then u32 v else V.brk) = V'.brk)
    (hl : (if 4 = i then u32 v else V.limit) = V'.limit)
    (hh : (if 3 = i then u32 v else V.hint) = V'.hint)
    (hheads : ∀ c, 4 ≤ c → c ≤ 11 → (if 2 * c + 17 = i then u32 v else V.heads c) = V'.heads c)
    (hcuts : ∀ k, 4 < k → k < 25 → (if k = i then u32 v else V.cuts k) = V'.cuts k)
    (hc : V'.count = V.count) (hn : V'.next = V.next) (hpr : V'.prev = V.prev)
    (hw : V'.word = V.word) : S.Shows (S.setHdr m i v) V' := by
  have hi' : i < 1024 := by omega
  refine ⟨?_, ?_, ?_, ?_, ?_, ?_, ?_, ?_, fun c hc hc' => ?_, fun k hk hk' => ?_,
    fun p hp => ?_, fun p hp => ?_, fun p hp => ?_, fun a ha => ?_⟩
  · rw [hdr_setHdr (by omega) hi', if_neg (by omega), h.base]
  · rw [hdr_setHdr (by omega) hi', if_neg (by omega), h.table]
  · rw [hdr_setHdr (by omega) hi', if_neg (by omega), h.pages]
  · rw [hdr_setHdr (by omega) hi', if_neg (by omega), h.size]
  · rw [hdr_setHdr (by omega) hi', if_neg (by omega), h.phy]
  · rw [hdr_setHdr (by omega) hi', h.brk, hb]
  · rw [hdr_setHdr (by omega) hi', h.limit, hl]
  · rw [hdr_setHdr (by omega) hi', h.hint, hh]
  · rw [hdr_setHdr (by omega) hi', h.heads c hc hc', hheads c hc hc']
  · rw [hdr_setHdr (by omega) hi', h.cuts k hk hk', hcuts k hk hk']
  · rw [pte_setHdr hp (by omega) hi', h.count p hp, hc]
  · rw [pte_setHdr hp (by omega) hi', h.next p hp, hn]
  · rw [pte_setHdr hp (by omega) hi', h.prev p hp, hpr]
  · rw [rd_setHdr ha hi', h.word a ha, hw]

lemma setHdr (h : S.Shows m V) (hi : 40 < i ∧ i < 45) (v : ℕ) : S.Shows (S.setHdr m i v) V := by
  refine h.store_hdr (by omega) (if_neg ?_) (if_neg ?_) (if_neg ?_) (fun c _ _ => if_neg ?_)
    (fun k _ _ => if_neg ?_) rfl rfl rfl rfl
  all_goals omega

lemma setCut (h : S.Shows m V) (hi : 4 < i ∧ i < 25) (v : ℕ) :
    S.Shows (S.setHdr m i v) { V with cuts := update V.cuts i (u32 v) } := by
  refine h.store_hdr (by omega) (if_neg (by omega)) (if_neg (by omega)) (if_neg (by omega))
    (fun c _ _ => if_neg (by omega)) (fun k _ _ => ?_) rfl rfl rfl rfl
  exact (update_apply V.cuts i (u32 v) k).symm

lemma addHdr (h : S.Shows m V) (hi : 40 < i ∧ i < 45) (v : ℕ) :
    S.Shows (S.addHdr m i v) V := h.setHdr hi _

lemma subHdr (h : S.Shows m V) (hi : 40 < i ∧ i < 45) (v : ℕ) :
    S.Shows (S.subHdr m i v) V := h.setHdr hi _

lemma setBrk (h : S.Shows m V) (hv : v < 4294967296) :
    S.Shows (S.setHdr m 45 v) { V with brk := v } := by
  refine h.store_hdr (by omega) (if_pos rfl |>.trans (u32_of_lt hv)) (if_neg (by omega))
    (if_neg (by omega)) (fun c _ _ => if_neg (by omega)) (fun k _ _ => if_neg (by omega)) rfl rfl
    rfl rfl

lemma setLimit (h : S.Shows m V) (hv : v < 4294967296) :
    S.Shows (S.setHdr m 4 v) { V with limit := v } := by
  refine h.store_hdr (by omega) (if_neg (by omega)) (if_pos rfl |>.trans (u32_of_lt hv))
    (if_neg (by omega)) (fun c _ _ => if_neg (by omega)) (fun k _ _ => if_neg (by omega)) rfl rfl
    rfl rfl

lemma setHint (h : S.Shows m V) (hv : v < 4294967296) :
    S.Shows (S.setHdr m 3 v) { V with hint := v } := by
  refine h.store_hdr (by omega) (if_neg (by omega)) (if_neg (by omega))
    (if_pos rfl |>.trans (u32_of_lt hv)) (fun c _ _ => if_neg (by omega))
    (fun k _ _ => if_neg (by omega)) rfl rfl rfl rfl

lemma setHead (h : S.Shows m V) (hi : 4 ≤ i) (hi' : i ≤ 11) (hv : v < 4294967296) :
    S.Shows (S.setHdr m (2 * i + 17) v) { V with heads := update V.heads i v } := by
  refine h.store_hdr (by omega) (if_neg (by omega)) (if_neg (by omega)) (if_neg (by omega))
    (fun c _ _ => ?_) (fun k _ _ => if_neg (by omega)) rfl rfl rfl rfl
  simp only [update_apply, u32_of_lt hv]
  congr 1
  simp only [eq_iff_iff]
  omega

lemma of_hdr {m' : Mem} {V' : Arena} (h : S.Shows m V) (hm : ∀ i < 1024, S.hdr m' i = S.hdr m i)
    (hb : V'.brk = V.brk) (hl : V'.limit = V.limit) (hh : V'.hint = V.hint)
    (hheads : V'.heads = V.heads) (hcuts : V'.cuts = V.cuts)
    (hc : ∀ p < S.pageCount, m'.pte S.pt p 0 = V'.count p)
    (hn : ∀ p < S.pageCount, m'.pte S.pt p 1 = V'.next p)
    (hpr : ∀ p < S.pageCount, m'.pte S.pt p 2 = V'.prev p)
    (hw : ∀ a, S.InPages a → m'.rd a = V'.word a) : S.Shows m' V' := by
  refine ⟨?_, ?_, ?_, ?_, ?_, ?_, ?_, ?_, fun i hi hi' => ?_, fun k hk hk' => ?_, hc, hn, hpr, hw⟩
  all_goals rw [hm _ (by omega)]
  exacts [h.base, h.table, h.pages, h.size, h.phy, hb ▸ h.brk, hl ▸ h.limit, hh ▸ h.hint,
    hheads ▸ h.heads i hi hi', hcuts ▸ h.cuts k hk hk']

lemma store_pte {V' : Arena} (h : S.Shows m V) (hp : p < S.pageCount) (hk : k < 3)
    (hc : ∀ q, (if q = p ∧ 0 = k then u32 v else V.count q) = V'.count q)
    (hn : ∀ q, (if q = p ∧ 1 = k then u32 v else V.next q) = V'.next q)
    (hpr : ∀ q, (if q = p ∧ 2 = k then u32 v else V.prev q) = V'.prev q)
    (hb : V'.brk = V.brk) (hl : V'.limit = V.limit) (hh : V'.hint = V.hint)
    (hheads : V'.heads = V.heads) (hcuts : V'.cuts = V.cuts) (hw : V'.word = V.word) :
    S.Shows (m.setPte S.pt p k v) V' := by
  refine h.of_hdr (fun i hi => hdr_setPte hi hp hk) hb hl hh hheads hcuts (fun q hq => ?_)
    (fun q hq => ?_) (fun q hq => ?_) fun a ha => ?_
  · rw [pte_setPte hq (by omega) hp hk, h.count q hq, hc]
  · rw [pte_setPte hq (by omega) hp hk, h.next q hq, hn]
  · rw [pte_setPte hq (by omega) hp hk, h.prev q hq, hpr]
  · rw [rd_setPte ha hp hk, h.word a ha, hw]

lemma setCount (h : S.Shows m V) (hp : p < S.pageCount) (hv : v < 4294967296) :
    S.Shows (m.setPte S.pt p 0 v) { V with count := update V.count p v } := by
  refine h.store_pte hp (by omega) (fun q => ?_) (fun q => ?_) (fun q => ?_) rfl rfl rfl rfl rfl
    rfl <;>
    simp [update_apply, u32_of_lt hv]

lemma storeNext (h : S.Shows m V) (hp : p < S.pageCount) (v : ℕ) :
    S.Shows (m.setPte S.pt p 1 v) { V with next := update V.next p (u32 v) } := by
  refine h.store_pte hp (by omega) (fun q => ?_) (fun q => ?_) (fun q => ?_) rfl rfl rfl rfl rfl
    rfl <;>
    simp [update_apply]

lemma setNext (h : S.Shows m V) (hp : p < S.pageCount) (hv : v < 4294967296) :
    S.Shows (m.setPte S.pt p 1 v) { V with next := update V.next p v } := by
  have := h.storeNext hp v
  rwa [u32_of_lt hv] at this

lemma setPrev (h : S.Shows m V) (hp : p < S.pageCount) (hv : v < 4294967296) :
    S.Shows (m.setPte S.pt p 2 v) { V with prev := update V.prev p v } := by
  refine h.store_pte hp (by omega) (fun q => ?_) (fun q => ?_) (fun q => ?_) rfl rfl rfl rfl rfl
    rfl <;>
    simp [update_apply, u32_of_lt hv]

lemma setWord (h : S.Shows m V) (ha : S.InPages a) (hv : v < 4294967296) :
    S.Shows (m.wr a v) { V with word := update V.word a v } := by
  refine h.of_hdr (fun i hi => hdr_wr hi ha) rfl rfl rfl rfl rfl (fun q hq => ?_)
    (fun q hq => ?_) (fun q hq => ?_) fun b hb => ?_
  · rw [pte_wr hq (by omega) ha, h.count q hq]
  · rw [pte_wr hq (by omega) ha, h.next q hq]
  · rw [pte_wr hq (by omega) ha, h.prev q hq]
  · rw [rd_wr hb.lt ha.lt, h.word b hb, u32_of_lt hv]
    exact (update_apply V.word a v b).symm

end Shows

end Smm

end CpuComm
