import H713.CpuComm.Reset.Basic
import H713.CpuComm.Init.Properties

/-!
# What the messages keep in memory

In every run the headers of the CallCmd and the ReturnCmd FIFO describe their rings, the items of
the latter are call entries of the RETURN direction, and the links of the ReturnList stay among
their nodes.
-/

namespace CpuComm

open Machine Bytes

namespace IpcMem

variable {E : IpcMem} {m m' : Bytes}

/-! ### Addresses -/

variable (E) in
lemma cmdFifo_eq (dir : ℕ) : E.cmdFifo dir = E.shMemAddrBase + 5064 + 2440 * dir := by
  simp only [cmdFifo, getShareSeqR, ShMem.getShareSeq, cpuIdArm, cpuIdMips]
  omega

variable (E) in
lemma entryR_eq (dir slot : ℕ) :
    E.entryR dir slot = E.shMemAddrBase + 5392 + 2440 * dir + 104 * slot := by
  simp only [entryR, getShareSeqR, ShMem.getShareSeq, cpuIdArm, cpuIdMips]
  omega

variable (E) in
lemma cmdRing_eq (dir : ℕ) : E.cmdRing dir = E.commSockt + 5944 + 212 * dir := by
  simp only [cmdRing, sock]
  omega

variable (E) in
lemma returnList_eq : E.returnList = E.commSockt + 6116 := by
  unfold returnList sock
  omega

def nodes (E : IpcMem) : Set ℕ := {a | ∃ slot < 21, a = nodeOf (E.entryR 1 slot)}

lemma node_eq {a : ℕ} (ha : a ∈ E.nodes) : ∃ slot < 21,
    a = E.shMemAddrBase + 7916 + 104 * slot := by
  obtain ⟨slot, hslot, rfl⟩ := ha
  exact ⟨slot, hslot, by rw [nodeOf, entryR_eq]; omega⟩

variable (E) in
lemma places : Places E.returnList E.nodes := by
  have hlist := E.returnList_eq
  have hsock := E.sock_lt
  have hbase := E.base_lt
  have hapart := E.apart
  refine ⟨fun a ha b hb hne => ?_, fun a ha => ?_⟩
  · rcases ha with rfl | ha <;> rcases hb with rfl | hb
    · exact absurd rfl hne
    · obtain ⟨j, hj, rfl⟩ := node_eq hb
      omega
    · obtain ⟨i, hi, rfl⟩ := node_eq ha
      omega
    · obtain ⟨i, hi, rfl⟩ := node_eq ha
      obtain ⟨j, hj, rfl⟩ := node_eq hb
      omega
  · rcases ha with rfl | ha
    · omega
    · obtain ⟨i, hi, rfl⟩ := node_eq ha
      omega

/-! ### The invariant -/

/-- The header describes the 21 words at `ring`. -/
structure Describes (c : CommFifo) (ring : ℕ) : Prop where
  rd_lt : c.rdIdx < 21
  wr_lt : c.wrIdx < 21
  capacity : c.capacity = 21
  itemSize : c.itemSize = 4
  baseAddr : c.baseAddr = ring

structure Inv (E : IpcMem) (m : Bytes) : Prop where
  magic : E.MagicSet m
  header : ∀ dir < 2, Describes (ShMem.loadFifo m (E.cmdFifo dir)) (E.cmdRing dir)
  items : ∀ i, Pending (ShMem.loadFifo m (E.cmdFifo 1)) i →
    ∃ slot < 21, m.rd32 (E.cmdRing 1 + 4 * i) = E.entryR 1 slot
  linked : Linked E.returnList E.nodes m

lemma Inv.items_of_keeps (h : E.Inv m) (hf : Keeps (E.cmdFifo 1) (E.cmdFifo 1 + 28) m m')
    (hr : Keeps (E.cmdRing 1) (E.cmdRing 1 + 84) m m') (i : ℕ)
    (hi : Pending (ShMem.loadFifo m' (E.cmdFifo 1)) i) :
    ∃ slot < 21, m'.rd32 (E.cmdRing 1 + 4 * i) = E.entryR 1 slot := by
  have hlt : i < 21 := hi.1
  rw [ShMem.loadFifo_of_keeps hf] at hi
  rw [hr.rd32 (by omega) (by omega)]
  exact h.items i hi

lemma magicSet_of_keeps (h : E.MagicSet m)
    (h₁ : Keeps (E.shMemAddrBase + 144) (E.shMemAddrBase + 148) m m')
    (h₂ : Keeps (E.shMemAddrBase + 30136) (E.shMemAddrBase + 30140) m m') : E.MagicSet m' :=
  ⟨(h₁.rd32 le_rfl (by omega)).trans h.1, (h₂.rd32 le_rfl (by omega)).trans h.2⟩

lemma Inv.of_reserved (h : E.Inv m) (hk : ∀ x, E.Reserved m x → m'.byte x = m.byte x) :
    E.Inv m' := by
  have hheader : ∀ dir < 2, Keeps (E.cmdFifo dir) (E.cmdFifo dir + 28) m m' :=
    fun dir hd x hx hx' => hk x (.inr (.inr (.inl ⟨dir, hd, hx, hx'⟩)))
  have hring : Keeps (E.cmdRing 1) (E.cmdRing 1 + 84) m m' :=
    fun x hx hx' => hk x (.inr (.inr (.inr (.inl ⟨hx, hx'⟩))))
  refine ⟨magicSet_of_keeps h.magic (fun x hx hx' => hk x (.inl ⟨hx, hx'⟩))
    (fun x hx hx' => hk x (.inr (.inl ⟨hx, hx'⟩))), fun dir hd => ?_,
    h.items_of_keeps (hheader 1 (by decide)) hring, h.linked.of_keeps ?_ ?_⟩
  · rw [ShMem.loadFifo_of_keeps (hheader dir hd)]
    exact h.header dir hd
  · exact fun x hx hx' => hk x (.inr (.inr (.inr (.inr (.inl ⟨hx, hx'⟩)))))
  · exact fun a ha x hx hx' => hk x (.inr (.inr (.inr (.inr (.inr ⟨a, ha, hx, hx'⟩)))))

/-! ### Rings -/

namespace Describes

variable {c : CommFifo} {ring : ℕ} (h : Describes c ring)
include h

lemma succ {i : ℕ} (hi : i < 21) : c.succ i = (i + 1) % 21 := by
  rw [CommFifo.succ, u32_of_lt (by omega), h.capacity]

lemma slot (hlt : ring + 84 ≤ 4294967296) {i : ℕ} (hi : i < 21) : c.slot i = ring + 4 * i := by
  rw [CommFifo.slot, h.baseAddr, h.itemSize]
  exact u32_of_lt (by omega)

lemma getItemWr (hlt : ring + 84 ≤ 4294967296) (hfull : c.rdIdx ≠ (c.wrIdx + 1) % 21) :
    fifoGetItemWr c = ring + 4 * c.wrIdx := by
  rw [fifoGetItemWr, CommFifo.wrAddr, h.succ h.wr_lt, if_neg hfull, h.slot hlt h.wr_lt]

lemma getItemWr_full (hfull : c.rdIdx = (c.wrIdx + 1) % 21) : fifoGetItemWr c = 0 := by
  rw [fifoGetItemWr, CommFifo.wrAddr, h.succ h.wr_lt, if_pos hfull]

lemma requestItemWr (hfull : c.rdIdx ≠ (c.wrIdx + 1) % 21) :
    ∃ p, (fifoRequestItemWr c).1 = { c with wrIdx := (c.wrIdx + 1) % 21, peakCount := p } := by
  rw [fifoRequestItemWr, h.succ h.wr_lt, if_neg hfull]
  exact CommFifo.exists_trackPeak { c with wrIdx := (c.wrIdx + 1) % 21 }

lemma itemRdNext (hne : c.rdIdx ≠ c.wrIdx) :
    ∃ p, (fifoItemRdNext c).1 = { c with rdIdx := (c.rdIdx + 1) % 21, peakCount := p } ∧
      (fifoItemRdNext c).2 = fifoGetItemRd { c with rdIdx := (c.rdIdx + 1) % 21 } := by
  obtain ⟨p, hp⟩ := CommFifo.exists_trackLow { c with rdIdx := (c.rdIdx + 1) % 21 }
  refine ⟨p, ?_, ?_⟩
  · rw [fifoItemRdNext, if_neg hne, h.succ h.rd_lt]
    exact hp
  · rw [fifoItemRdNext, if_neg hne, h.succ h.rd_lt]
    simp only [hp, fifoGetItemRd, CommFifo.rdAddr, CommFifo.slot, eq_comm]

lemma push {p : ℕ} :
    Describes { c with wrIdx := (c.wrIdx + 1) % 21, peakCount := p } ring :=
  ⟨h.rd_lt, Nat.mod_lt _ (by decide), h.capacity, h.itemSize, h.baseAddr⟩

lemma pop {p : ℕ} :
    Describes { c with rdIdx := (c.rdIdx + 1) % 21, peakCount := p } ring :=
  ⟨Nat.mod_lt _ (by decide), h.wr_lt, h.capacity, h.itemSize, h.baseAddr⟩

lemma pending_push {p i : ℕ}
    (hi : Pending { c with wrIdx := (c.wrIdx + 1) % 21, peakCount := p } i) :
    i = c.wrIdx ∨ Pending c i := by
  have hrd := h.rd_lt
  have hwr := h.wr_lt
  simp only [Pending] at hi ⊢
  split_ifs at hi ⊢ <;> omega

lemma pending_pushed {p : ℕ} (hfull : c.rdIdx ≠ (c.wrIdx + 1) % 21) :
    Pending { c with wrIdx := (c.wrIdx + 1) % 21, peakCount := p } c.wrIdx := by
  have hrd := h.rd_lt
  have hwr := h.wr_lt
  simp only [Pending]
  split_ifs <;> omega

lemma pending_pop {p i : ℕ} (hne : c.rdIdx ≠ c.wrIdx)
    (hi : Pending { c with rdIdx := (c.rdIdx + 1) % 21, peakCount := p } i) : Pending c i := by
  have hrd := h.rd_lt
  have hwr := h.wr_lt
  simp only [Pending] at hi ⊢
  split_ifs at hi ⊢ <;> omega

lemma pending_rdIdx (hne : c.rdIdx ≠ c.wrIdx) : Pending c c.rdIdx := by
  have hrd := h.rd_lt
  have hwr := h.wr_lt
  simp only [Pending]
  split_ifs <;> omega

end Describes

lemma loadFifo_storeFifo_u32 (m : Bytes) (f : ℕ) (c : CommFifo) :
    ShMem.loadFifo (ShMem.storeFifo m f c) f
      = { ShMem.loadFifo m f with wrIdx := u32 c.wrIdx, peakCount := u32 c.peakCount } := by
  have hsame := ShMem.sameOff_storeFifo m f c
  simp only [ShMem.loadFifo, CommFifo.mk.injEq]
  refine ⟨hsame.rd32 (by omega), ?_, rd32_wr32_self _ _ _, hsame.rd32 (by omega),
    hsame.rd32 (by omega), hsame.rd32 (by omega), hsame.rd32 (by omega)⟩
  rw [ShMem.storeFifo, rd32_wr32_of_ne (by omega), rd32_wr32_self]

lemma sameOff_storeFifoRd (m : Bytes) (f : ℕ) (c : CommFifo) :
    SameOff f (f + 12) m (storeFifoRd m f c) :=
  ((SameOff.refl _ _ m).wr32 (by omega)).wr32 (by omega)

lemma loadFifo_storeFifoRd (m : Bytes) (f : ℕ) (c : CommFifo) :
    ShMem.loadFifo (storeFifoRd m f c) f
      = { ShMem.loadFifo m f with rdIdx := u32 c.rdIdx, peakCount := u32 c.peakCount } := by
  have hsame := sameOff_storeFifoRd m f c
  simp only [ShMem.loadFifo, CommFifo.mk.injEq]
  refine ⟨?_, ?_, rd32_wr32_self _ _ _, hsame.rd32 (by omega), hsame.rd32 (by omega),
    hsame.rd32 (by omega), hsame.rd32 (by omega)⟩
  · rw [storeFifoRd, rd32_wr32_of_ne (by omega), rd32_wr32_self]
  · rw [storeFifoRd, rd32_wr32_of_ne (by omega), rd32_wr32_of_ne (by omega)]

lemma u32_mod_ring (i : ℕ) : u32 (i % 21) = i % 21 := u32_of_lt (by omega)

lemma Describes.exists_storeFifo {c : CommFifo} {ring f : ℕ} (h : Describes c ring)
    (hroom : c.rdIdx ≠ (c.wrIdx + 1) % 21) (hload : ShMem.loadFifo m f = c) :
    ∃ p, ShMem.loadFifo (ShMem.storeFifo m f (fifoRequestItemWr (ShMem.loadFifo m f)).1) f
      = { c with wrIdx := (c.wrIdx + 1) % 21, peakCount := p } := by
  obtain ⟨p, hp⟩ := h.requestItemWr hroom
  refine ⟨u32 p, ?_⟩
  rw [loadFifo_storeFifo_u32, hload, hp]
  simp only [u32_mod_ring]

lemma Describes.exists_storeFifoRd {c : CommFifo} {ring f : ℕ} (h : Describes c ring)
    (hne : c.rdIdx ≠ c.wrIdx) (hload : ShMem.loadFifo m f = c) :
    ∃ p, ShMem.loadFifo (storeFifoRd m f (fifoItemRdNext (ShMem.loadFifo m f)).1) f
      = { c with rdIdx := (c.rdIdx + 1) % 21, peakCount := p } := by
  obtain ⟨p, hp, -⟩ := h.itemRdNext hne
  refine ⟨u32 p, ?_⟩
  rw [loadFifo_storeFifoRd, hload, hp]
  simp only [u32_mod_ring]

lemma sameOff_setFlag (m : Bytes) (entry flag : ℕ) :
    SameOff (entry + 10) (entry + 12) m (setFlag m entry flag) :=
  sameOff_wr16 _ _ _

/-! ### Entries put into a FIFO -/

variable (E) in
/-- To put the entry of a slot into the FIFO of a direction, its pointer is stored, the entry gets
its flag, and the header moves on. -/
structure Staged (dir slot : ℕ) (m m' : Bytes) : Prop where
  room : (ShMem.loadFifo m (E.cmdFifo dir)).rdIdx
    ≠ ((ShMem.loadFifo m (E.cmdFifo dir)).wrIdx + 1) % 21
  keeps : ∀ lo hi,
    (hi ≤ E.cmdRing dir + 4 * (ShMem.loadFifo m (E.cmdFifo dir)).wrIdx ∨
      E.cmdRing dir + 4 * (ShMem.loadFifo m (E.cmdFifo dir)).wrIdx + 4 ≤ lo) →
    (hi ≤ E.entryR dir slot + 10 ∨ E.entryR dir slot + 12 ≤ lo) →
    (hi ≤ E.cmdFifo dir + 4 ∨ E.cmdFifo dir + 12 ≤ lo) → Keeps lo hi m m'
  header : ∃ p, ShMem.loadFifo m' (E.cmdFifo dir)
    = { ShMem.loadFifo m (E.cmdFifo dir) with
        wrIdx := ((ShMem.loadFifo m (E.cmdFifo dir)).wrIdx + 1) % 21, peakCount := p }
  item : m'.rd32 (E.cmdRing dir + 4 * (ShMem.loadFifo m (E.cmdFifo dir)).wrIdx) = E.entryR dir slot

variable (E) in
lemma entryR_lt {dir slot : ℕ} (hd : dir < 2) (hs : slot < 21) :
    E.entryR dir slot < 4294967296 := by
  have := E.base_lt
  rw [entryR_eq]
  omega

variable (E) in
lemma cmdRing_lt {dir : ℕ} (hd : dir < 2) : E.cmdRing dir + 84 ≤ 4294967296 := by
  have := E.sock_lt
  rw [cmdRing_eq]
  omega

variable (E) in
lemma staged_apart {dir slot wr : ℕ} (hd : dir < 2) (hs : slot < 21) (hw : wr < 21) :
    (E.cmdRing dir + 4 * wr + 4 ≤ E.entryR dir slot + 10 ∨
      E.entryR dir slot + 12 ≤ E.cmdRing dir + 4 * wr) ∧
    (E.cmdRing dir + 4 * wr + 4 ≤ E.cmdFifo dir ∨ E.cmdFifo dir + 28 ≤ E.cmdRing dir + 4 * wr) ∧
    E.cmdFifo dir + 28 ≤ E.entryR dir slot := by
  have := E.apart
  rw [cmdRing_eq, entryR_eq, cmdFifo_eq]
  omega

lemma Staged.of_frame (h : E.Inv m) {dir slot : ℕ} (hd : dir < 2) (hs : slot < 21)
    (hroom : (ShMem.loadFifo m (E.cmdFifo dir)).rdIdx
      ≠ ((ShMem.loadFifo m (E.cmdFifo dir)).wrIdx + 1) % 21)
    (hkeep : ∀ lo hi, (hi ≤ E.entryR dir slot + 10 ∨ E.entryR dir slot + 12 ≤ lo) →
      (hi ≤ E.cmdFifo dir + 4 ∨ E.cmdFifo dir + 12 ≤ lo) →
      Keeps lo hi (m.wr32 (E.cmdRing dir + 4 * (ShMem.loadFifo m (E.cmdFifo dir)).wrIdx)
        (E.entryR dir slot)) m')
    (hheader : ∃ p, ShMem.loadFifo m' (E.cmdFifo dir)
      = { ShMem.loadFifo m (E.cmdFifo dir) with
          wrIdx := ((ShMem.loadFifo m (E.cmdFifo dir)).wrIdx + 1) % 21, peakCount := p }) :
    E.Staged dir slot m m' := by
  obtain ⟨hre, hrf, -⟩ := E.staged_apart hd hs (h.header dir hd).wr_lt
  refine ⟨hroom, fun lo hi h₁ h₂ h₃ => ?_, hheader, ?_⟩
  · exact ((sameOff_wr32 m _ _).keeps (by omega)).trans (hkeep lo hi h₂ h₃)
  · rw [(hkeep _ _ hre (by omega)).rd32 le_rfl le_rfl, rd32_wr32_self,
      u32_of_lt (E.entryR_lt hd hs)]

lemma Inv.loadFifo_wr_ring (h : E.Inv m) {dir slot : ℕ} (hd : dir < 2) (hs : slot < 21) :
    ShMem.loadFifo (m.wr32 (E.cmdRing dir + 4 * (ShMem.loadFifo m (E.cmdFifo dir)).wrIdx)
      (E.entryR dir slot)) (E.cmdFifo dir) = ShMem.loadFifo m (E.cmdFifo dir) := by
  obtain ⟨-, hrf, -⟩ := E.staged_apart hd hs (h.header dir hd).wr_lt
  exact ShMem.loadFifo_of_keeps ((sameOff_wr32 m _ _).keeps (by omega))

lemma addReturn2Fifo_staged (h : E.Inv m) {slot : ℕ} (hs : slot < 21)
    (hva : cpuCommIsMipsVa (E.entryR 1 slot) = false)
    (hfull : fifoGetItemWr (ShMem.loadFifo m (E.cmdFifo 1)) ≠ 0) :
    E.Staged 1 slot m (addReturn2Fifo m (E.cmdFifo 1) (E.entryR 1 slot)) := by
  have hd : 1 < 2 := by decide
  have hdesc := h.header 1 hd
  obtain ⟨-, -, hfe⟩ := E.staged_apart hd hs hdesc.wr_lt
  have hroom := fun h => hfull (hdesc.getItemWr_full h)
  simp only [addReturn2Fifo, hva, Bool.false_eq_true, if_false, if_neg hfull]
  rw [hdesc.getItemWr (E.cmdRing_lt hd) hroom]
  refine .of_frame h hd hs hroom (fun lo hi h₁ h₂ => ?_) (hdesc.exists_storeFifo hroom ?_)
  · exact ((sameOff_setFlag _ _ _).keeps h₁).trans ((ShMem.sameOff_storeFifo _ _ _).keeps h₂)
  · rw [ShMem.loadFifo_of_keeps ((sameOff_setFlag _ _ _).keeps (by omega)),
      h.loadFifo_wr_ring hd hs]

lemma addReturn2Fifo_cases (h : E.Inv m) {slot : ℕ} (hs : slot < 21) :
    addReturn2Fifo m (E.cmdFifo 1) (E.entryR 1 slot) = m ∨
      E.Staged 1 slot m (addReturn2Fifo m (E.cmdFifo 1) (E.entryR 1 slot)) := by
  by_cases hva : cpuCommIsMipsVa (E.entryR 1 slot) = true
  · exact .inl (if_pos hva)
  have hva := Bool.eq_false_iff.mpr hva
  by_cases hfull : fifoGetItemWr (ShMem.loadFifo m (E.cmdFifo 1)) = 0
  · left
    simp only [addReturn2Fifo, hva, Bool.false_eq_true, if_false, hfull, if_true]
  · exact .inr (addReturn2Fifo_staged h hs hva hfull)

lemma commAdd2NewCallFifo_cases (h : E.Inv m) {slot : ℕ} (hs : slot < 21) :
    commAdd2NewCallFifo m (E.cmdFifo 0) (E.entryR 0 slot) = m ∨
      E.Staged 0 slot m (commAdd2NewCallFifo m (E.cmdFifo 0) (E.entryR 0 slot)) := by
  have hd : 0 < 2 := by decide
  have hdesc := h.header 0 hd
  obtain ⟨-, -, hfe⟩ := E.staged_apart hd hs hdesc.wr_lt
  rw [commAdd2NewCallFifo]
  dsimp only
  by_cases hfull : fifoGetItemWr (ShMem.loadFifo m (E.cmdFifo 0)) = 0
  · rw [if_pos hfull]
    exact .inl rfl
  have hroom := fun h => hfull (hdesc.getItemWr_full h)
  rw [if_neg hfull, hdesc.getItemWr (E.cmdRing_lt hd) hroom]
  have hheader := hdesc.exists_storeFifo hroom (h.loadFifo_wr_ring hd hs)
  have hstore := ShMem.sameOff_storeFifo (m.wr32 (E.cmdRing 0
    + 4 * (ShMem.loadFifo m (E.cmdFifo 0)).wrIdx) (E.entryR 0 slot)) (E.cmdFifo 0)
  split_ifs
  · exact .inr (.of_frame h hd hs hroom (fun lo hi _ h₂ => (hstore _).keeps h₂) hheader)
  · refine .inr (.of_frame h hd hs hroom (fun lo hi h₁ h₂ => ?_) ?_)
    · exact ((hstore _).keeps h₂).trans ((sameOff_setFlag _ _ _).keeps h₁)
    · rwa [ShMem.loadFifo_of_keeps ((sameOff_setFlag _ _ _).keeps (by omega))]

lemma Inv.staged (h : E.Inv m) {dir slot : ℕ} (hd : dir < 2) (hs : slot < 21)
    (hst : E.Staged dir slot m m') : E.Inv m' := by
  have hapart := E.apart
  have hring := E.cmdRing_eq dir
  have hring' := E.cmdRing_eq 1
  have hfifo := E.cmdFifo_eq dir
  have hentry := E.entryR_eq dir slot
  have hlist := E.returnList_eq
  have hwr := (h.header dir hd).wr_lt
  have hkeep := hst.keeps
  have hheader : ∀ d < 2, d ≠ dir → Keeps (E.cmdFifo d) (E.cmdFifo d + 28) m m' := by
    intro d hd' hne
    have hfifo' := E.cmdFifo_eq d
    exact hkeep _ _ (by omega) (by omega) (by omega)
  have hmagic₁ : Keeps (E.shMemAddrBase + 144) (E.shMemAddrBase + 148) m m' :=
    hkeep _ _ (by omega) (.inl (by omega)) (.inl (by omega))
  have hmagic₂ : Keeps (E.shMemAddrBase + 30136) (E.shMemAddrBase + 30140) m m' :=
    hkeep _ _ (by omega) (.inr (by omega)) (.inr (by omega))
  have hhead : Keeps E.returnList (E.returnList + 8) m m' :=
    hkeep _ _ (by omega) (by omega) (by omega)
  refine ⟨magicSet_of_keeps h.magic hmagic₁ hmagic₂, fun d hd' => ?_, fun i hi => ?_,
    h.linked.of_keeps hhead fun a ha => ?_⟩
  · by_cases hdd : d = dir
    · subst hdd
      obtain ⟨p, hp⟩ := hst.header
      rw [hp]
      exact (h.header d hd').push
    · rw [ShMem.loadFifo_of_keeps (hheader d hd' hdd)]
      exact h.header d hd'
  · have hi21 : i < 21 := hi.1
    by_cases hdir : dir = 1
    · subst hdir
      obtain ⟨p, hp⟩ := hst.header
      rw [hp] at hi
      by_cases hiw : i = (ShMem.loadFifo m (E.cmdFifo 1)).wrIdx
      · exact ⟨slot, hs, by rw [hiw]; exact hst.item⟩
      · obtain ⟨j, hj, hitem⟩ :=
          h.items i (((h.header 1 hd).pending_push hi).resolve_left hiw)
        refine ⟨j, hj, ?_⟩
        rw [(hkeep _ _ (by omega) (by omega) (by omega)).rd32 le_rfl le_rfl, hitem]
    · exact h.items_of_keeps (hheader 1 (by decide) (Ne.symm hdir))
        (hkeep _ _ (by omega) (by omega) (by omega)) i hi
  · obtain ⟨j, hj, rfl⟩ := node_eq (h.linked.node a ha)
    exact hkeep _ _ (by omega) (by omega) (by omega)

/-! ### The ReturnList -/

structure Clear (E : IpcMem) (lo hi : ℕ) : Prop where
  magic₁ : hi ≤ E.shMemAddrBase + 144 ∨ E.shMemAddrBase + 148 ≤ lo
  magic₂ : hi ≤ E.shMemAddrBase + 30136 ∨ E.shMemAddrBase + 30140 ≤ lo
  header : ∀ dir < 2, hi ≤ E.cmdFifo dir ∨ E.cmdFifo dir + 28 ≤ lo
  ring : hi ≤ E.cmdRing 1 ∨ E.cmdRing 1 + 84 ≤ lo
  list : hi ≤ E.returnList ∨ E.returnList + 8 ≤ lo
  node : ∀ a ∈ E.nodes, hi ≤ a ∨ a + 8 ≤ lo

lemma Inv.of_sameOff {lo hi : ℕ} (h : E.Inv m) (hc : E.Clear lo hi) (hs : SameOff lo hi m m') :
    E.Inv m' := by
  refine h.of_reserved fun x hx => hs x ?_
  rcases hx with hx | hx | ⟨dir, hd, hx⟩ | hx | hx | ⟨a, ha, hx⟩
  · have := hc.magic₁; omega
  · have := hc.magic₂; omega
  · have := hc.header dir hd; omega
  · have := hc.ring; omega
  · have := hc.list; omega
  · have := hc.node a (h.linked.node a ha); omega

lemma clear_flag {slot : ℕ} (hs : slot < 21) :
    E.Clear (E.entryR 1 slot + 10) (E.entryR 1 slot + 12) := by
  have hapart := E.apart
  have hentry := E.entryR_eq 1 slot
  have hring := E.cmdRing_eq 1
  have hlist := E.returnList_eq
  refine ⟨by omega, by omega, fun dir hd => ?_, by omega, by omega, fun a ha => ?_⟩
  · have := E.cmdFifo_eq dir
    omega
  · obtain ⟨j, hj, rfl⟩ := node_eq ha
    omega

lemma clear_count : E.Clear (E.sock + 4 * 279) (E.sock + 4 * 281) := by
  have hapart := E.apart
  have hsock : E.sock = E.commSockt + 4992 := rfl
  have hring := E.cmdRing_eq 1
  have hlist := E.returnList_eq
  refine ⟨by omega, by omega, fun dir hd => ?_, by omega, by omega, fun a ha => ?_⟩
  · have := E.cmdFifo_eq dir
    omega
  · obtain ⟨j, hj, rfl⟩ := node_eq ha
    omega

lemma sameOff_countReturn (m : Bytes) :
    SameOff (E.sock + 4 * 279) (E.sock + 4 * 281) m (E.countReturn m) := by
  rw [countReturn]
  have hcount := (sameOff_wr32 m (E.sock + 4 * 280) (u32 (m.rd32 (E.sock + 4 * 280) + 1))).mono
    (show E.sock + 4 * 279 ≤ _ by omega) (show _ ≤ E.sock + 4 * 281 by omega)
  split_ifs
  · exact hcount.trans ((sameOff_wr8 _ _ _).mono le_rfl (by omega))
  · exact hcount

lemma places_apart {lo hi : ℕ} (hlist : hi ≤ E.returnList ∨ E.returnList + 8 ≤ lo)
    (hnode : hi ≤ E.shMemAddrBase + 7916 ∨ E.shMemAddrBase + 10004 ≤ lo) :
    ∀ a ∈ insert E.returnList E.nodes, hi ≤ a ∨ a + 8 ≤ lo := by
  rintro a (rfl | ha)
  · exact hlist
  · obtain ⟨j, hj, rfl⟩ := node_eq ha
    omega

lemma Inv.of_links (h : E.Inv m) (hlinked : Linked E.returnList E.nodes m')
    (hkeep : ∀ lo hi, (∀ a ∈ insert E.returnList E.nodes, hi ≤ a ∨ a + 8 ≤ lo) →
      Keeps lo hi m m') : E.Inv m' := by
  have hapart := E.apart
  have hring := E.cmdRing_eq 1
  have hlist := E.returnList_eq
  have hheader : ∀ dir < 2, Keeps (E.cmdFifo dir) (E.cmdFifo dir + 28) m m' := by
    intro dir hd
    have := E.cmdFifo_eq dir
    exact hkeep _ _ (places_apart (by omega) (by omega))
  refine ⟨magicSet_of_keeps h.magic (hkeep _ _ (places_apart (by omega) (by omega)))
    (hkeep _ _ (places_apart (by omega) (by omega))), fun dir hd => ?_,
    h.items_of_keeps (hheader 1 (by decide)) (hkeep _ _ (places_apart (by omega) (by omega))),
    hlinked⟩
  rw [ShMem.loadFifo_of_keeps (hheader dir hd)]
  exact h.header dir hd

lemma Inv.listReturn {slot : ℕ} (hs : slot < 21) (h : E.Inv m) :
    E.Inv (E.listReturn m (E.entryR 1 slot)) := by
  have hflag : E.Inv (setFlag m (E.entryR 1 slot) 0x20) :=
    h.of_sameOff (clear_flag hs) (sameOff_setFlag _ _ _)
  have hnode : nodeOf (E.entryR 1 slot) ∈ E.nodes := ⟨slot, hs, rfl⟩
  have hlist := hflag.of_links (hflag.linked.addTail E.places hnode) fun lo hi hd =>
    keeps_listAddTail hnode hflag.linked.tail hd
  exact hlist.of_sameOff clear_count (sameOff_countReturn _)

lemma loadFifo_listReturn {slot : ℕ} (hs : slot < 21) (h : E.Inv m) :
    ShMem.loadFifo (E.listReturn m (E.entryR 1 slot)) (E.cmdFifo 1)
      = ShMem.loadFifo m (E.cmdFifo 1) := by
  have hapart := E.apart
  have hfifo := E.cmdFifo_eq 1
  have hlist := E.returnList_eq
  have hflag : E.Inv (setFlag m (E.entryR 1 slot) 0x20) :=
    h.of_sameOff (clear_flag hs) (sameOff_setFlag _ _ _)
  have hnode : nodeOf (E.entryR 1 slot) ∈ E.nodes := ⟨slot, hs, rfl⟩
  refine ShMem.loadFifo_of_keeps (Keeps.trans (((sameOff_setFlag m _ _).keeps ?_).trans
    (keeps_listAddTail hnode hflag.linked.tail (places_apart (by omega) (by omega))))
    ((sameOff_countReturn _).keeps ?_))
  · have := (clear_flag (E := E) hs).header 1 (by decide)
    omega
  · have := (clear_count (E := E)).header 1 (by decide)
    omega

lemma Inv.nextReturn (h : E.Inv m) (hne : (ShMem.loadFifo m (E.cmdFifo 1)).rdIdx
      ≠ (ShMem.loadFifo m (E.cmdFifo 1)).wrIdx) :
    E.Inv (E.nextReturn m).1 ∧
      (E.nextReturn m).2 = fifoGetItemRd (ShMem.loadFifo (E.nextReturn m).1 (E.cmdFifo 1)) := by
  have hapart := E.apart
  have hring := E.cmdRing_eq 1
  have hfifo := E.cmdFifo_eq 1
  have hlist := E.returnList_eq
  have hdesc := h.header 1 (by decide)
  obtain ⟨p, hp⟩ := hdesc.exists_storeFifoRd hne rfl
  obtain ⟨q, -, hitem⟩ := hdesc.itemRdNext hne
  have hsame := sameOff_storeFifoRd m (E.cmdFifo 1)
    (fifoItemRdNext (ShMem.loadFifo m (E.cmdFifo 1))).1
  rw [IpcMem.nextReturn]
  generalize storeFifoRd m (E.cmdFifo 1) (fifoItemRdNext (ShMem.loadFifo m (E.cmdFifo 1))).1 = m'
    at *
  refine ⟨⟨magicSet_of_keeps h.magic (hsame.keeps (by omega)) (hsame.keeps (by omega)),
    fun dir hd => ?_, fun i hi => ?_, h.linked.of_keeps (hsame.keeps (by omega)) fun a ha => ?_⟩,
    ?_⟩
  · obtain rfl | rfl : dir = 1 ∨ dir = 0 := by omega
    · rw [hp]
      exact hdesc.pop
    · have := E.cmdFifo_eq 0
      rw [ShMem.loadFifo_of_keeps (hsame.keeps (by omega))]
      exact h.header 0 hd
  · have hi21 : i < 21 := hi.1
    rw [hp] at hi
    rw [hsame.rd32 (by omega)]
    exact h.items i (hdesc.pending_pop hne hi)
  · obtain ⟨j, hj, rfl⟩ := node_eq (h.linked.node a ha)
    exact hsame.keeps (by omega)
  · rw [hitem, hp]
    rfl

lemma Inv.pipeLoop {fuel item : ℕ} (h : E.Inv m)
    (hitem : item = fifoGetItemRd (ShMem.loadFifo m (E.cmdFifo 1)))
    (hr : E.pipeLoop fuel item m = some m') : E.Inv m' := by
  induction fuel generalizing item m with
  | zero =>
    rw [IpcMem.pipeLoop] at hr
    split_ifs at hr
    cases hr
    exact h
  | succ fuel ih =>
    rw [IpcMem.pipeLoop] at hr
    split_ifs at hr with hzero
    · cases hr
      exact h
    dsimp only at hr
    -- the item is the oldest one that is pending
    have hne : (ShMem.loadFifo m (E.cmdFifo 1)).rdIdx ≠ (ShMem.loadFifo m (E.cmdFifo 1)).wrIdx :=
      fun heq => hzero (hitem.trans (if_pos heq))
    have hdesc := h.header 1 (by decide)
    obtain ⟨slot, hs, hentry⟩ := h.items _ (hdesc.pending_rdIdx hne)
    have haddr : item = E.cmdRing 1 + 4 * (ShMem.loadFifo m (E.cmdFifo 1)).rdIdx := by
      rw [hitem, fifoGetItemRd, CommFifo.rdAddr, if_neg hne,
        hdesc.slot (E.cmdRing_lt (by decide)) hdesc.rd_lt]
    rw [haddr, hentry] at hr
    split_ifs at hr with hva hidx
    · obtain ⟨hinv, hnext⟩ := h.nextReturn hne
      exact ih hinv hnext hr
    · cases hr
      exact h
    · have hlist := h.listReturn hs
      obtain ⟨hinv, hnext⟩ := hlist.nextReturn (by rw [loadFifo_listReturn hs h]; exact hne)
      exact ih hinv hnext hr

lemma Inv.walkReturns {session fuel cur : ℕ} (h : E.Inv m)
    (hcur : cur = E.returnList ∨ OnList m E.returnList cur)
    (hr : E.walkReturns session fuel cur m = some m') : E.Inv m' := by
  induction fuel generalizing cur with
  | zero =>
    rw [IpcMem.walkReturns] at hr
    split_ifs at hr
    cases hr
    exact h
  | succ fuel ih =>
    rw [IpcMem.walkReturns] at hr
    split_ifs at hr with hend hva hsession
    · cases hr
      exact h
    · cases hr
      exact h
    · cases hr
      have hon := hcur.resolve_left hend
      have hdel := h.of_links (h.linked.del E.places hon) fun lo hi hd =>
        h.linked.keeps_listDel hon hd
      refine hdel.of_sameOff clear_count ((sameOff_wr32 _ _ _).mono ?_ ?_) <;> omega
    · refine ih ?_ hr
      by_cases hnext : m.rd32 cur = E.returnList
      · exact .inl hnext
      · exact .inr (.next (hcur.resolve_left hend) hnext)

lemma Inv.getReturn {session fuel : ℕ} (h : E.Inv m)
    (hr : E.getReturnbySessionId session fuel m = some m') : E.Inv m' := by
  obtain ⟨m₁, hpipe, hwalk⟩ := Option.bind_eq_some_iff.mp hr
  refine (h.pipeLoop rfl hpipe).walkReturns ?_ hwalk
  by_cases hempty : m₁.rd32 E.returnList = E.returnList
  · exact .inl hempty
  · exact .inr (.first hempty)

end IpcMem

end CpuComm
