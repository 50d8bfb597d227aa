import H713.CpuComm.Init.Basic

/-!
# Where the initial shared memory is written

Each part of `InitCommMem` writes to the part of the shared memory that it initialises. The FreeCall
FIFO that `InitCommShareSeqMem` leaves holds the twenty call entries of its share sequence, in
order.
-/

namespace CpuComm

open Machine Bytes List

namespace ShMem

variable (E : ShMem)

variable {E} in
lemma vir2phy_eq {v : ℕ} (h : E.shMemAddrBase ≤ v) (h' : v < E.shMemAddrBase + 192512) :
    E.vir2phy v = v - E.shMemAddrBase + E.shMemAddr := by
  have := E.addr_lt
  simp only [vir2phy, sub32, u32]
  omega

variable {E} in
lemma phy2vir_eq {p : ℕ} (h : E.shMemAddr ≤ p) (h' : p < E.shMemAddr + 192512) :
    E.phy2vir p = p - E.shMemAddr + E.shMemAddrBase := by
  have := E.base_lt
  simp only [phy2vir, sub32, u32]
  omega

/-! ### Locks -/

variable (m : Bytes)

lemma sameOff_commInitSpinLock :
    SameOff E.shMemAddrBase (E.shMemAddrBase + 144) m (E.commInitSpinLock m) := by
  refine sameOff_loop (fun i m hi => ?_) m
  refine (sameOff_wrWords m _ _).mono (by omega) ?_
  simp only [length_cons, length_nil]
  omega

lemma sameOff_assignSpinLock {ids : List ℕ} (h : ∀ id ∈ ids, id < 12) :
    SameOff E.shMemAddrBase (E.shMemAddrBase + 144) m (E.assignSpinLock m ids).1 := by
  induction ids with
  | nil => exact .refl _ _ m
  | cons id ids ih =>
    have hid := h id mem_cons_self
    rw [assignSpinLock]
    split_ifs
    · exact ((SameOff.refl _ _ m).wr8 (by omega)).wr8 (by omega)
    · exact ih fun id hid => h id (mem_cons_of_mem _ hid)

lemma sameOff_commReqestSpinLock :
    SameOff E.shMemAddrBase (E.shMemAddrBase + 144) m (E.commReqestSpinLock m).1 :=
  E.sameOff_assignSpinLock m (by decide)

/-! ### Staging FIFOs -/

lemma sameOff_stagingFifo (seq ring : ℕ) (name : String) :
    SameOff (seq + 32) (seq + 104) m (stagingFifo m seq ring name) :=
  (((sameOff_wrWords m _ _).mono (by omega) (by simp)).trans
    ((sameOff_strncpy _ _ _ _).mono (by omega) (by omega))).wr32 (by omega)

lemma sameOff_mipsStagingFifo (seq : ℕ) (name : String) :
    SameOff seq (seq + 360) m (E.mipsStagingFifo m seq name) :=
  ((((((SameOff.refl _ _ m).zero (by omega)).trans
    ((sameOff_wrWords _ _ _).mono (by omega) (by simp))).zero (by omega)).zero (by omega)).trans
    ((sameOff_strncpy _ _ _ _).mono (by omega) (by omega))).wr32 (by omega)

abbrev SeqRange (m m' : Bytes) : Prop :=
  SameOff (E.shMemAddrBase + 152) (E.shMemAddrBase + 19672) m m'

lemma sameOff_initCommSeqMem {cpu : ℕ} (hcpu : cpu < 2) (m : Bytes) :
    E.SeqRange m (E.initCommSeqMem cpu m) := by
  have hstaging : ∀ m dir ring name, dir < 2 →
      E.SeqRange m (stagingFifo m (E.getShareSeq 0 cpu dir) ring name) := fun m dir ring name hd =>
    (sameOff_stagingFifo m _ _ _).mono (by rw [getShareSeq]; omega) (by rw [getShareSeq]; omega)
  have hmips : ∀ m r dir name, r < 2 → dir < 2 →
      E.SeqRange m (E.mipsStagingFifo m (E.getShareSeq 1 r dir) name) := fun m r dir name hr hd =>
    (E.sameOff_mipsStagingFifo m _ _).mono (by rw [getShareSeq]; omega) (by rw [getShareSeq]; omega)
  rw [initCommSeqMem]
  have hboth := (hstaging m 0 (E.commSockt + 4992 * cpu + 4 * 238) "CallCmd" (by decide)).trans
    (hstaging _ 1 (E.commSockt + 4992 * cpu + 4 * 291) "ReturnCmd" (by decide))
  split_ifs
  · exact (((hboth.trans (hmips _ 0 0 _ (by decide) (by decide))).trans
      (hmips _ 0 1 _ (by decide) (by decide))).trans (hmips _ 1 0 _ (by decide) (by decide))).trans
      (hmips _ 1 1 _ (by decide) (by decide))
  · exact hboth

/-! ### FIFO headers in memory -/

lemma loadFifo_of_keeps {f : ℕ} {m m' : Bytes} (h : Keeps f (f + 28) m m') :
    loadFifo m' f = loadFifo m f := by
  simp only [loadFifo]
  congr 1 <;> exact h.rd32 (by omega) (by omega)

lemma sameOff_storeFifo (f : ℕ) (c : CommFifo) :
    SameOff (f + 4) (f + 12) m (storeFifo m f c) :=
  ((SameOff.refl _ _ m).wr32 (by omega)).wr32 (by omega)

lemma loadFifo_storeFifo (f : ℕ) {c : CommFifo} (hw : c.wrIdx < 4294967296)
    (hp : c.peakCount < 4294967296) :
    loadFifo (storeFifo m f c) f
      = { loadFifo m f with wrIdx := c.wrIdx, peakCount := c.peakCount } := by
  have hsame := sameOff_storeFifo m f c
  simp only [loadFifo, CommFifo.mk.injEq]
  refine ⟨hsame.rd32 (by omega), ?_, ?_, hsame.rd32 (by omega), hsame.rd32 (by omega),
    hsame.rd32 (by omega), hsame.rd32 (by omega)⟩
  · rw [storeFifo, rd32_wr32_of_ne (by omega), rd32_wr32_self, u32_of_lt hw]
  · rw [storeFifo, rd32_wr32_self, u32_of_lt hp]

lemma loadFifo_wrWords (f : ℕ) {ring : ℕ} (h : ring < 4294967296) :
    loadFifo (m.wrWords f [0, 0, 0, 1, 21, 4, ring, 0]) f = ⟨0, 0, 0, 1, 21, 4, ring⟩ := by
  have hword : ∀ i (h : i < 8), _ = _ := fun i h => rd32_wrWords m f [0, 0, 0, 1, 21, 4, ring, 0] h
  simp only [loadFifo, CommFifo.mk.injEq]
  exact ⟨hword 0 (by omega), hword 1 (by omega), hword 2 (by omega), hword 3 (by omega),
    hword 4 (by omega), hword 5 (by omega), (hword 6 (by omega)).trans (u32_of_lt h)⟩

/-! ### FreeCall FIFOs -/

def freeCall (seq j : ℕ) : CommFifo := ⟨0, j, j, 1, 21, 4, E.vir2phy (seq + 192)⟩

lemma freeCall_succ {seq j : ℕ} (hj : j < 20) : (E.freeCall seq j).succ j = j + 1 := by
  rw [CommFifo.succ, u32_of_lt (by omega)]
  exact Nat.mod_eq_of_lt (show j + 1 < 21 by omega)

variable {E} in
lemma freeCall_getItemWr {seq j : ℕ} (hj : j < 20) (hs : E.shMemAddrBase ≤ seq)
    (hs' : seq + 2440 ≤ E.shMemAddrBase + 192512) :
    fifoGetItemWr (E.freeCall seq j) = E.vir2phy (seq + 192) + 4 * j := by
  have := E.addr_lt
  have hphy : E.vir2phy (seq + 192) = _ := vir2phy_eq (by omega) (by omega)
  rw [fifoGetItemWr, CommFifo.wrAddr, if_neg]
  · exact u32_of_lt (show E.vir2phy (seq + 192) + 4 * j < _ by omega)
  · rw [show (E.freeCall seq j).wrIdx = j from rfl, E.freeCall_succ hj]
    exact (Nat.succ_ne_zero j).symm

lemma freeCall_requestItemWr {seq j : ℕ} (hj : j < 20) :
    (fifoRequestItemWr (E.freeCall seq j)).1 = E.freeCall seq (j + 1) := by
  have hcount : fifoGetCount ⟨0, j + 1, j, 1, 21, 4, E.vir2phy (seq + 192)⟩ = j + 1 := by
    simp only [fifoGetCount, CommFifo.countOf, i32, sub32, u32]
    omega
  have hpeak : i32 j = j := i32_of_lt (by omega)
  have hof : ofInt32 (j + 1 : ℤ) = j + 1 := by
    simp only [ofInt32]
    omega
  rw [fifoRequestItemWr, show (E.freeCall seq j).wrIdx = j from rfl, E.freeCall_succ hj,
    if_neg (by simp [freeCall])]
  simp only [freeCall, CommFifo.trackPeak, hcount, hpeak, hof]
  rw [if_pos (by decide), if_pos (by omega)]

/-- What a share sequence looks like when its first `j` call entries are in the FreeCall FIFO. -/
structure Filled (seq j : ℕ) (m : Bytes) : Prop where
  fifo : loadFifo m (seq + 120) = E.freeCall seq j
  item : ∀ i < j, m.rd32 (seq + 192 + 4 * i) = E.vir2phy (seq + 360 + 104 * i)

variable {E} in
lemma Filled.of_keeps {seq j : ℕ} {m m' : Bytes} (h : E.Filled seq j m)
    (hk : Keeps (seq + 120) (seq + 276) m m') (hj : j ≤ 20) : E.Filled seq j m' where
  fifo := by
    rw [← h.fifo]
    exact loadFifo_of_keeps fun x hx hx' => hk x hx (by omega)
  item i hi := by
    rw [hk.rd32 (by omega) (by omega)]
    exact h.item i hi

variable {E} in
lemma Filled.push {seq j : ℕ} {m : Bytes} (h : E.Filled seq j m) (hj : j < 20) {v : ℕ}
    (hv : u32 v = E.vir2phy (seq + 360 + 104 * j)) :
    E.Filled seq (j + 1)
      (storeFifo (m.wr32 (seq + 192 + 4 * j) v) (seq + 120) (E.freeCall seq (j + 1))) := by
  have hring : loadFifo (m.wr32 (seq + 192 + 4 * j) v) (seq + 120) = E.freeCall seq j := by
    rw [← h.fifo]
    exact loadFifo_of_keeps ((sameOff_wr32 m _ v).keeps (by omega))
  constructor
  · rw [loadFifo_storeFifo _ _ (show j + 1 < _ by omega) (show j + 1 < _ by omega), hring]
    rfl
  · intro i hi
    rw [(sameOff_storeFifo _ _ _).rd32 (by omega)]
    obtain rfl | hij := Nat.eq_or_lt_of_le (Nat.lt_succ_iff.mp hi)
    · rw [rd32_wr32_self, hv]
    · rw [rd32_wr32_of_ne (by omega)]
      exact h.item i hij

def Spared (seq x : ℕ) : Prop :=
  x < seq ∨ seq + 2440 ≤ x ∨ (seq + 24 ≤ x ∧ x < seq + 104) ∨ (seq + 276 ≤ x ∧ x < seq + 360) ∨
    ∃ j < 20, seq + 360 + 104 * j + 16 ≤ x ∧ x < seq + 360 + 104 * j + 104

def Spares (seq : ℕ) (m m' : Bytes) : Prop := ∀ x, Spared seq x → m'.byte x = m.byte x

lemma Spares.trans {seq : ℕ} {m m' m'' : Bytes} (h : Spares seq m m') (h' : Spares seq m' m'') :
    Spares seq m m'' :=
  fun x hx => (h' x hx).trans (h x hx)

lemma spares_of_sameOff {seq lo hi : ℕ} {m m' : Bytes} (h : SameOff lo hi m m')
    (hd : (seq + 104 ≤ lo ∧ hi ≤ seq + 276) ∨
      ∃ j < 20, seq + 360 + 104 * j ≤ lo ∧ hi ≤ seq + 360 + 104 * j + 16) : Spares seq m m' := by
  intro x hx
  refine h x ?_
  rcases hd with hd | ⟨i, hi', hd⟩ <;> rcases hx with hx | hx | hx | hx | ⟨j, hj, hx⟩ <;> omega

variable {E} in
lemma fillFreeCall_spec {seq n j : ℕ} {m : Bytes} (hnj : j + n = 20) (hs : E.shMemAddrBase ≤ seq)
    (hs' : seq + 2440 ≤ E.shMemAddrBase + 192512) (h : E.Filled seq j m) :
    E.Filled seq 20 (E.fillFreeCall seq n j m) ∧ Spares seq m (E.fillFreeCall seq n j m) := by
  induction n generalizing j m with
  | zero =>
    obtain rfl : j = 20 := by omega
    exact ⟨h, fun _ _ => rfl⟩
  | succ n ih =>
    have hj : j < 20 := by omega
    have hentry : SameOff (seq + 360 + 104 * j) (seq + 360 + 104 * j + 16) m ((m.wr16
      (seq + 360 + 104 * j + 4) j).wr32
        (seq + 360 + 104 * j + 12) sessionIdInvalid) :=
      ((SameOff.refl _ _ m).wr16 (by omega)).wr32 (by omega)
    rw [fillFreeCall]
    dsimp only
    generalize ((m.wr16 (seq + 360 + 104 * j + 4) j).wr32
        (seq + 360 + 104 * j + 12) sessionIdInvalid) = m₁ at hentry ⊢
    have h₁ : E.Filled seq j m₁ := h.of_keeps (hentry.keeps (by omega)) (by omega)
    have haddr' := E.addr_lt
    have hphy : E.vir2phy (seq + 192) = _ := vir2phy_eq (by omega) (by omega)
    have hvir : E.phy2vir (E.vir2phy (seq + 192) + 4 * j) = seq + 192 + 4 * j := by
      rw [phy2vir_eq (by omega) (by omega)]
      omega
    rw [h₁.fifo, freeCall_getItemWr hj hs hs', if_neg (by omega), hvir]
    have hload : loadFifo (m₁.wr32 (seq + 192 + 4 * j) (E.vir2phy (seq + 360 + 104 * j)))
      (seq + 120)
        = E.freeCall seq j := by
      rw [← h₁.fifo]
      exact loadFifo_of_keeps ((sameOff_wr32 m₁ _ _).keeps (by omega))
    rw [hload, E.freeCall_requestItemWr hj]
    have hlt : E.vir2phy (seq + 360 + 104 * j) < 4294967296 := by
      rw [vir2phy_eq (by omega) (by omega)]
      omega
    obtain ⟨hfill, hspare⟩ := ih (by omega) (h₁.push hj (u32_of_lt hlt))
    refine ⟨hfill, Spares.trans ?_ hspare⟩
    exact ((spares_of_sameOff hentry (.inr ⟨j, hj, by omega⟩)).trans
      (spares_of_sameOff (sameOff_wr32 _ _ _) (.inl (by omega)))).trans
      (spares_of_sameOff (sameOff_storeFifo _ _ _) (.inl (by omega)))

/-! ### Share sequences -/

lemma freeCallFifo_frame (cpu remote dir : ℕ) (m : Bytes) :
    SameOff (E.getShareSeq cpu remote dir) (E.getShareSeq cpu remote dir + 276) m
        (E.freeCallFifo cpu remote dir m) ∧
      Keeps (E.getShareSeq cpu remote dir + 24) (E.getShareSeq cpu remote dir + 104) m
        (E.freeCallFifo cpu remote dir m) := by
  rw [freeCallFifo]
  generalize E.getShareSeq cpu remote dir = seq
  have hhead : SameOff seq (seq + 24) m ((((((m.wr8 seq cpu).wr8 (seq + 1) remote).wr8 (seq + 2)
      dir).wr8 (seq + 8) 0).wr8 (seq + 16) 20).wr32 (seq + 20) sessionIdInvalid) :=
    ((((((SameOff.refl _ _ m).wr8 (by omega)).wr8 (by omega)).wr8 (by omega)).wr8 (by omega)).wr8
      (by omega)).wr32 (by omega)
  generalize (((((m.wr8 seq cpu).wr8 (seq + 1) remote).wr8 (seq + 2)
      dir).wr8 (seq + 8) 0).wr8 (seq + 16) 20).wr32 (seq + 20) sessionIdInvalid = m₁ at hhead ⊢
  have hfifo : SameOff (seq + 104) (seq + 276) m₁ _ :=
    (((((((SameOff.refl _ _ m₁).wr8 (a := seq + 104) (v := 20) (by omega)).wr8
      (a := seq + 105) (v := 0) (by omega)).wr32 (a := seq + 108) (v := sessionIdInvalid)
      (by omega)).zero (a := seq + 192) (n := 84) (by omega)).trans
      ((sameOff_wrWords _ (seq + 120) [0, 0, 0, 1, 21, 4, E.vir2phy (seq + 192), 0]).mono (by omega)
        (by simp))).trans
      ((sameOff_strncpy _ (seq + 152) (if dir = 0 then "FreeCall" else "FreeReturn") 32).mono
        (by omega) (by omega))).wr32 (a := seq + 184) (v := 0) (by omega)
  exact ⟨(hhead.mono (by omega) (by omega)).trans (hfifo.mono (by omega) (by omega)),
    (hhead.keeps (by omega)).trans (hfifo.keeps (by omega))⟩

lemma freeCallFifo_filled {cpu remote dir : ℕ} (hcpu : cpu < 2) (hremote : remote < 2)
    (hdir : dir < 2)
    (m : Bytes) : E.Filled (E.getShareSeq cpu remote dir) 0 (E.freeCallFifo cpu remote dir m) := by
  have hphy : E.vir2phy (E.getShareSeq cpu remote dir + 192) < 4294967296 := by
    have := E.addr_lt
    rw [vir2phy_eq (by rw [getShareSeq]; omega) (by rw [getShareSeq]; omega), getShareSeq]
    omega
  refine ⟨?_, fun i hi => absurd hi (by omega)⟩
  rw [freeCallFifo]
  generalize E.getShareSeq cpu remote dir = seq at hphy ⊢
  rw [loadFifo_of_keeps ((sameOff_wr32 _ _ _).keeps (by omega)),
    loadFifo_of_keeps ((sameOff_strncpy _ _ _ _).keeps (by omega))]
  exact loadFifo_wrWords _ _ hphy

/-- A share sequence with its twenty call entries in the FreeCall FIFO. -/
structure Fresh (seq : ℕ) (m : Bytes) : Prop where
  fifo : loadFifo m (seq + 120) = { E.freeCall seq 20 with trackStats := 0 }
  item : ∀ i < 20, m.rd32 (seq + 192 + 4 * i) = E.vir2phy (seq + 360 + 104 * i)

variable {E} in
lemma Fresh.of_keeps {seq : ℕ} {m m' : Bytes} (h : E.Fresh seq m)
    (hk : Keeps (seq + 120) (seq + 276) m m') : E.Fresh seq m' where
  fifo := by
    rw [← h.fifo]
    exact loadFifo_of_keeps fun x hx hx' => hk x hx (by omega)
  item i hi := by
    rw [hk.rd32 (by omega) (by omega)]
    exact h.item i hi

lemma initShareSeq_spec {cpu remote dir : ℕ} (hcpu : cpu < 2) (hremote : remote < 2)
    (hdir : dir < 2)
    (m : Bytes) :
    (E.initShareSeq cpu remote dir m).2 = true ∧
      E.Fresh (E.getShareSeq cpu remote dir) (E.initShareSeq cpu remote dir m).1 ∧
      Spares (E.getShareSeq cpu remote dir) m (E.initShareSeq cpu remote dir m).1 := by
  have hfilled := E.freeCallFifo_filled hcpu hremote hdir m
  obtain ⟨hsame, hkeep⟩ := E.freeCallFifo_frame cpu remote dir m
  have hs : E.shMemAddrBase ≤ E.getShareSeq cpu remote dir := by rw [getShareSeq]; omega
  have hs' : E.getShareSeq cpu remote dir + 2440 ≤ E.shMemAddrBase + 192512 := by
    rw [getShareSeq]; omega
  have hpos : E.vir2phy (E.getShareSeq cpu remote dir + 192) ≠ 0 := by
    rw [vir2phy_eq (by omega) (by omega)]
    omega
  rw [initShareSeq]
  generalize E.getShareSeq cpu remote dir = seq at *
  rw [hfilled.fifo, freeCall_getItemWr (show 0 < 20 by decide) hs hs', Nat.mul_zero, Nat.add_zero,
    if_neg hpos]
  obtain ⟨hfull, hspare⟩ := fillFreeCall_spec (show 0 + 20 = 20 from rfl) hs hs' hfilled
  refine ⟨rfl, ⟨?_, fun i hi => ?_⟩, ?_⟩
  · have hload := hfull.fifo
    simp only [loadFifo, freeCall, CommFifo.mk.injEq] at hload ⊢
    obtain ⟨h₀, h₁, h₂, -, h₄, h₅, h₆⟩ := hload
    exact ⟨(rd32_wr32_of_ne (by omega)).trans h₀, (rd32_wr32_of_ne (by omega)).trans h₁,
      (rd32_wr32_of_ne (by omega)).trans h₂, rd32_wr32_self _ _ _,
      (rd32_wr32_of_ne (by omega)).trans h₄, (rd32_wr32_of_ne (by omega)).trans h₅,
      (rd32_wr32_of_ne (by omega)).trans h₆⟩
  · rw [rd32_wr32_of_ne (by omega)]
    exact hfull.item i hi
  · refine Spares.trans (fun x hx => ?_) (hspare.trans
      (spares_of_sameOff (sameOff_wr32 _ _ _) (.inl (by omega))))
    rcases hx with hx | hx | hx | hx | ⟨j, hj, hx⟩
    · exact hsame x (by omega)
    · exact hsame x (by omega)
    · exact hkeep x hx.1 hx.2
    · exact hsame x (by omega)
    · exact hsame x (by omega)

lemma Spares.sameOff {seq : ℕ} {m m' : Bytes} (h : Spares seq m m') :
    SameOff seq (seq + 2440) m m' :=
  fun x hx => h x (by rcases hx with hx | hx; exacts [.inl hx, .inr (.inl hx)])

lemma initCommShareSeqMem_spec {cpu remote : ℕ} (hcpu : cpu < 2) (hremote : remote < 2)
    (m : Bytes) :
    (∀ dir < 2, E.Fresh (E.getShareSeq cpu remote dir) (E.initCommShareSeqMem cpu remote m)) ∧
      ∀ x, (∀ dir < 2, Spared (E.getShareSeq cpu remote dir) x) →
        (E.initCommShareSeqMem cpu remote m).byte x = m.byte x := by
  have hseq : E.getShareSeq cpu remote 1 = E.getShareSeq cpu remote 0 + 2440 := by
    simp only [getShareSeq]
  obtain ⟨hgo, hfresh, hspare⟩ := E.initShareSeq_spec hcpu hremote (show 0 < 2 by decide) m
  rw [initCommShareSeqMem, if_pos hgo]
  generalize (E.initShareSeq cpu remote 0 m).1 = m₁ at *
  obtain ⟨-, hfresh', hspare'⟩ := E.initShareSeq_spec hcpu hremote (show 1 < 2 by decide) m₁
  generalize (E.initShareSeq cpu remote 1 m₁).1 = m₂ at *
  refine ⟨fun dir hdir => ?_, fun x hx => ?_⟩
  · obtain rfl | rfl : dir = 0 ∨ dir = 1 := by omega
    · exact hfresh.of_keeps (hspare'.sameOff.keeps (by omega))
    · exact hfresh'
  · exact (hspare' x (hx 1 (by decide))).trans (hspare x (hx 0 (by decide)))

lemma sameOff_initCommShareSeqMem {cpu remote : ℕ} (hcpu : cpu < 2) (hremote : remote < 2)
    (m : Bytes) : E.SeqRange m (E.initCommShareSeqMem cpu remote m) := by
  refine fun x hx => (E.initCommShareSeqMem_spec hcpu hremote m).2 x fun dir hdir => ?_
  rcases hx with hx | hx
  · exact .inl (by rw [getShareSeq]; omega)
  · exact .inr (.inl (by rw [getShareSeq]; omega))

/-! ### Pools, tables and lists -/

lemma keeps_initComponentPool {pool lo hi : ℕ} (hlo : E.shMemAddrBase + 144 ≤ lo)
    (hp : hi ≤ pool ∨ pool + 32656 ≤ lo) (m : Bytes) :
    Keeps lo hi m (E.initComponentPool pool m) := by
  have hpool : ∀ m, SameOff pool (pool + 32656) m ((m.zero pool 32656).wr32 (pool + 8160) 40) :=
    fun m => (sameOff_zero m _ _).wr32 (by omega)
  have hentries : ∀ m n, n ≤ 40 → SameOff pool (pool + 32656) m (Bytes.loop (fun i m =>
      Bytes.loop (fun j m => m.wr32 (pool + 816 * i + 88 + 48 * j) sessionIdInvalid) 16
        (((m.wr8 (pool + 816 * i + 10) i).wr32 (pool + 816 * i + 24) 255).wr16
          (pool + 816 * i + 28) 2)) n m) := by
    intro m n hn
    refine sameOff_loop (fun i m hi => ?_) m
    refine SameOff.trans ?_ (sameOff_loop (fun j m hj => ?_) _)
    · exact (((SameOff.refl _ _ m).wr8 (by omega)).wr32 (by omega)).wr16 (by omega)
    · exact (SameOff.refl _ _ m).wr32 (by omega)
  have hlock : ∀ m v, Keeps lo hi m ((E.commReqestSpinLock m).1.wr32 pool v) := fun m v =>
    ((E.sameOff_commReqestSpinLock m).keeps (.inr hlo)).trans
      ((sameOff_wr32 _ pool v).keeps (by omega))
  have hhead := ((hpool m).keeps hp).trans (hlock _ (E.commReqestSpinLock
    ((m.zero pool 32656).wr32 (pool + 8160) 40)).2)
  rw [initComponentPool]
  split_ifs
  · exact hhead
  · exact hhead.trans ((hentries _ 40 (by omega)).keeps hp)

lemma keeps_initMessagerPool {pool lo hi : ℕ} (hlo : E.shMemAddrBase + 144 ≤ lo)
    (hp : hi ≤ pool ∨ pool + 3208 ≤ lo) (m : Bytes) : Keeps lo hi m (E.initMessagerPool pool m) :=
  ((((sameOff_zero m _ _).keeps hp).trans ((sameOff_wr32 _ _ _).keeps (by omega))).trans
    ((E.sameOff_commReqestSpinLock _).keeps (.inr hlo))).trans
    ((sameOff_wr32 _ _ _).keeps (by omega))

lemma sameOff_initRoutineTable :
    SameOff (E.shMemAddrBase + 30144) (E.shMemAddrBase + 147656) m (E.initRoutineTable m) := by
  refine SameOff.trans ?_ (sameOff_loop (fun i m hi => ?_) _)
  · exact ((SameOff.refl _ _ m).wr32 (by omega)).wr32 (by omega)
  · exact ((SameOff.refl _ _ m).wr32 (by omega)).wr32 (by omega)

lemma sameOff_initListHeads :
    SameOff (E.shMemAddrBase + 19724) (E.shMemAddrBase + 19884) m (E.initListHeads m) :=
  sameOff_loop (fun _ m _ => ((SameOff.refl _ _ m).wr32 (by omega)).wr32 (by omega)) m

lemma initListHeads_rd32 {i : ℕ} (hi : i < 20) :
    (E.initListHeads m).rd32 (E.shMemAddrBase + 19724 + 8 * i) = E.shMemAddrBase + 19724 + 8 * i ∧
      (E.initListHeads m).rd32 (E.shMemAddrBase + 19724 + 8 * i + 4)
        = E.shMemAddrBase + 19724 + 8 * i := by
  have hbase := E.base_lt
  refine loop_establishes (P := fun m => m.rd32 (E.shMemAddrBase + 19724 + 8 * i) = _ ∧
    m.rd32 (E.shMemAddrBase + 19724 + 8 * i + 4) = _) hi (fun m => ?_) (fun j m hij hj hm => ?_) m
  · dsimp only
    rw [rd32_wr32_of_ne (by omega), rd32_wr32_self, rd32_wr32_self, u32_of_lt (by omega)]
    exact ⟨rfl, rfl⟩
  · dsimp only
    rw [rd32_wr32_of_ne (by omega), rd32_wr32_of_ne (by omega), rd32_wr32_of_ne (by omega),
      rd32_wr32_of_ne (by omega)]
    exact hm

lemma keeps_initTables (mode : ℕ) (m : Bytes) :
    Keeps (E.shMemAddrBase + 19696) (E.shMemAddrBase + 19724) m (E.initTables mode m) := by
  have hword : ∀ m off v, off + 4 ≤ 19696 ∨ 19724 ≤ off →
      Keeps (E.shMemAddrBase + 19696) (E.shMemAddrBase + 19724) m
        (m.wr32 (E.shMemAddrBase + off) v) :=
    fun m off v hoff => (sameOff_wr32 m _ v).keeps (by omega)
  have hlocks := fun m => (E.sameOff_commInitSpinLock m).keeps
    (show E.shMemAddrBase + 19724 ≤ _ ∨ _ ≤ E.shMemAddrBase + 19696 by omega)
  have hseq := fun m m' (h : E.SeqRange m m') => h.keeps
    (show E.shMemAddrBase + 19724 ≤ _ ∨ _ ≤ E.shMemAddrBase + 19696 by omega)
  have hentries : ∀ m, Keeps (E.shMemAddrBase + 19696) (E.shMemAddrBase + 19724) m
      (if mode ≠ 2 then
        Bytes.loop
          (fun i m => m.wr32 (E.shMemAddrBase + 30144 + 96 * i + 100) sessionIdInvalid) 1224
          (m.zero (E.shMemAddrBase + 30144) 117504)
      else m) := by
    intro m
    split_ifs
    · exact ((sameOff_zero m _ _).keeps (by omega)).trans ((sameOff_loop (fun i m hi =>
        (sameOff_wr32 m _ _).mono (Nat.le_add_right (E.shMemAddrBase + 30144) (96 * i + 100))
          (show _ ≤ E.shMemAddrBase + 147656 by omega)) _).keeps (by omega))
    · exact fun _ _ _ => rfl
  -- in the order of the source
  refine Keeps.trans (hword m 144 0xDEADBEEF (by omega)) ?_
  refine Keeps.trans (hlocks _) ?_
  refine Keeps.trans (hentries _) ?_
  refine Keeps.trans (hword _ 144 0 (by omega)) ?_
  refine Keeps.trans (hword _ 19672 3 (by omega)) ?_
  refine Keeps.trans (hseq _ _ (E.sameOff_initCommSeqMem (show 0 < 2 by decide) _)) ?_
  refine Keeps.trans (hseq _ _ (E.sameOff_initCommShareSeqMem (show 0 < 2 by decide)
    (show 0 < 2 by decide) _)) ?_
  refine Keeps.trans (hseq _ _ (E.sameOff_initCommShareSeqMem (show 0 < 2 by decide)
    (show 1 < 2 by decide) _)) ?_
  refine Keeps.trans (hseq _ _ (E.sameOff_initCommSeqMem (show 1 < 2 by decide) _)) ?_
  refine Keeps.trans (hseq _ _ (E.sameOff_initCommShareSeqMem (show 1 < 2 by decide)
    (show 0 < 2 by decide) _)) ?_
  refine Keeps.trans (hseq _ _ (E.sameOff_initCommShareSeqMem (show 1 < 2 by decide)
    (show 1 < 2 by decide) _)) ?_
  refine Keeps.trans ((sameOff_zero _ (E.shMemAddrBase + 183536) 8).keeps (by omega)) ?_
  refine Keeps.trans (E.keeps_initComponentPool (by omega)
    (show _ ≤ E.shMemAddrBase + 147656 ∨ _ by omega) _) ?_
  refine Keeps.trans (E.keeps_initMessagerPool (by omega)
    (show _ ≤ E.shMemAddrBase + 180328 ∨ _ by omega) _) ?_
  exact (hword _ 19688 _ (by omega)).trans (hword _ 19692 0 (by omega))

end ShMem

end CpuComm
