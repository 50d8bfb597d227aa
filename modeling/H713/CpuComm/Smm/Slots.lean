import H713.CpuComm.Init.Properties

/-!
# The descriptors of the heaps

`Trid_SMM_Init` leaves the address and the size of its heap at the offset 19712 of the shared
memory. `smmMalloc` and `Trid_SMM_Free` look for them at 19696 and at 19768. A call is given up to
the choice of its heap.
-/

namespace CpuComm

open Machine Bytes List

namespace ShMem

variable (E : ShMem) (c : Regions)

def slotEntry (slot : ℕ) : ℕ := E.shMemAddrBase + 72 * slot + 19696

variable (m : Bytes)

def slotHeap (slot : ℕ) : Option ℕ :=
  if m.rd32 (E.slotEntry slot) = 0 ∧ m.rd32 (E.slotEntry slot + 4) = 0 then none
  else some (E.phy2vir (m.rd32 (E.slotEntry slot)))

def effectiveSlot (slot : ℤ) (attr : ℕ) : Option ℕ :=
  if slot < 0 then
    if attr.testBit 0 then some 1
    else if !attr.testBit 2 then none
    else if !attr.testBit 1 then none
    else some 0
  else if slot > 1 then none
  else some slot.toNat

def smmMalloc (slot : ℤ) (size attr : ℕ) : Option (ℕ × ℕ) :=
  (effectiveSlot slot attr).bind fun s => (E.slotHeap m s).map fun heap =>
    (heap, if size ≤ 0x800 ∧ s % 2 = 1 then 2049 else size)

def tridSmmFree (midAddr : ℕ) : Option ℕ :=
  if midAddr = 0 then none
  else if m.rd32 (E.slotEntry 0) ≤ midAddr ∧
      midAddr < u32 (m.rd32 (E.slotEntry 0) + m.rd32 (E.slotEntry 0 + 8)) then E.slotHeap m 0
  else if midAddr < m.rd32 (E.slotEntry 1) ∨
      u32 (m.rd32 (E.slotEntry 1) + m.rd32 (E.slotEntry 1 + 8)) ≤ midAddr then none
  else E.slotHeap m 1

def firstHeap : ℕ := heapAt E.firstBase

def secondHeap : ℕ := heapAt (E.secondBase c)

/-- Slot 0 is the first heap, slot 1 the second, if there is one, and a block goes back to its own
heap. -/
structure SlotsAgree (m : Bytes) : Prop where
  first : ∀ size attr, (E.smmMalloc m 0 size attr).map Prod.fst = some E.firstHeap
  second : ∀ size attr, (E.smmMalloc m 1 size attr).map Prod.fst
    = if E.hasSecond c then some (E.secondHeap c) else none
  freeFirst : ∀ addr, E.vir2phy E.firstHeap ≤ addr → addr < E.vir2phy E.firstHeap + E.firstSize c →
    E.tridSmmFree m addr = some E.firstHeap
  freeSecond : E.hasSecond c → ∀ addr, E.vir2phy (E.secondHeap c) ≤ addr →
    addr < E.vir2phy (E.secondHeap c) + c.shMemSize1 → E.tridSmmFree m addr = some (E.secondHeap c)

/-! ### What is left at the place of the descriptors -/

lemma heapAt_mod (base : ℕ) : heapAt base % 4096 = 0 := Nat.mul_mod_left _ _

lemma firstHeap_eq : E.firstHeap = E.shMemAddrBase + 184320 := by
  have := E.base_lt
  have := E.base_aligned
  simp only [firstHeap, heapAt, firstBase, u32]
  omega

lemma keeps_tridSmmInit {lo hi base : ℕ} (size : ℕ) (h : hi ≤ heapAt base ∨ heapAt base + 4096 ≤ lo)
    (hd : hi ≤ E.shMemAddrBase + 19712 ∨ E.shMemAddrBase + 19720 ≤ lo) (m : Bytes) :
    Keeps lo hi m (E.tridSmmInit base size m) := by
  refine ((((sameOff_zero m _ _).keeps h).trans ((sameOff_wrWords _ _ _).keeps ?_)).trans
    ((sameOff_wrWords _ _ _).keeps ?_)).trans ((sameOff_wrWords _ _ _).keeps ?_)
  all_goals
    simp only [length_cons, length_nil]
    omega

def Covers : Prop := E.hasSecond c ∧ E.secondHeap c = E.shMemAddrBase + 16384

variable {E c} in
lemma keeps_initHeaps {lo hi : ℕ} (hc : ¬ E.Covers c) (hlo : E.shMemAddrBase + 16384 ≤ lo)
    (hhi : hi ≤ E.shMemAddrBase + 20480)
    (hd : hi ≤ E.shMemAddrBase + 19712 ∨ E.shMemAddrBase + 19720 ≤ lo) (m : Bytes) :
    Keeps lo hi m (E.initHeaps c m) := by
  have hfirst := E.firstHeap_eq
  have hone : Keeps lo hi m (E.tridSmmInit E.firstBase (E.firstSize c) m) :=
    E.keeps_tridSmmInit _ (by rw [firstHeap] at hfirst; omega) hd m
  rw [initHeaps]
  split_ifs with h2
  · refine hone.trans (E.keeps_tridSmmInit _ ?_ hd _)
    -- both are pages
    have hmod := heapAt_mod (E.secondBase c)
    have hbase := E.base_aligned
    have hne : E.secondHeap c ≠ E.shMemAddrBase + 16384 := fun h => hc ⟨h2, h⟩
    rw [secondHeap] at hne
    omega
  · exact hone

variable {E c} in
lemma keeps_flags {lo hi : ℕ} (hlo : E.shMemAddrBase + 19688 ≤ lo) (m : Bytes) :
    Keeps lo hi m ((m.wr32 (E.shMemAddrBase + 0x4CDC) 5).wr32
      (E.shMemAddrBase + 0x4CE0) 0) :=
  ((sameOff_wr32 m _ _).keeps (by omega)).trans ((sameOff_wr32 _ _ _).keeps (by omega))

variable {E c} in
lemma keeps_afterLists {lo hi : ℕ} (hc : ¬ E.Covers c) (hlo : E.shMemAddrBase + 19688 ≤ lo)
    (hhi : hi ≤ E.shMemAddrBase + 19884)
    (hd : hi ≤ E.shMemAddrBase + 19712 ∨ E.shMemAddrBase + 19720 ≤ lo) (mode : ℕ) (m : Bytes) :
    Keeps lo hi (E.initListHeads (E.initTables mode m)) (E.initCommMem c mode m) := by
  refine Keeps.trans ((E.sameOff_initRoutineTable _).keeps (by omega)) ?_
  refine Keeps.trans ((sameOff_wr32 _ (E.shMemAddrBase + 144) 0xDEADBEEF).keeps (by omega)) ?_
  refine Keeps.trans ((sameOff_wr32 _ (E.shMemAddrBase + 30136) 0xDEADBEEF).keeps (by omega)) ?_
  exact (keeps_initHeaps hc (by omega) (by omega) hd _).trans (keeps_flags hlo _)

variable {E c} in
lemma slot0_rd32 (hc : ¬ E.Covers c) (mode : ℕ) (m : Bytes) {b : ℕ} (hb : E.slotEntry 0 ≤ b)
    (hb' : b + 4 ≤ E.slotEntry 0 + 16) : (E.initCommMem c mode m).rd32 b = m.rd32 b := by
  rw [slotEntry] at hb hb'
  have hkeep : Keeps (E.shMemAddrBase + 19696) (E.shMemAddrBase + 19712) m
      (E.initCommMem c mode m) := by
    refine Keeps.trans (fun x hx hx' => E.keeps_initTables mode m x hx (by omega)) ?_
    exact ((E.sameOff_initListHeads _).keeps (by omega)).trans
      (keeps_afterLists hc (by omega) (by omega) (by omega) mode m)
  exact hkeep.rd32 (by omega) (by omega)

variable {E c} in
lemma slot1_rd32 (hc : ¬ E.Covers c) (mode : ℕ) (m : Bytes) :
    (E.initCommMem c mode m).rd32 (E.slotEntry 1) = E.shMemAddrBase + 19764 ∧
      (E.initCommMem c mode m).rd32 (E.slotEntry 1 + 4) = E.shMemAddrBase + 19772 := by
  have hlist := fun i hi => E.initListHeads_rd32 (E.initTables mode m) (i := i) hi
  have hkeep : Keeps (E.shMemAddrBase + 19724) (E.shMemAddrBase + 19884)
      (E.initListHeads (E.initTables mode m)) (E.initCommMem c mode m) :=
    keeps_afterLists hc (by omega) (by omega) (by omega) mode m
  have h₅ : E.slotEntry 1 = E.shMemAddrBase + 19724 + 8 * 5 + 4 := by
    unfold slotEntry
    omega
  have h₆ : E.slotEntry 1 + 4 = E.shMemAddrBase + 19724 + 8 * 6 := by
    unfold slotEntry
    omega
  rw [hkeep.rd32 (by omega) (by omega), hkeep.rd32 (by omega) (by omega), h₆,
    (hlist 6 (by decide)).1,
    h₅, (hlist 5 (by decide)).2]
  exact ⟨by omega, by omega⟩

variable {E c} in
lemma covered_rd32 (hc : E.Covers c) (mode : ℕ) (m : Bytes) {b : ℕ}
    (hb : E.shMemAddrBase + 19720 ≤ b) (hb' : b + 4 ≤ E.shMemAddrBase + 20480) :
    (E.initCommMem c mode m).rd32 b = 0 := by
  obtain ⟨h2, hpage⟩ := hc
  rw [secondHeap] at hpage
  rw [initCommMem, initHeaps, if_pos h2]
  generalize E.tridSmmInit E.firstBase (E.firstSize c) _ = m₁
  rw [(keeps_flags (Nat.le_trans (by omega) hb) _).rd32 (Nat.le_refl b) (Nat.le_refl (b + 4))]
  -- of the page, only the first words and the descriptor are not zero
  rw [tridSmmInit]
  have hword : ∀ m a vs, b + 4 ≤ a ∨ a + 4 * vs.length ≤ b → (wrWords m a vs).rd32 b = m.rd32 b :=
    fun m a vs h => (sameOff_wrWords m a vs).rd32 h
  rw [hword, hword, hword, rd32_zero (by omega) (by omega)]
  all_goals
    simp only [length_cons, length_nil]
    omega

/-! ### The slots -/

variable {E} in
lemma smmMalloc_of_slot {slot : ℤ} {s size attr : ℕ}
    (h : effectiveSlot slot attr = some s) :
    E.smmMalloc m slot size attr =
      (E.slotHeap m s).map fun heap => (heap, if size ≤ 0x800 ∧ s % 2 = 1 then 2049 else size) := by
  rw [smmMalloc, h, Option.bind_some]

lemma fst_smmMalloc_one : (E.smmMalloc m 1 0 0).map Prod.fst = E.slotHeap m 1 := by
  rw [smmMalloc_of_slot m (show effectiveSlot 1 0 = some 1 from rfl), Option.map_map]
  exact Option.map_id' ..

variable {E c} in
lemma slotHeap_one (hc : ¬ E.Covers c) (mode : ℕ) (m : Bytes) :
    E.slotHeap (E.initCommMem c mode m) 1 = some (E.phy2vir (E.shMemAddrBase + 19764)) := by
  obtain ⟨hlo, -⟩ := slot1_rd32 hc mode m
  rw [slotHeap, hlo, if_neg (by omega)]

variable {E c} in
lemma slotHeap_zero (hc : ¬ E.Covers c) (mode : ℕ) (m : Bytes) :
    E.slotHeap (E.initCommMem c mode m) 0 = E.slotHeap m 0 := by
  rw [slotHeap, slot0_rd32 hc mode m (by omega) (by omega),
    slot0_rd32 hc mode m (by omega) (by omega), slotHeap]

variable {E c} in
lemma slotHeap_covered (hc : E.Covers c) (mode : ℕ) (m : Bytes) :
    E.slotHeap (E.initCommMem c mode m) 1 = none := by
  have hentry : E.slotEntry 1 = E.shMemAddrBase + 19768 := by
    unfold slotEntry
    omega
  rw [slotHeap, hentry, covered_rd32 hc mode m (by omega) (by omega),
    covered_rd32 hc mode m (by omega) (by omega)]
  rfl

lemma phy2vir_listHead_mod : E.phy2vir (E.shMemAddrBase + 19764) % 4096 = 3380 := by
  have := E.base_aligned
  have := E.addr_aligned
  simp only [phy2vir, sub32, u32]
  omega

/-- Slot 1 is never right after `InitCommMem`: it is a list head, unless the header of the second
heap has wiped it out. -/
theorem slots_disagree (mode : ℕ) (m : Bytes) : ¬ E.SlotsAgree c (E.initCommMem c mode m) := by
  intro h
  have hsecond := (E.fst_smmMalloc_one _).symm.trans (h.second 0 0)
  by_cases hc : E.Covers c
  · rw [slotHeap_covered hc, if_pos hc.1] at hsecond
    exact absurd hsecond (by simp)
  · rw [slotHeap_one hc] at hsecond
    split_ifs at hsecond
    have hmod := heapAt_mod (E.secondBase c)
    rw [← secondHeap, ← Option.some.inj hsecond, phy2vir_listHead_mod] at hmod
    exact absurd hmod (by decide)

lemma board_base_aligned : 0xF0800000 % 4096 = 0 := by decide

lemma board_addr_aligned : 0x4E300000 % 4096 = 0 := by decide

lemma board_base_lt : 0xF0800000 + 192512 ≤ 4294967296 := by decide

lemma board_addr_lt : 0x4E300000 + 192512 ≤ 4294967296 := by decide

def boardShMem : ShMem where
  shMemAddrBase := 0xF0800000
  shMemAddr := 0x4E300000
  commSockt := 0xC1000000
  base_pos := Nat.zero_lt_succ _
  addr_pos := Nat.zero_lt_succ _
  base_aligned := board_base_aligned
  addr_aligned := board_addr_aligned
  base_lt := board_base_lt
  addr_lt := board_addr_lt

/-- With 5 MiB and no second region, slot 0 fails, and slot 1 takes an address in the middle of a
page for a heap. -/
theorem slots_board :
    boardShMem.smmMalloc (boardShMem.initCommMem ⟨0x500000, 0, 0⟩ 0 ⟨fun _ => 0⟩) 0 16 0 = none ∧
      boardShMem.smmMalloc (boardShMem.initCommMem ⟨0x500000, 0, 0⟩ 0 ⟨fun _ => 0⟩) 1 16 0
        = some (0x92D04D34, 2049) := by
  have hc : ¬ boardShMem.Covers ⟨0x500000, 0, 0⟩ := fun h => absurd h.1 (by decide)
  constructor
  · rw [smmMalloc_of_slot _ (show effectiveSlot 0 0 = some 0 from rfl), slotHeap_zero hc]
    rfl
  · rw [smmMalloc_of_slot _ (show effectiveSlot 1 0 = some 1 from rfl), slotHeap_one hc]
    rfl

end ShMem

end CpuComm
