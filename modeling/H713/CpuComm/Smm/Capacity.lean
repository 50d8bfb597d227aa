import H713.CpuComm.Smm.Properties

/-!
# Requests that the heap has no room for

A request that does not fit returns `0` and changes nothing, if it adds up with the break to a
signed word. A larger one is rounded to no pages at all, or makes the break negative.
-/

namespace CpuComm

open Machine List

namespace Smm

variable {S : Smm} {s : State} {m m' : Mem} {V V' : Arena} {use : ℕ → Use} {ps l : List ℕ}
  {L : ℕ → List ℕ} {a b i k p v x size : ℕ}

/-! ### The property and its condition -/

structure Served (S : Smm) (m : Mem) (size : ℕ) (b : Mem × ℕ) : Prop where
  capacity : S.hdr m 46 < size → b.2 = 0
  room : b.2 ≠ 0 → S.heap + S.dataStart ≤ b.2 ∧ b.2 + size ≤ S.heap + S.hdr b.1 45 ∧
    S.hdr b.1 45 ≤ S.hdr b.1 46
  same : b.2 = 0 → b.1 = m

def CanServe (S : Smm) (s : State) (size : ℕ) : Prop :=
  size = 0 ∨ if size ≤ 2048 ∧ S.listHead s size ≠ 0 then
    1024 < size → S.Outside s.mem (S.listHead s size)
  else S.RoomFor s size

instance : Decidable (S.CanServe s size) := inferInstanceAs (Decidable (_ ∨ _))

lemma served_fail (S : Smm) (m : Mem) (size : ℕ) : S.Served m size (m, 0) :=
  ⟨fun _ => rfl, fun h => absurd rfl h, fun _ => rfl⟩

lemma served_at (h : S.Shows m V) (hbrk : S.hdr m' 45 = V'.brk) (hsize : S.hdr m' 46 = S.size)
    (hge : S.heap + S.dataStart ≤ a) (hle : a + size ≤ S.heap + V'.brk) (hb : V'.brk ≤ S.size) :
    S.Served m size (m', a) := by
  have hheap := S.heap_ge
  refine ⟨fun hlt => ?_, fun _ => ⟨hge, ?_, ?_⟩, fun h0 => ?_⟩
  · rw [h.size] at hlt
    omega
  · rw [hbrk]
    exact hle
  · rw [hbrk, hsize]
    exact hb
  · simp only at h0
    omega

/-! ### Blocks -/

lemma hdr_setPte_of_lt (hi : i < 1024) (hlt : Mem.pteAddr S.pt p k < 4294967296) :
    S.hdr (m.setPte S.pt p k v) i = S.hdr m i := by
  have h := hdr_addr (S := S) hi
  have hge : S.pt ≤ Mem.pteAddr S.pt p k := by
    simp only [Mem.pteAddr]
    omega
  rw [hdr, Mem.setPte, rd_wr (by omega) hlt, if_neg (by omega), hdr]

lemma countedPage_lt (h : S.Shows m V) (hV : S.Pages V use ps) (hb : S.BlockAt use i b)
    (hk : k < 3) :
    Mem.pteAddr S.pt (S.countedPage m b) k < 4294967296 := by
  obtain ⟨⟨hge, -⟩, -, hlt⟩ := hb.inPages hV
  have h16 := hb.mod16
  have hds := S.pt_le_dataStart
  have hvir := S.vir_lt
  have hpc := S.pageCount_eq
  rw [countedPage, h.dataBase_eq, sub32_of_le (by simp only [pt]; omega) (by omega),
    u32_of_lt (by simp only [pt]; omega)]
  simp only [Mem.pteAddr, pt]
  omega

lemma hdr_takeBlock (h : S.Shows m V) (hV : S.Pages V use ps) (hL : S.Lists V use L) (hi : 4 ≤ i)
    (hi' : i ≤ 11) (hl : L i = b :: l) :
    S.hdr (S.takeBlock m S.pt i b).1 45 = V.brk ∧ S.hdr (S.takeBlock m S.pt i b).1 46 = S.size := by
  have hbm : b ∈ L i := hl ▸ mem_cons_self
  have hblk := hL.block i hi hi' b hbm
  have hin := hblk.inPages hV
  have hback := hL.back_head hi hi' hl
  have hslot := S.classSlot_mem hi'
  have hheap := S.heap_ge
  have h₂ := pop_shows h hV hL hi hi' hbm
  have hm₂ : (S.wrPhy m (V.word b) 4 (S.toPhy (S.classSlot i))).wr (S.classSlot i) (V.word b) =
      S.setHdr (S.wrPhy m (V.word b) 4 (S.toPhy (S.classSlot i))) (2 * i + 17) (V.word b) := rfl
  have hd : S.countedPage (S.setHdr (S.wrPhy m (V.word b) 4 (S.toPhy (S.classSlot i)))
      (2 * i + 17) (V.word b)) b = S.countedPage m b := by
    simp only [countedPage, h₂.dataBase_eq, h.dataBase_eq]
  have hlt₁ := countedPage_lt (k := 1) h hV hblk (by omega)
  have hlt₂ := countedPage_lt (k := 2) h hV hblk (by omega)
  have hkeep : ∀ j, 44 < j → j < 1024 → S.hdr (S.takeBlock m S.pt i b).1 j =
      S.hdr (S.setHdr (S.wrPhy m (V.word b) 4 (S.toPhy (S.classSlot i))) (2 * i + 17)
        (V.word b)) j := by
    intro j hj hj'
    simp only [takeBlock, h.word b hin.1, h.word (b + 4) hin.2, hback,
      S.toVir_toPhy hslot.1 hslot.2,
      if_pos (show S.classSlot i ≠ 0 by omega), hm₂, hd, subHdr, addHdr]
    generalize S.setHdr (S.wrPhy m (V.word b) 4 (S.toPhy (S.classSlot i))) (2 * i + 17)
      (V.word b) = m₂
    rw [hdr_setHdr hj' (by omega), if_neg (by omega), hdr_setHdr hj' (by omega), if_neg (by omega),
      hdr_setHdr hj' (by omega), if_neg (by omega), hdr_setHdr hj' (by omega), if_neg (by omega)]
    split_ifs
    · rw [hdr_setPte_of_lt hj' hlt₂, hdr_setPte_of_lt hj' hlt₁]
    · rw [hdr_setPte_of_lt hj' hlt₁]
  exact ⟨(hkeep 45 (by omega) (by omega)).trans h₂.brk,
    (hkeep 46 (by omega) (by omega)).trans h₂.size⟩

lemma cutPage_twelve (h : S.Shows m V) (hpos : 0 < x) (hx : x < S.pageCount)
    (hlt : 4096 * x < 2147483648) (hle : 4096 * x ≤ S.size) :
    ∃ V', S.Shows (S.cutPage m S.pt 12 (S.heap + 4096 * x)) V' ∧ V'.brk = V.brk := by
  have h₁ := h.setCut (i := mallocPageCounter 12) (by decide)
    (S.hdr m (mallocPageCounter 12) + 1)
  have hidx := pageIndex_eq h₁ hpos hlt hle
  simp only [cutPage, addHdr, Nat.reducePow, Nat.reduceDiv, Nat.sub_self, List.range'_zero,
    foldl_nil]
  rw [hidx]
  have h₂ := ((h₁.setCount (v := 12) hx (by omega)).setNext (v := 0) hx (by omega)).setPrev
    (v := 0) hx
    (by omega)
  exact ⟨_, ((h₂.setHdr (by omega) _).setHdr (by omega) _).setHdr (by omega) _, rfl⟩

/-! ### The calls -/

lemma Inv.served_pages (h : S.Inv s V use ps L) (hpos : 0 < size) (hok : S.RoomFor s size) :
    ∃ b, S.shmallocPages s.mem size = some b ∧ S.Served s.mem size b := by
  rcases h.mallocPages_spec hpos hok with hm | ⟨m', x, V', use', ps', hm, hs, ht, -⟩
  · exact ⟨_, hm, S.served_fail s.mem size⟩
  · have hbig : BigAt use' x ((size + 4095) / 4096) := ⟨by omega, ht.big⟩
    have hbounds := hbig.bounds ht.ok
    exact ⟨_, hm, served_at h.shows hs.brk hs.size (by omega) (by omega) ht.ok.brk_le⟩

lemma Inv.served_cut (h : S.Inv s V use ps L) (hi : 4 ≤ i) (hi' : i ≤ 12) (hsize : size ≤ 4096)
    (hnil : i ≤ 11 → L i = []) (hok : S.RoomFor s 4096) :
    ∃ b, (S.shmallocPages s.mem 4096).map (fun b =>
        if b.2 = 0 then b else (S.cutPage b.1 S.pt i b.2, b.2)) = some b ∧
      S.Served s.mem size b := by
  rcases h.mallocPages_spec (by omega) hok with hm | ⟨m', x, V', use', ps', hm, hs, ht, -⟩
  · exact ⟨_, by rw [hm]; rfl, S.served_fail s.mem size⟩
  · have hbig : BigAt use' x 1 := ⟨by omega, ht.big⟩
    have hbounds := hbig.bounds ht.ok
    have hbrk := ht.ok.brk_le
    have hlt := ht.ok.brk_lt
    have hds := S.pt_le_dataStart
    obtain ⟨V'', hs', hb'⟩ : ∃ V'', S.Shows (S.cutPage m' S.pt i (S.heap + 4096 * x)) V'' ∧
        V''.brk = V'.brk := by
      rcases Nat.lt_or_ge 11 i with h12 | h11
      · obtain rfl : i = 12 := by omega
        have hx := ht.ok.lt_pageCount (p := x) (by rw [hbig.self]; nofun)
        exact cutPage_twelve hs (by omega) hx (by omega) (by omega)
      · have hlists := (h.took ht (by omega) hs).lists
        obtain ⟨heads, word, v, l, hs', -⟩ :=
          cutPage_spec hs ht.ok hlists hi h11 (hnil h11) hbig.self
        exact ⟨_, hs', rfl⟩
    refine ⟨_, by rw [hm, Option.map_some, if_neg (S.page_ne_zero x)], ?_⟩
    exact served_at h.shows hs'.brk hs'.size (by omega) (by omega) (by omega)

lemma Inv.served_pop (h : S.Inv s V use ps L) (hi : 4 ≤ i) (hi' : i ≤ 11) (hsize : size ≤ 2 ^ i)
    (hl : L i = b :: l) : S.Served s.mem size (S.popBlock s.mem S.pt i b) := by
  have hb := h.lists.block i hi hi' b (by rw [hl]; exact mem_cons_self)
  have hbounds := hb.bounds h.pages
  have hhdr := hdr_takeBlock h.shows h.pages h.lists hi hi' hl
  rw [popBlock]
  split_ifs
  · exact S.served_fail s.mem size
  · exact S.served_fail s.mem size
  · exact S.served_fail s.mem size
  · exact served_at h.shows hhdr.1 hhdr.2 hbounds.1 (by omega) h.pages.brk_le

lemma Inv.served_block (h : S.Inv s V use ps L) (hi : 4 ≤ i) (hi' : i ≤ 12) (hsize : size ≤ 2 ^ i)
    (hle : size ≤ 4096)
    (hok : if S.smmPhy2vir (S.hdr s.mem (2 * i + 17)) ≠ 0 then
      i = 12 → S.Outside s.mem (S.smmPhy2vir (S.hdr s.mem (2 * i + 17)))
      else S.RoomFor s 4096) :
    ∃ b, S.shmallocBlock s.mem i = some b ∧ S.Served s.mem size b := by
  rw [shmallocBlock, h.shows.pageTable_eq]
  by_cases h0 : S.smmPhy2vir (S.hdr s.mem (2 * i + 17)) = 0
  · rw [if_neg (not_not_intro h0)] at hok ⊢
    refine h.served_cut hi hi' hle (fun h11 => ?_) hok
    -- a list with a block has a head that is not null
    cases hl : L i with
    | nil => rfl
    | cons b l =>
      have hhead := h.lists.head_eq hi h11
      have hb := (h.lists.block i hi h11 b (by rw [hl]; exact mem_cons_self)).heap_le
      have hheap := S.heap_ge
      rw [h.shows.heads i hi h11, smmPhy2vir] at h0
      rw [hl] at hhead
      by_cases hz : V.heads i = 0
      · simp [hz] at hhead
      · rw [if_neg hz, List.head?_cons, Option.some.injEq] at hhead
        rw [if_neg hz] at h0
        omega
  · simp only [if_pos h0] at hok ⊢
    refine ⟨_, rfl, ?_⟩
    rcases Nat.lt_or_ge 11 i with h12 | h11
    · rw [popBlock, if_pos (hok (by omega))]
      exact S.served_fail s.mem size
    · have hhead := h.lists.head_eq hi h11
      rw [h.shows.heads i hi h11, smmPhy2vir] at h0 ⊢
      split_ifs at h0 hhead ⊢ with hz
      · exact absurd rfl h0
      · cases hl : L i with
        | nil => simp [hl] at hhead
        | cons b l =>
          rw [hl] at hhead
          obtain rfl := Option.some.inj hhead
          exact h.served_pop hi h11 hsize hl

lemma sizeClass_twelve (hgt : 1024 < size) (hle : size ≤ 2048) : sizeClass size = 12 := by
  have h₁ : sizeClass size ≤ 1 + 11 := classLoop_le (by omega)
  have h₂ : (size - 1 + 1) * 2 ^ 1 ≤ 2 ^ sizeClass size := le_classLoop (by omega)
  have h₃ : 11 < sizeClass size := by
    rw [← Nat.pow_lt_pow_iff_right (a := 2) (by decide)]
    omega
  omega

lemma Good.served (h : S.Good s) (hok : S.CanServe s size) :
    ∃ b, S.shmalloc s.mem size = some b ∧ S.Served s.mem size b := by
  obtain ⟨V, use, ps, L, h⟩ := h
  rw [shmalloc]
  by_cases h0 : size = 0
  · rw [if_pos h0]
    exact ⟨_, rfl, S.served_fail s.mem size⟩
  · have hok := hok.resolve_left h0
    have hmax : (if size ≤ 7 then 8 else size) = max size 8 := by
      split_ifs <;> omega
    simp only [if_neg h0, hmax]
    by_cases hbig : size > 2048
    · rw [if_neg (by omega)] at hok
      rw [max_eq_left (by omega), if_pos hbig]
      exact h.served_pages (by omega) hok
    · rw [if_neg (by omega)]
      have hclass : 4 ≤ sizeClass (max size 8) ∧ sizeClass (max size 8) ≤ 12 ∧
          size ≤ 2 ^ sizeClass (max size 8) ∧ (sizeClass (max size 8) = 12 → 1024 < size) := by
        rcases Nat.lt_or_ge 1024 size with hgt | hle
        · rw [max_eq_left (by omega), sizeClass_twelve hgt (by omega)]
          omega
        · obtain ⟨hi, hi', hsz⟩ := sizeClass_spec (le_max_right size 8) (by omega)
          omega
      obtain ⟨hi, hi', hsz, htwelve⟩ := hclass
      refine h.served_block hi hi' hsz (by omega) ?_
      have hpages : (size + 4095) / 4096 = (4096 + 4095) / 4096 := by omega
      by_cases hhead : S.listHead s size = 0
      · rw [if_neg (by simp [hhead]), RoomFor, hpages] at hok
        rw [if_neg (by simpa [listHead] using hhead)]
        exact hok
      · rw [if_pos ⟨by omega, hhead⟩] at hok
        rw [if_pos (by simpa [listHead] using hhead)]
        exact fun h12 => hok (htwelve h12)

/-- After calls that meet their condition, a request that does returns; it is served only below a
break inside of the heap, and it changes nothing if it is not served. -/
theorem shmalloc_served (S : Smm) {ops : List Op} {s : State} {size : ℕ}
    (hok : Guarded S.step S.StepOk S.start ops) (hr : run S.step S.start ops = some s)
    (hsize : S.CanServe s size) : ∃ b, S.shmalloc s.mem size = some b ∧ S.Served s.mem size b := by
  obtain ⟨s', hr', hgood⟩ := hok.exists_run good_step S.good_start
  obtain rfl : s' = s := Option.some.inj (hr'.symm.trans hr)
  exact hgood.served hsize

/-- After a few calls: a request above the capacity of the heap, one of the largest class, and one
that fits. -/
theorem shmalloc_served_small :
    ∃ s, run smallHeap.step smallHeap.start smallRun = some s ∧
      (∃ b, smallHeap.shmalloc s.mem 300000 = some b ∧ smallHeap.Served s.mem 300000 b) ∧
      (∃ b, smallHeap.shmalloc s.mem 2000 = some b ∧ smallHeap.Served s.mem 2000 b) ∧
      ∃ b, smallHeap.shmalloc s.mem 5000 = some b ∧ smallHeap.Served s.mem 5000 b := by
  have hcan : (run smallHeap.step smallHeap.start smallRun).map (fun s =>
      decide (smallHeap.CanServe s 300000 ∧ smallHeap.CanServe s 2000 ∧
        smallHeap.CanServe s 5000)) = some true := by
    decide +kernel
  have hok : Guarded smallHeap.step smallHeap.StepOk smallHeap.start smallRun := by
    decide +kernel
  obtain ⟨s, hs, hsize⟩ := Option.map_eq_some_iff.mp hcan
  obtain ⟨h₁, h₂, h₃⟩ := of_decide_eq_true hsize
  exact ⟨s, hs, shmalloc_served smallHeap hok hs h₁, shmalloc_served smallHeap hok hs h₂,
    shmalloc_served smallHeap hok hs h₃⟩

/-- On a fresh heap the largest request gets the address of the heap and no pages, one for half of
the address space moves the break behind the heap, and one that makes it negative fails and leaves
it there. -/
theorem shmalloc_not_served :
    smallHeap.hdr smallHeap.start.mem 45 = 8192 ∧ smallHeap.hdr smallHeap.start.mem 46 = 262144 ∧
      (smallHeap.shmalloc smallHeap.start.mem 4294967295).map Prod.snd = some 3221291008 ∧
      (smallHeap.shmalloc smallHeap.start.mem 2147483648).map
        (fun b => (b.2, smallHeap.hdr b.1 45)) = some (3221299200, 2147491840) ∧
      (smallHeap.shmalloc smallHeap.start.mem 2147475456).map
        (fun b => (b.2, smallHeap.hdr b.1 45)) = some (0, 2147483648) := by
  decide +kernel

end Smm

end CpuComm
