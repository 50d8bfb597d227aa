import H713.CpuComm.Smm.Invariant

/-!
# Live blocks do not overlap

`StepOk` keeps away from a search that starts at a run given back with the break, a third free run
in the ring, a block counted in a foreign page table entry, and the classes without a list of their
own.
-/

namespace CpuComm

open Machine List

namespace Smm

variable {S : Smm} {s : State} {V : Arena} {use : ℕ → Use} {ps : List ℕ} {L : ℕ → List ℕ}
  {size a i : ℕ}

/-! ### The condition on a call -/

def CountsAside (S : Smm) (s : State) (d : ℕ) : Prop :=
  d < S.hdr s.mem 2 ∧ d ≠ s.mem.pte S.pt 0 1 ∧ d ≠ s.mem.pte S.pt 0 2 ∧ d ≠ S.hdr s.mem 3 ∧
    ∀ e ∈ s.live, 2048 < e.2 → e.1 ≠ S.heap + 4096 * d

def RoomFor (S : Smm) (s : State) (size : ℕ) : Prop :=
  (S.hdr s.mem 3 = 0 ∨ S.hdr s.mem 3 < S.hdr s.mem 4) ∧
    S.hdr s.mem 45 + 4096 * ((size + 4095) / 4096) < 2147483648

def listHead (S : Smm) (s : State) (size : ℕ) : ℕ :=
  S.smmPhy2vir (S.hdr s.mem (2 * sizeClass (max size 8) + 17))

def MallocOk (S : Smm) (s : State) (size : ℕ) : Prop :=
  size = 0 ∨ ¬ (1024 < size ∧ size ≤ 2048) ∧
    if size ≤ 2048 ∧ S.listHead s size ≠ 0 then
      S.CountsAside s (S.countedPage s.mem (S.listHead s size))
    else S.RoomFor s size

def FreeOk (S : Smm) (s : State) (a : ℕ) : Prop :=
  a ∈ s.live.map Prod.fst ∧
    if s.mem.pte S.pt (S.pageNo a) 0 = 0 then s.mem.pte S.pt 0 1 = s.mem.pte S.pt 0 2
    else ¬ (s.mem.pte S.pt (S.pageNo a) 1 = 4096 / 2 ^ s.mem.pte S.pt (S.pageNo a) 0 - 1 ∧
      S.hdr s.mem (2 * s.mem.pte S.pt (S.pageNo a) 0 + 5) > 1)

def StepOk (S : Smm) (s : State) : Op → Prop
  | .malloc size => S.MallocOk s size
  | .free a => S.FreeOk s a

instance (d : ℕ) : Decidable (S.CountsAside s d) := inferInstanceAs (Decidable (_ ∧ _))

instance : Decidable (S.RoomFor s size) := inferInstanceAs (Decidable (_ ∧ _))

instance : Decidable (S.MallocOk s size) := inferInstanceAs (Decidable (_ ∨ _))

instance : Decidable (S.FreeOk s a) := inferInstanceAs (Decidable (_ ∧ _))

instance (op : Op) : Decidable (S.StepOk s op) :=
  match op with
  | .malloc size => inferInstanceAs (Decidable (S.MallocOk s size))
  | .free a => inferInstanceAs (Decidable (S.FreeOk s a))

/-! ### The invariant holds at first -/

def Good (S : Smm) (s : State) : Prop := ∃ V use ps L, S.Inv s V use ps L

lemma init_shows (S : Smm) :
    S.Shows S.tridSmmInit ⟨S.dataStart, 0, 0, fun _ => 0, fun _ => 0, fun _ => 0, fun _ => 0,
      fun _ => 0, fun _ => 0⟩ := by
  have hpc := S.pageCount_le
  have hds := S.dataStart_le
  have hvir := S.vir_lt
  have hhdr : ∀ k < 1024, S.hdr S.tridSmmInit k =
      if k = 47 then S.toPhy S.heap else if k = 46 then S.size else if k = 45 then S.dataStart
      else if k = 2 then S.pageCount else if k = 1 then S.toPhy S.pt
      else if k = 0 then S.toPhy S.pt else 0 := by
    intro k hk
    rw [tridSmmInit, hdr_setHdr hk (by omega), hdr_setHdr hk (by omega), hdr_setHdr hk (by omega),
      hdr_setHdr hk (by omega), hdr_setHdr hk (by omega), hdr_setHdr hk (by omega),
      u32_of_lt (S.toPhy_lt _), u32_of_lt (S.toPhy_lt _), u32_of_lt (n := S.size) (by omega),
      u32_of_lt (n := smmDataStart S.size) (by simp only [dataStart] at hds; omega),
      u32_of_lt (n := smmPageCount S.size) (by simp only [pageCount] at hpc; omega)]
    rfl
  have hpte : ∀ p < S.pageCount, ∀ k < 3, S.tridSmmInit.pte S.pt p k = 0 := by
    intro p hp k hk
    rw [tridSmmInit]
    repeat rw [pte_setHdr hp hk (by omega)]
    rfl
  refine ⟨hhdr 0 (by omega), hhdr 1 (by omega), hhdr 2 (by omega), hhdr 46 (by omega),
    hhdr 47 (by omega), hhdr 45 (by omega), hhdr 4 (by omega), hhdr 3 (by omega),
    fun i hi hi' => ?_, fun k hk hk' => ?_, fun p hp => hpte p hp 0 (by omega),
    fun p hp => hpte p hp 1 (by omega), fun p hp => hpte p hp 2 (by omega), fun a ha => ?_⟩
  · rw [hhdr _ (by omega)]
    repeat rw [if_neg (by omega)]
  · rw [hhdr _ (by omega)]
    repeat rw [if_neg (by omega)]
  · rw [tridSmmInit]
    repeat rw [rd_setHdr ha (by omega)]
    rfl

lemma inv_start (S : Smm) : ∃ V, S.Inv S.start V (fun _ => .none) [] fun _ => [] := by
  have hpc := S.pageCount_le
  have hds := S.dataStart_eq
  refine ⟨_, S.init_shows, ⟨S.dataStart_mod, le_rfl, S.dataStart_le, ?_, .inl rfl,
    .inr ⟨rfl, rfl⟩, fun p hp => absurd rfl hp, ⟨rfl, rfl⟩, nodup_singleton 0, Nat.zero_le 2,
    rfl, nofun⟩, .inl mem_cons_self,
    ⟨fun i _ _ => ?_, fun _ _ _ => .singleton _, nofun, ?_, nofun⟩, nofun, nofun, nodup_nil,
    nofun, fun i b hb => ?_, fun k _ _ => ?_⟩
  · simp only
    omega
  · simp [link]
  · simp
  · cases hb.cut
  · simp [cutPages]

lemma good_start (S : Smm) : S.Good S.start := by
  obtain ⟨V, h⟩ := S.inv_start
  exact ⟨V, _, _, _, h⟩

/-! ### One call -/

def StartsPage (S : Smm) (s : State) : Op → Prop
  | .malloc size => ∀ b, S.shmalloc s.mem size = some b → b.2 % 4096 = 0
  | .free _ => True

/-- The invariant holds, and if the counts were right before, they are now exactly if `ok`. -/
def Next (S : Smm) (counted ok : Prop) (s : State) : Prop :=
  ∃ V use ps L, S.Inv s V use ps L ∧ (counted → (S.Counts V use L ↔ ok))

lemma Inv.next {c ok : Prop} (h : S.Inv s V use ps L) (hc : c → S.Counts V use L) (hok : ok) :
    S.Next c ok s :=
  ⟨V, use, ps, L, h, fun h0 => iff_of_true (hc h0) hok⟩

def allocated (live : List (ℕ × ℕ)) (size : ℕ) (b : Mem × ℕ) : State :=
  ⟨b.1, if b.2 = 0 then live else live ++ [(b.2, size)]⟩

lemma HintFree.hintOk (hh : S.HintFree V ps) (hV : S.Pages V use ps)
    (h : V.hint = 0 ∨ V.hint < V.limit) : HintOk V ps := by
  rcases hh with hh | ⟨hge, -⟩
  · exact hh
  · rcases h with h | h
    · rw [HintOk, h]
      exact mem_cons_self
    · rcases hV.limit with hl | hl <;> omega

lemma page_ne_zero (S : Smm) (x : ℕ) : S.heap + 4096 * x ≠ 0 := by
  have := S.heap_ge
  omega

lemma page_mod (S : Smm) (x : ℕ) : (S.heap + 4096 * x) % 4096 = 0 := by
  have := S.aligned
  omega

/-- A request for pages fails without a change, or gives a block of pages. -/
lemma Inv.mallocPages_spec (h : S.Inv s V use ps L) (hpos : 0 < size) (hok : S.RoomFor s size) :
    S.shmallocPages s.mem size = some (s.mem, 0) ∨
      ∃ m' x V' use' ps', S.shmallocPages s.mem size = some (m', S.heap + 4096 * x) ∧
        S.Shows m' V' ∧ S.Took V use x ((size + 4095) / 4096) V' use' ps' ∧
        S.CutRuns s.mem V ps x ((size + 4095) / 4096) m' V' ps' := by
  obtain ⟨hhint, hroom⟩ := hok
  rw [h.shows.hint, h.shows.limit] at hhint
  rw [h.shows.brk] at hroom
  exact shmallocPages_spec h.shows h.pages (h.hint.hintOk h.pages hhint) hpos hroom

lemma Inv.add_pages {m' : Mem} {x : ℕ} {V' : Arena} {use' : ℕ → Use} {ps' : List ℕ}
    (h : S.Inv s V use ps L) (hsize : 2048 < size) (hs : S.Shows m' V')
    (ht : S.Took V use x ((size + 4095) / 4096) V' use' ps') :
    S.Inv ⟨m', s.live ++ [(S.heap + 4096 * x, size)]⟩ V' use' ps' L := by
  have hpos : 0 < (size + 4095) / 4096 := by omega
  have hfresh := h.fresh_page (ht.fresh 0 hpos) (S.pageNo_page x)
  exact (h.took ht hpos hs).add (.pages ⟨hpos, ht.big⟩ ht.count ht.next hsize (by omega))
    hfresh.1 hfresh.2

lemma Inv.malloc_pages (h : S.Inv s V use ps L) (hsize : 2048 < size) (hok : S.RoomFor s size) :
    ∃ b, S.shmallocPages s.mem size = some b ∧
      S.Next (S.Counts V use L) (b.2 % 4096 = 0) (allocated s.live size b) := by
  rcases h.mallocPages_spec (by omega) hok with hm | ⟨m', x, V', use', ps', hm, hs, ht, -⟩
  · exact ⟨_, hm, h.next id rfl⟩
  · refine ⟨_, hm, ?_⟩
    rw [allocated, if_neg (S.page_ne_zero x)]
    exact (h.add_pages hsize hs ht).next (fun hc => Inv.took_counts hc ht) (S.page_mod x)

lemma CountsAside.notMem {d : ℕ} (hd : S.CountsAside s d) (h : S.Inv s V use ps L) (h0 : d ≠ 0) :
    d ∉ 0 :: ps := by
  obtain ⟨-, hn, hp, -⟩ := hd
  have hpos := Pages.pageCount_pos S
  rw [h.shows.next 0 hpos] at hn
  rw [h.shows.prev 0 hpos] at hp
  have hring := h.pages.ring
  have hshort := h.pages.short
  match ps with
  | [] => simpa using h0
  | [p] =>
    obtain ⟨h₁, -⟩ := hring
    simp only [mem_cons, not_mem_nil, or_false, not_or]
    exact ⟨h0, h₁ ▸ hn⟩
  | [p, q] =>
    obtain ⟨h₁, -, -, -, -, h₂⟩ := hring
    simp only [mem_cons, not_mem_nil, or_false, not_or]
    exact ⟨h0, h₁ ▸ hn, h₂ ▸ hp⟩
  | _ :: _ :: _ :: _ => simp at hshort

lemma Inv.malloc_block (h : S.Inv s V use ps L) (hi : 4 ≤ i) (hi' : i ≤ 11) (hsize : size ≤ 2 ^ i)
    (hclass : sizeClass (max size 8) = i)
    (hok : if S.smmPhy2vir (S.hdr s.mem (2 * i + 17)) ≠ 0 then
      S.CountsAside s (S.countedPage s.mem (S.smmPhy2vir (S.hdr s.mem (2 * i + 17))))
      else S.RoomFor s 4096) :
    ∃ b, S.shmallocBlock s.mem i = some b ∧
      S.Next (S.Counts V use L) (b.2 % 4096 = 0) (allocated s.live size b) := by
  have hhead := h.lists.head_eq hi hi'
  have hheap := S.heap_ge
  rw [h.shows.heads i hi hi', smmPhy2vir] at hok
  rw [shmallocBlock, h.shows.pageTable_eq, h.shows.heads i hi hi', smmPhy2vir]
  cases hL : L i with
  | nil =>
    have h0 : V.heads i = 0 := by simpa [hL] using hhead
    simp only [h0, if_true, ne_eq, not_true_eq_false, if_false] at hok ⊢
    rcases h.mallocPages_spec (by omega) hok with hm | ⟨m', x, V', use', ps', hm, hs, ht, -⟩
    · rw [hm]
      exact ⟨_, rfl, h.next id rfl⟩
    · have hinv := h.took ht (by omega) hs
      have hfresh := ht.fresh 0 (by omega)
      have hbig : use' x = .big x := ht.big 0 (by omega)
      obtain ⟨heads, word, v, l, hs', hL', hn, hl, hall⟩ :=
        cutPage_spec hs ht.ok hinv.lists hi hi' hL hbig
      have hinv' := hinv.cutted ht.hint hi hi' hL hbig hsize hclass
        (fun b hb => h.fresh_page hfresh hb) hs' hL' hn hl hall
      rw [hm, Option.map_some, if_neg (S.page_ne_zero x)]
      refine ⟨_, rfl, ?_⟩
      rw [allocated, if_neg (S.page_ne_zero x)]
      exact hinv'.next (fun hc => Inv.cutted_counts (Inv.took_counts hc ht) hL hl) (S.page_mod x)
  | cons b l =>
    have hb := h.lists.block i hi hi' b (by rw [hL]; exact mem_cons_self)
    have hge := hb.heap_le
    obtain ⟨h0, hv⟩ : V.heads i ≠ 0 ∧ S.toVir (V.heads i) = b := by
      by_cases h0 : V.heads i = 0 <;> simp_all
    simp only [if_neg h0, hv] at hok ⊢
    rw [if_pos (by omega)] at hok ⊢
    rw [popBlock]
    split_ifs
    · exact ⟨_, rfl, h.next id rfl⟩
    · exact ⟨_, rfl, h.next id rfl⟩
    · exact ⟨_, rfl, h.next id rfl⟩
    · have hd : S.countedPage s.mem b < S.pageCount := by
        rw [← h.shows.pages]
        exact hok.1
      obtain ⟨m', next, prev, hm, hs, rfl, hprev⟩ :=
        takeBlock_spec h.shows h.pages h.lists hi hi' hL hd
      have hhint : S.countedPage s.mem b ≠ V.hint := by
        rw [← h.shows.hint]
        exact hok.2.2.2.1
      have hinv := h.popped hi hi' hL hsize hclass (hok.notMem h (Nat.succ_ne_zero _)) hhint
        hok.2.2.2.2 (fun q hq => ⟨Function.update_of_ne hq _ _, hprev q hq⟩) hs
      refine ⟨_, rfl, ?_⟩
      rw [hm, allocated, if_neg (by omega)]
      exact ⟨_, _, _, _, hinv, fun hc => h.popped_counts hc hi hi' hL⟩

lemma Inv.step_malloc (h : S.Inv s V use ps L) (hok : S.MallocOk s size) :
    ∃ s', S.step s (.malloc size) = some s' ∧
      S.Next (S.Counts V use L) (S.StartsPage s (.malloc size)) s' := by
  obtain ⟨b, hb, hnext⟩ : ∃ b, S.shmalloc s.mem size = some b ∧
      S.Next (S.Counts V use L) (b.2 % 4096 = 0) (allocated s.live size b) := by
    rw [shmalloc]
    by_cases h0 : size = 0
    · rw [if_pos h0]
      exact ⟨_, rfl, h.next id rfl⟩
    · obtain ⟨hgap, hok⟩ := hok.resolve_left h0
      have hmax : (if size ≤ 7 then 8 else size) = max size 8 := by
        split_ifs <;> omega
      simp only [if_neg h0, hmax]
      by_cases hbig : size > 2048
      · rw [if_neg (by omega)] at hok
        rw [max_eq_left (by omega), if_pos hbig]
        exact h.malloc_pages hbig hok
      · rw [if_neg (by omega)]
        obtain ⟨hi, hi', hle⟩ := sizeClass_spec (le_max_right size 8) (by omega)
        refine h.malloc_block hi hi' (by omega) rfl ?_
        have hsize : (size + 4095) / 4096 = (4096 + 4095) / 4096 := by omega
        by_cases hhead : S.listHead s size = 0
        · rw [if_neg (by tauto), RoomFor, hsize] at hok
          rw [if_neg (by simpa [listHead] using hhead)]
          exact hok
        · rw [if_pos ⟨by omega, hhead⟩] at hok
          rw [if_pos (by simpa [listHead] using hhead)]
          exact hok
  have hiff : b.2 % 4096 = 0 ↔ S.StartsPage s (.malloc size) := by
    simp [StartsPage, hb]
  obtain ⟨V', use', ps', L', h', hc⟩ := hnext
  exact ⟨_, by rw [step, hb]; rfl, V', use', ps', L', h', fun h0 => (hc h0).trans hiff⟩

lemma freed_page (hge : S.heap + 4096 ≤ a) (hle : a ≤ S.heap + S.size) :
    sub32 a S.pt / 4096 + 1 = S.pageNo a := by
  have := S.vir_lt
  rw [sub32_of_le (by simp only [pt]; omega) (by omega)]
  simp only [pt, pageNo]
  omega

lemma Inv.tridSmmFree_eq (h : S.Inv s V use ps L) (ha : a ∈ s.live.map Prod.fst) :
    S.tridSmmFree s.mem (S.toPhy a) =
      if (S.subHdr s.mem 41 1).pte S.pt (S.pageNo a) 0 = 0 then
        S.freePages (S.subHdr s.mem 41 1) S.pt (S.pageNo a)
          ((S.subHdr s.mem 41 1).pte S.pt (S.pageNo a) 1)
      else S.freeBlock (S.subHdr s.mem 41 1) S.pt (S.pageNo a)
        ((S.subHdr s.mem 41 1).pte S.pt (S.pageNo a) 0) a := by
  obtain ⟨e, he, rfl⟩ := mem_map.mp ha
  have hbounds := (h.live _ he).bounds h.pages
  have hbrk := h.pages.brk_le
  have hdata := S.pt_le_dataStart
  have hin : S.heap ≤ e.1 ∧ e.1 ≤ S.heap + S.size := by omega
  have hpage := freed_page (S := S) (a := e.1) (by omega) hin.2
  simp only [tridSmmFree, if_neg (S.toPhy_ne_zero hin.1 hin.2), h.shows.pageTable_eq,
    S.toVir_toPhy hin.1 hin.2, h.shows.dataBase_eq, hpage]

lemma Inv.step_free (h : S.Inv s V use ps L) (hok : S.FreeOk s a) :
    ∃ s', S.step s (.free a) = some s' ∧
      S.Next (S.Counts V use L) (S.StartsPage s (.free a)) s' := by
  obtain ⟨hmem, hok⟩ := hok
  obtain ⟨⟨a, size⟩, he, rfl⟩ := mem_map.mp hmem
  have hlive := h.live _ he
  have h₁ := h.shows.subHdr (i := 41) (by omega) 1
  have hpos := Pages.pageCount_pos S
  have hfree : ∀ m', S.tridSmmFree s.mem (S.toPhy a) = some m' →
      S.step s (.free a) = some ⟨m', s.live.filter fun b => b.1 ≠ a⟩ := by
    intro m' hm
    rw [step, if_pos hmem, hm]
    rfl
  rw [h.tridSmmFree_eq hmem] at hfree
  generalize hp : S.pageNo a = p at *
  cases hlive with
  | @pages x n _ hb hc hn hgt hle =>
    obtain rfl : x = p := by rw [← hp, pageNo_page]
    have hx : x < S.pageCount := h.pages.lt_pageCount (by rw [hb.self]; nofun)
    rw [h₁.count x hx, h₁.next x hx, hc, hn] at hfree
    rw [h.shows.count x hx, hc, if_pos rfl, h.shows.next 0 hpos, h.shows.prev 0 hpos] at hok
    obtain ⟨m', V', use', ps', hm, hs, hV', hh', hf, -⟩ := freePages_spec h₁ h.pages h.hint hb hok
    exact ⟨_, hfree m' hm,
      (h.freed hb.self hf hV' hh' hs).next (fun hc => Inv.freed_counts hc hf) trivial⟩
  | @block i b _ hb hle =>
    have huse : use p = .cut i := hp ▸ hb.cut
    have hx : p < S.pageCount := h.pages.lt_pageCount (by rw [huse]; nofun)
    obtain ⟨hcount, hi, hi'⟩ := h.cuts p i huse
    have hhdr : S.hdr (S.subHdr s.mem 41 1) (2 * i + 5) = S.hdr s.mem (2 * i + 5) := by
      rw [subHdr, hdr_setHdr (by omega) (by omega), if_neg (by omega)]
    rw [h₁.count p hx, hcount, if_neg (by omega)] at hfree
    rw [h.shows.count p hx, hcount, if_neg (by omega), h.shows.next p hx, ← hhdr] at hok
    obtain ⟨m', v, hm, hs⟩ := freeBlock_spec h₁ h.pages h.lists hb hx hok
    subst hp
    exact ⟨_, hfree m' hm,
      (h.returned hb hmem rfl hs).next (fun hc => h.returned_counts hc hb) trivial⟩

/-! ### Runs -/

lemma Inv.step (h : S.Inv s V use ps L) {op : Op} (hok : S.StepOk s op) :
    ∃ s', S.step s op = some s' ∧ S.Next (S.Counts V use L) (S.StartsPage s op) s' := by
  cases op with
  | malloc size => exact h.step_malloc hok
  | free a => exact h.step_free hok

lemma good_step (s : State) (op : Op) (h : S.Good s) (hok : S.StepOk s op) :
    ∃ s', S.step s op = some s' ∧ S.Good s' := by
  obtain ⟨V, use, ps, L, h⟩ := h
  obtain ⟨s', hs', V', use', ps', L', h', -⟩ := h.step hok
  exact ⟨s', hs', V', use', ps', L', h'⟩

def Separate (S : Smm) (s : State) : Prop :=
  (∀ e ∈ s.live, S.heap + S.dataStart ≤ e.1 ∧ e.1 + e.2 ≤ S.heap + S.hdr s.mem 45) ∧
    s.live.Pairwise fun e e' => e.1 + e.2 ≤ e'.1 ∨ e'.1 + e'.2 ≤ e.1

instance : Decidable (S.Separate s) := inferInstanceAs (Decidable (_ ∧ _))

lemma Good.separate (h : S.Good s) : S.Separate s := by
  obtain ⟨V, use, ps, L, h⟩ := h
  refine ⟨fun e he => ?_, ?_⟩
  · rw [h.shows.brk]
    exact (h.live e he).bounds h.pages
  · refine (pairwise_map.mp h.nodup).imp_of_mem fun he he' hne => ?_
    exact (h.live _ he).disjoint (h.live _ he') hne

/-- Every sequence of calls that meet the condition returns. In each state the live blocks have
their sizes, lie between the page table and the break, and do not overlap. -/
theorem live_blocks_separate (S : Smm) {ops bs : List Op}
    (hok : Guarded S.step S.StepOk S.start ops) (hbs : bs <+: ops) :
    ∃ s, run S.step S.start bs = some s ∧ S.Separate s := by
  obtain ⟨cs, rfl⟩ := hbs
  obtain ⟨s, hr, hs⟩ := hok.append_left.exists_run good_step S.good_start
  exact ⟨s, hr, hs.separate⟩

def smallHeap : Smm where
  shMemAddrBase := 3221225472
  shMemAddr := 1311768576
  heap := 3221291008
  size := 262144
  base_pos := by decide
  addr_pos := by decide
  base_le := by decide
  aligned := by decide
  room := by decide
  vir_lt := by decide
  phy_lt := by decide

def smallRun : List Op :=
  [.malloc 32768, .malloc 1024, .malloc 1000, .free 3221299200, .malloc 8192, .free 3221331968,
    .malloc 600, .malloc 100]

theorem live_blocks_separate_small :
    Guarded smallHeap.step smallHeap.StepOk smallHeap.start smallRun ∧
      ∃ s, run smallHeap.step smallHeap.start smallRun = some s ∧ smallHeap.Separate s :=
  ⟨by decide +kernel, live_blocks_separate smallHeap (by decide +kernel)
      (prefix_refl smallRun)⟩

/-- The eight pages that are released go below the break, but the search still starts at them. The
next page is taken from there, and the one after it from the break, at the same place. -/
theorem live_blocks_overlap :
    (run smallHeap.step smallHeap.start
        [.malloc 32768, .free 3221299200, .malloc 4096, .malloc 36864]).map State.live =
      some [(3221299200, 4096), (3221299200, 36864)] := by
  decide +kernel

end Smm

end CpuComm
