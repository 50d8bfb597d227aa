import H713.CpuComm.Smm.Properties

/-!
# The order of the free runs

Where only whole pages are asked for, every page below the break is in one live block or in one free
run. The runs stand on the ring in ascending order until a release finds the hint above the released
pages: it walks down the ring and links them behind a run that they belong before.
-/

namespace CpuComm

open Machine List

namespace Smm

variable {S : Smm} {s : State} {V : Arena} {use : ℕ → Use} {ps : List ℕ} {L : ℕ → List ℕ}
  {a p x size : ℕ} {op : Op}

def Holds (S : Smm) (e : ℕ × ℕ) (p : ℕ) : Prop :=
  e.1 ≤ S.heap + 4096 * p ∧ S.heap + 4096 * p < e.1 + 4096 * ((e.2 + 4095) / 4096)

def FreePage (S : Smm) (s : State) (p : ℕ) : Prop :=
  S.dataStart ≤ 4096 * p ∧ 4096 * p < S.hdr s.mem 45 ∧ ∀ e ∈ s.live, ¬ S.Holds e p

/-- The runs `ps` are on the ring through entry `0`, linked both ways: in ascending order, apart
from each other, with exactly the free pages, and counted. The hint is `0` or one of them. -/
structure FreeListOf (S : Smm) (s : State) (ps : List ℕ) : Prop where
  ring : Linked (s.mem.pte S.pt · 1) (s.mem.pte S.pt · 2) 0 ps 0
  ascending : ps.Pairwise (· < ·)
  gaps : ps.Pairwise fun p q => p + s.mem.pte S.pt p 0 < q
  nonempty : ∀ p ∈ ps, p ≠ 0 ∧ 0 < s.mem.pte S.pt p 0
  cover : ∀ p, InRuns (s.mem.pte S.pt · 0) ps p ↔ S.FreePage s p
  length : S.hdr s.mem 43 = ps.length
  bytes : S.hdr s.mem 44 = 4096 * (ps.map (s.mem.pte S.pt · 0)).sum
  hint : S.hdr s.mem 3 ∈ 0 :: ps

def FreeListOk (S : Smm) (s : State) : Prop := ∃ ps, S.FreeListOf s ps

def joinedAt (S : Smm) (s : State) (a : ℕ) : ℕ × ℕ :=
  joinedRun (s.mem.pte S.pt 0 1) (s.mem.pte S.pt (s.mem.pte S.pt 0 1) 0) (S.pageNo a)
    (s.mem.pte S.pt (S.pageNo a) 1)

def KeepsOrder (S : Smm) (s : State) : Op → Prop
  | .malloc size => 2048 < size ∧ S.hdr s.mem 45 + 4096 * ((size + 4095) / 4096) < 2147483648
  | .free a =>
    a ∈ s.live.map Prod.fst ∧ s.mem.pte S.pt 0 1 = s.mem.pte S.pt 0 2 ∧
      S.hdr s.mem 3 ≤ S.pageNo a ∧
      ¬ (7 < (S.joinedAt s a).2 ∧ (S.joinedAt s a).1 + (S.joinedAt s a).2 = S.hdr s.mem 4)

instance : Decidable (S.KeepsOrder s op) :=
  match op with
  | .malloc _ => inferInstanceAs (Decidable (_ ∧ _))
  | .free _ => inferInstanceAs (Decidable (_ ∧ _))

/-! ### Runs in order -/

/-- The search starts at a free run, the runs are counted, and each page is spare or in a block of
whole pages. -/
structure Ordered (S : Smm) (s : State) (V : Arena) (ps : List ℕ) : Prop where
  hint : HintOk V ps
  counted : S.Counted s.mem V ps
  large : ∀ e ∈ s.live, 2048 < e.2
  cover : ∀ p, S.dataStart ≤ 4096 * p → Spare V ps p ∨ ∃ e ∈ s.live, S.Holds e p

def InOrder (S : Smm) (s : State) : Prop := ∃ V use ps L, S.Inv s V use ps L ∧ S.Ordered s V ps

lemma inOrder_start (S : Smm) : S.InOrder S.start := by
  obtain ⟨V, h⟩ := S.inv_start
  have hbrk : V.brk = S.dataStart := by
    rw [← h.shows.brk, start, S.init_shows.brk]
  have hhint : V.hint = 0 := by
    rw [← h.shows.hint, start, S.init_shows.hint]
  refine ⟨V, _, _, _, h, ?_, ⟨.nil, ?_, ?_⟩, nofun, fun p hp => .inl (.inr (hbrk ▸ hp))⟩
  · rw [HintOk, hhint]
    exact mem_cons_self
  · simp (disch := omega) only [start, tridSmmInit, hdr_setHdr]
    rfl
  · simp (disch := omega) only [start, tridSmmInit, hdr_setHdr]
    rfl

/-- A large block has its pages to itself. -/
lemma Inv.live_pages (h : S.Inv s V use ps L) {e : ℕ × ℕ} (he : e ∈ s.live) (hlarge : 2048 < e.2) :
    ∃ x, e.1 = S.heap + 4096 * x ∧ V.count x = 0 ∧ BigAt use x (V.next x) ∧
      e.2 ≤ 4096 * V.next x := by
  cases h.live e he with
  | @pages x n size hb hc hn hgt hle =>
    subst hn
    exact ⟨x, rfl, hc, hb, hle⟩
  | @block i b size hb hle =>
    have := Nat.pow_le_pow_right two_pos hb.le
    simp only at hlarge
    omega

lemma Ordered.freeListOf (h : S.Inv s V use ps L) (ho : S.Ordered s V ps) : S.FreeListOf s ps := by
  have hlt : ∀ p ∈ 0 :: ps, p < S.pageCount := fun p hp => h.pages.lt_of_mem hp
  have hcount : ∀ p ∈ ps, s.mem.pte S.pt p 0 = V.count p :=
    fun p hp => h.shows.count p (hlt p (mem_cons_of_mem 0 hp))
  have hruns := ho.counted.runs.congr hcount
  refine ⟨h.pages.ring.congr (fun p hp => h.shows.next p (hlt p hp)) fun p hp =>
    h.shows.prev p (hlt p ?_), hruns.gaps.imp fun hlt => by omega, hruns.gaps,
    fun p hp => ⟨h.pages.ne_zero hp, (hruns.bounds p hp).1⟩, fun p => ?_, ho.counted.length, ?_, ?_⟩
  · rw [mem_append, mem_singleton] at hp
    exact mem_cons.mpr hp.symm
  · rw [InRuns.congr hcount, FreePage, h.shows.brk]
    constructor
    · rintro ⟨r, hr, hle, hin⟩
      have huse := h.pages.run_use hr hle hin
      have hb := h.pages.used p (by rw [huse]; nofun)
      refine ⟨hb.1, hb.2, fun e he hp => ?_⟩
      obtain ⟨x, hx, -, hbig, hsize⟩ := h.live_pages he (ho.large e he)
      simp only [Holds, hx] at hp
      rw [hbig.use_eq (by omega) (by omega)] at huse
      cases huse
    · rintro ⟨hge, hbrk, hfree⟩
      rcases ho.cover p hge with (hp | hp) | ⟨e, he, hp⟩
      · exact hp
      · omega
      · exact absurd hp (hfree e he)
  · rw [map_congr_left hcount, ho.counted.bytes]
  · rw [h.shows.hint]
    exact ho.hint

/-! ### Calls -/

lemma InOrder.step_malloc (h : S.InOrder s) (hok : S.KeepsOrder s (.malloc size)) :
    ∃ s', S.step s (.malloc size) = some s' ∧ S.InOrder s' := by
  obtain ⟨V, use, ps, L, h, ho⟩ := h
  obtain ⟨hsize, hroom⟩ := hok
  have hstep : ∀ b, S.shmallocPages s.mem size = some b →
      S.step s (.malloc size) = some (allocated s.live size b) := by
    intro b hb
    have hm : S.shmalloc s.mem size = some b := by
      rw [shmalloc, if_neg (by omega)]
      simp only [if_neg (show ¬ size ≤ 7 by omega), if_pos hsize, hb]
    rw [step, hm]
    rfl
  rw [h.shows.brk] at hroom
  rcases shmallocPages_spec h.shows h.pages ho.hint (by omega) hroom with
    hm | ⟨m', x, V', use', ps', hm, hs, ht, hcut⟩
  · exact ⟨_, hstep _ hm, V, use, ps, L, h, ho⟩
  · refine ⟨_, hstep _ hm, ?_⟩
    rw [allocated, if_neg (S.page_ne_zero x)]
    refine ⟨V', use', ps', L, h.add_pages hsize hs ht, ht.hint, hcut.counted ho.counted,
      fun e he => ?_, fun p hp => ?_⟩
    · rcases mem_append.mp he with he | he
      · exact ho.large e he
      · rw [mem_singleton.mp he]
        exact hsize
    · rcases ho.cover p hp with hp | ⟨e, he, hp⟩
      · refine (hcut.spare p hp).imp_right fun hin => ⟨_, mem_append_right _ mem_cons_self, ?_⟩
        simp only [Holds]
        omega
      · exact .inr ⟨e, mem_append_left _ he, hp⟩

lemma InOrder.step_free (h : S.InOrder s) (hok : S.KeepsOrder s (.free a)) :
    ∃ s', S.step s (.free a) = some s' ∧ S.InOrder s' := by
  obtain ⟨V, use, ps, L, h, ho⟩ := h
  obtain ⟨hmem, hone, hhint, hno⟩ := hok
  obtain ⟨e, he, rfl⟩ := mem_map.mp hmem
  obtain ⟨x, hx, hcount, hbig, hsize⟩ := h.live_pages he (ho.large e he)
  have hsh := h.shows
  have h₁ := hsh.subHdr (i := 41) (by omega) 1
  have h0l := Pages.pageCount_pos S
  have hxl := h.pages.lt_pageCount (p := x) (by rw [hbig.self]; nofun)
  have hnl := h.pages.lt_of_mem (h.pages.next_mem mem_cons_self)
  have heq := h.tridSmmFree_eq hmem
  rw [hx, pageNo_page, h₁.count x hxl, hcount, if_pos rfl, h₁.next x hxl] at heq
  rw [hsh.next 0 h0l, hsh.prev 0 h0l] at hone
  simp only [hx, pageNo_page, hsh.hint] at hhint
  simp only [joinedAt, hx, pageNo_page, hsh.next 0 h0l, hsh.next x hxl, hsh.count _ hnl,
    hsh.limit] at hno
  obtain ⟨m', V', use', ps', hm, hs, hV', hh', hf, hgave⟩ :=
    freePages_spec h₁ h.pages h.hint hbig hone
  have hcounted : S.Counted (S.subHdr s.mem 41 1) V ps := by
    refine ⟨ho.counted.runs, ?_, ?_⟩
    · rw [subHdr, hdr_setHdr (by omega) (by omega), if_neg (by omega), ho.counted.length]
    · rw [subHdr, hdr_setHdr (by omega) (by omega), if_neg (by omega), ho.counted.bytes]
  obtain ⟨hct, hok⟩ := hgave.counted hcounted ho.hint hhint hno
  refine ⟨⟨m', s.live.filter fun b => b.1 ≠ S.heap + 4096 * x⟩, ?_, V', use', ps', L,
    h.freed hbig.self hf hV' hh' hs, hok, hct, fun e he => ho.large e (mem_filter.mp he).1,
    fun p hp => ?_⟩
  · rw [step, if_pos hmem, hx, heq, hm]
    rfl
  · rcases ho.cover p hp with hp | ⟨e', he', hp⟩
    · exact .inl (hgave.spare p (.inl hp))
    · by_cases hx' : e'.1 = S.heap + 4096 * x
      · obtain ⟨y, hy, -, -, hsize'⟩ := h.live_pages he' (ho.large e' he')
        obtain rfl : x = y := by omega
        simp only [Holds, hx'] at hp
        exact .inl (hgave.spare p (.inr (by omega)))
      · exact .inr ⟨e', mem_filter.mpr ⟨he', decide_eq_true hx'⟩, hp⟩

lemma inOrder_step (s : State) (op : Op) (h : S.InOrder s) (hok : S.KeepsOrder s op) :
    ∃ s', S.step s op = some s' ∧ S.InOrder s' := by
  cases op with
  | malloc size => exact h.step_malloc hok
  | free a => exact h.step_free hok

/-- Every sequence of requests for whole pages and of releases that meet the condition returns, and
the list of free runs stays well formed. -/
theorem free_list_ok (S : Smm) {ops bs : List Op} (hok : Guarded S.step S.KeepsOrder S.start ops)
    (hbs : bs <+: ops) : ∃ s, run S.step S.start bs = some s ∧ S.FreeListOk s := by
  obtain ⟨cs, rfl⟩ := hbs
  obtain ⟨s, hr, V, use, ps, L, h, ho⟩ := hok.append_left.exists_run inOrder_step S.inOrder_start
  exact ⟨s, hr, ps, ho.freeListOf h⟩

def orderedRun : List Op :=
  [.malloc 4096, .malloc 8192, .malloc 16384, .malloc 4096, .free 3221311488, .malloc 4096,
    .free 3221327872, .malloc 3000, .malloc 8192]

theorem free_list_ok_small :
    Guarded smallHeap.step smallHeap.KeepsOrder smallHeap.start orderedRun ∧
      ∃ s, run smallHeap.step smallHeap.start orderedRun = some s ∧ smallHeap.FreeListOk s :=
  ⟨by decide +kernel, free_list_ok smallHeap (by decide +kernel) (prefix_refl orderedRun)⟩

/-- Two adjacent pages, released from above. The ring goes from the upper one to the lower one, and
they are not joined. -/
theorem free_list_descends :
    ∃ s, run smallHeap.step smallHeap.start
        [.malloc 4096, .malloc 4096, .free 3221303296, .free 3221299200] = some s ∧
      ¬ smallHeap.FreeListOk s := by
  have hlinks : (run smallHeap.step smallHeap.start
      [.malloc 4096, .malloc 4096, .free 3221303296, .free 3221299200]).map
        (fun s => (s.mem.pte smallHeap.pt 0 1, s.mem.pte smallHeap.pt 3 1)) = some (3, 2) := by
    decide +kernel
  obtain ⟨s, hs, hl⟩ := Option.map_eq_some_iff.mp hlinks
  refine ⟨s, hs, ?_⟩
  rintro ⟨ps, h⟩
  have hring := h.ring
  have hasc := h.ascending
  rw [Prod.mk.injEq] at hl
  match ps with
  | [] => simp [hl.1] at hring
  | [p] =>
    obtain ⟨h₁, -, h₂, -⟩ := hring
    simp_all
  | p :: q :: ps =>
    obtain ⟨h₁, -, h₂, -⟩ := hring
    have hlt := (pairwise_cons.mp hasc).1 q mem_cons_self
    simp only at h₁ h₂
    rw [hl.1] at h₁
    subst h₁
    omega

end Smm

end CpuComm
