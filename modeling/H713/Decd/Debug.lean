import H713.Machine.Stores
import H713.Machine.Word
import Mathlib.Data.Nat.Bitwise

/-!
# The debug block

The vsync handler and four tracers write into one `struct dec_debug_info`, taken as an array of
words. A call is one event: none takes a lock, but what they store is within their rings for every
position they read.
-/

namespace Decd

namespace Debug

open Machine List

/-! ### The layout, in words -/

def irqCount : ℕ := 1
def jiffiesHist : ℕ := 2
def jiffiesPos : ℕ := 102
def work : ℕ := 103
def dbgdat : ℕ := 107
def frameTracePos : ℕ := 875
def exceptionTracePos : ℕ := 876

/-! ### The tracers -/

/-- What the tracer reads of a `dec_frame_item` with an image. -/
structure TracedItem where
  imageMap : ℕ
  dmaAddr : ℕ
  size : ℕ
  /-- words 4, 5 and 16 of the video info page -/
  page : Option (ℕ × ℕ × ℕ)

inductive Event where
  | vsync (jiffies : ℕ)
  | recordException (regs : ℕ → ℕ) (a1 a2 jiffies : ℕ)
  | traceFrame (addr fmt : ℕ)
  | traceDmaBufMap (item : TracedItem)
  | traceDmaBufUnmap (item : TracedItem)

def vsyncStores (m : ℕ → ℕ) (jiffies : ℕ) : List (ℕ × ℕ) :=
  let jpos := m jiffiesPos
  let next := if 100 ≤ u32 (jpos + 1) then 0 else u32 (jpos + 1)
  [(jiffiesHist + u32 (jpos + 2), jiffies), (jiffiesPos, next), (irqCount, u32 (m irqCount + 1))]

def recordExceptionStores (m : ℕ → ℕ) (regs : ℕ → ℕ) (a1 a2 jiffies : ℕ) : List (ℕ × ℕ) :=
  let pos := m exceptionTracePos &&& 0x3f
  (List.range 128).map (fun i => (dbgdat + (2 + i), regs i)) ++
    [(exceptionTracePos, u32 (m exceptionTracePos + 1)),
      (dbgdat + (262 + pos * 7), a1),
      (dbgdat + (263 + pos * 7), a2),
      (dbgdat + (264 + pos * 7), jiffies)]

def traceFrameStores (m : ℕ → ℕ) (addr fmt : ℕ) : List (ℕ × ℕ) :=
  let pos := m frameTracePos &&& 0x3f
  [(frameTracePos, u32 (m frameTracePos + 1)),
    (dbgdat + (130 + pos * 2), addr),
    (dbgdat + (131 + pos * 2), fmt)]

def traceDmaBufMapStores (m : ℕ → ℕ) (item : TracedItem) : List (ℕ × ℕ) :=
  let pos := m exceptionTracePos &&& 0x3f
  [(dbgdat + (262 + pos * 7), item.dmaAddr),
    (dbgdat + (263 + pos * 7), item.size),
    (dbgdat + (261 + pos * 7), item.imageMap),
    (dbgdat + (267 + pos * 7), 1)] ++
  (match item.page with
    | none             => []
    | some (w4, w5, w16) =>
      [(dbgdat + (264 + pos * 7), w4),
        (dbgdat + (265 + pos * 7), w5),
        (dbgdat + (266 + pos * 7), w16)]) ++
  [(exceptionTracePos, u32 (m exceptionTracePos + 1))]

def traceDmaBufUnmapStores (m : ℕ → ℕ) (item : TracedItem) : List (ℕ × ℕ) :=
  match (List.range 64).find? (fun i =>
    m (dbgdat + (261 + i * 7)) = item.imageMap ∧ m (dbgdat + (262 + i * 7)) = item.dmaAddr) with
  | none   => []
  | some i => [(dbgdat + (267 + i * 7), 0)]

def stores (m : ℕ → ℕ) : Event → List (ℕ × ℕ)
  | .vsync jiffies                    => vsyncStores m jiffies
  | .recordException regs a1 a2 jiffies => recordExceptionStores m regs a1 a2 jiffies
  | .traceFrame addr fmt              => traceFrameStores m addr fmt
  | .traceDmaBufMap item              => traceDmaBufMapStores m item
  | .traceDmaBufUnmap item            => traceDmaBufUnmapStores m item

def step (m : ℕ → ℕ) (e : Event) : ℕ → ℕ := store (stores m e) m

def run (m : ℕ → ℕ) (es : List Event) : ℕ → ℕ := es.foldl step m

/-! ### What belongs to whom -/

inductive Ring where
  | jiffies
  | frames
  | buffers
  | snapshot
deriving DecidableEq, Repr

def Ring.bounds : Ring → ℕ × ℕ
  | .jiffies  => (jiffiesHist, jiffiesHist + 100)
  | .frames   => (dbgdat + 130, dbgdat + 258)
  | .buffers  => (dbgdat + 261, dbgdat + 709)
  | .snapshot => (dbgdat + 2, dbgdat + 130)

def Ring.words (r : Ring) : Set ℕ := {k | r.bounds.1 ≤ k ∧ k < r.bounds.2}

def Event.rings : Event → List Ring
  | .vsync _                              => [.jiffies]
  | .recordException _ _ _ _              => [.snapshot, .buffers]
  | .traceFrame _ _                       => [.frames]
  | .traceDmaBufMap _ | .traceDmaBufUnmap _ => [.buffers]

def Event.counters : Event → List ℕ
  | .vsync _                                => [jiffiesPos, irqCount]
  | .traceFrame _ _                         => [frameTracePos]
  | .recordException _ _ _ _
  | .traceDmaBufMap _ | .traceDmaBufUnmap _ => [exceptionTracePos]

def own (e : Event) : Set ℕ := {k | (∃ r ∈ e.rings, k ∈ r.words) ∨ k ∈ e.counters}

/-- The tracer stores into its own rings and counters only, and the work item does not change. -/
structure Confined (m : ℕ → ℕ) (e : Event) : Prop where
  stores_own : ∀ w ∈ stores m e, w.1 ∈ own e
  work_same : ∀ k, work ≤ k → k < work + 4 → step m e k = m k
  others_same : ∀ r, r ∉ e.rings → ∀ k ∈ r.words, step m e k = m k

def AllConfined : (ℕ → ℕ) → List Event → Prop
  | _, []      => True
  | m, e :: es => Confined m e ∧ AllConfined (step m e) es

/-! ### Where the stores go -/

variable {m : ℕ → ℕ} {e : Event} {k : ℕ}

@[simp] lemma mem_jiffies : k ∈ Ring.jiffies.words ↔ 2 ≤ k ∧ k < 102 := Iff.rfl

@[simp] lemma mem_frames : k ∈ Ring.frames.words ↔ 237 ≤ k ∧ k < 365 := Iff.rfl

@[simp] lemma mem_buffers : k ∈ Ring.buffers.words ↔ 368 ≤ k ∧ k < 816 := Iff.rfl

@[simp] lemma mem_snapshot : k ∈ Ring.snapshot.words ↔ 109 ≤ k ∧ k < 237 := Iff.rfl

lemma mem_counters (h : k ∈ e.counters) : k = 1 ∨ k = 102 ∨ 875 ≤ k := by
  cases e <;>
    simp only [Event.counters, mem_cons, not_mem_nil, or_false, jiffiesPos, irqCount,
      frameTracePos, exceptionTracePos] at h <;> omega

lemma notMem_own_of_work (hk : work ≤ k) (hk' : k < work + 4) : k ∉ own e := by
  have hwork : work = 103 := rfl
  rintro (⟨r, -, hr⟩ | hc)
  · cases r <;> simp at hr <;> omega
  · have := mem_counters hc
    omega

lemma Ring.eq_of_mem {r r' : Ring} (h : k ∈ r.words) (h' : k ∈ r'.words) : r = r' := by
  cases r <;> cases r' <;> first
    | rfl
    | simp at h h'
      omega

lemma Ring.notMem_counters {r : Ring} (h : k ∈ r.words) : k ∉ e.counters := by
  intro hc
  have := mem_counters hc
  cases r <;> simp at h <;> omega

lemma step_of_notMem_own (h : ∀ w ∈ stores m e, w.1 ∈ own e) (hk : k ∉ own e) :
    step m e k = m k :=
  store_of_notMem (fun w hw (heq : w.1 = k) => hk (heq ▸ h w hw)) m

lemma confined_iff : Confined m e ↔ ∀ w ∈ stores m e, w.1 ∈ own e := by
  refine ⟨Confined.stores_own, fun h => ⟨h, fun k hk hk' => ?_, fun r hr k hk => ?_⟩⟩
  · exact step_of_notMem_own h (notMem_own_of_work hk hk')
  · refine step_of_notMem_own h ?_
    rintro (⟨r', hr', hk'⟩ | hc)
    · exact hr (Ring.eq_of_mem hk hk' ▸ hr')
    · exact Ring.notMem_counters hk hc

lemma and_mask_le (n : ℕ) : n &&& 0x3f ≤ 63 := Nat.and_le_right

lemma mem_own_of_ring {r : Ring} (hr : r ∈ e.rings) (hk : k ∈ r.words) : k ∈ own e :=
  .inl ⟨r, hr, hk⟩

lemma entry_mem_buffers {pos i : ℕ} (hpos : pos ≤ 63) (hi : 261 ≤ i) (hi' : i ≤ 267) :
    dbgdat + (i + pos * 7) ∈ Ring.buffers.words := by
  have hdat : dbgdat = 107 := rfl
  exact mem_buffers.mpr (by omega)

lemma recordException_own {regs : ℕ → ℕ} {a1 a2 jiffies : ℕ} {w : ℕ × ℕ}
    (hw : w ∈ recordExceptionStores m regs a1 a2 jiffies) :
    w.1 ∈ own (.recordException regs a1 a2 jiffies) := by
  have hpos := and_mask_le (m exceptionTracePos)
  have hdat : dbgdat = 107 := rfl
  rcases mem_append.mp hw with hsnap | hentry
  · obtain ⟨i, hi, rfl⟩ := mem_map.mp hsnap
    have hi := mem_range.mp hi
    exact mem_own_of_ring mem_cons_self (mem_snapshot.mpr (by dsimp only; omega))
  · have hbuffers : Ring.buffers ∈ Event.rings (.recordException regs a1 a2 jiffies) :=
      mem_cons_of_mem _ mem_cons_self
    simp only [mem_cons, not_mem_nil, or_false] at hentry
    rcases hentry with rfl | rfl | rfl | rfl
    · exact .inr mem_cons_self
    all_goals exact mem_own_of_ring hbuffers (entry_mem_buffers hpos (by decide) (by decide))

lemma traceFrame_own {addr fmt : ℕ} {w : ℕ × ℕ} (hw : w ∈ traceFrameStores m addr fmt) :
    w.1 ∈ own (.traceFrame addr fmt) := by
  have hpos := and_mask_le (m frameTracePos)
  have hdat : dbgdat = 107 := rfl
  simp only [traceFrameStores, mem_cons, not_mem_nil, or_false] at hw
  rcases hw with rfl | rfl | rfl
  · exact .inr mem_cons_self
  all_goals
    refine mem_own_of_ring mem_cons_self (mem_frames.mpr ?_)
    omega

lemma traceDmaBufMap_own {item : TracedItem} {w : ℕ × ℕ} (hw : w ∈ traceDmaBufMapStores m item) :
    w.1 ∈ own (.traceDmaBufMap item) := by
  have hpos := and_mask_le (m exceptionTracePos)
  rcases mem_append.mp hw with hentry | hcount
  · refine mem_own_of_ring mem_cons_self ?_
    rcases mem_append.mp hentry with hbuf | hinfo
    · simp only [mem_cons, not_mem_nil, or_false] at hbuf
      rcases hbuf with rfl | rfl | rfl | rfl
      all_goals exact entry_mem_buffers hpos (by decide) (by decide)
    · -- the three words of the video info page, if there is one
      cases hpage : item.page with
      | none =>
        rw [hpage] at hinfo
        exact absurd hinfo not_mem_nil
      | some words =>
        rw [hpage] at hinfo
        simp only [mem_cons, not_mem_nil, or_false] at hinfo
        rcases hinfo with rfl | rfl | rfl
        all_goals exact entry_mem_buffers hpos (by decide) (by decide)
  · obtain rfl := mem_singleton.mp hcount
    exact .inr mem_cons_self

lemma traceDmaBufUnmap_own {item : TracedItem} {w : ℕ × ℕ}
    (hw : w ∈ traceDmaBufUnmapStores m item) : w.1 ∈ own (.traceDmaBufUnmap item) := by
  rw [traceDmaBufUnmapStores] at hw
  split at hw
  · exact absurd hw not_mem_nil
  · rename_i i hi
    obtain rfl := mem_singleton.mp hw
    have hlt := mem_range.mp (mem_of_find?_eq_some hi)
    exact mem_own_of_ring mem_cons_self
      (entry_mem_buffers (Nat.le_of_lt_succ hlt) (by decide) (by decide))

lemma confined_of_not_vsync (hv : ∀ j, e ≠ .vsync j) : Confined m e := by
  rw [confined_iff]
  intro w hw
  cases e with
  | vsync j => exact absurd rfl (hv j)
  | recordException regs a1 a2 jiffies => exact recordException_own hw
  | traceFrame addr fmt => exact traceFrame_own hw
  | traceDmaBufMap item => exact traceDmaBufMap_own hw
  | traceDmaBufUnmap item => exact traceDmaBufUnmap_own hw

/-! ### The interrupt handler -/

lemma confined_vsync_iff (j : ℕ) (hpos : m jiffiesPos < 100) :
    Confined m (.vsync j) ↔ m jiffiesPos ≠ 99 := by
  rw [confined_iff]
  have hmem : ∀ k, k ∈ own (.vsync j) ↔ 1 ≤ k ∧ k ≤ 102 := by
    intro k
    simp only [own, Event.rings, Event.counters, mem_cons, not_mem_nil, or_false,
      exists_eq_left, mem_jiffies, Set.mem_ofPred_eq, jiffiesPos, irqCount]
    omega
  have hadd : u32 (m jiffiesPos + 2) = m jiffiesPos + 2 := u32_of_lt (by omega)
  constructor
  · intro h heq
    have hstore := (hmem _).mp (h _ mem_cons_self)
    dsimp only at hstore
    rw [hadd, heq] at hstore
    exact absurd hstore.2 (by decide)
  · intro hne w hw
    have hhist : jiffiesHist = 2 := rfl
    rw [hmem]
    simp only [stores, vsyncStores, mem_cons, not_mem_nil, or_false] at hw
    rcases hw with rfl | rfl | rfl
    · dsimp only
      omega
    · exact ⟨show 1 ≤ jiffiesPos by decide, le_rfl⟩
    · exact ⟨le_rfl, show irqCount ≤ 102 by decide⟩

lemma step_vsync_jiffiesPos (j : ℕ) (hpos : m jiffiesPos < 100) :
    step m (.vsync j) jiffiesPos = (m jiffiesPos + 1) % 100 := by
  have hstep : step m (.vsync j) jiffiesPos =
      if 100 ≤ u32 (m jiffiesPos + 1) then 0 else u32 (m jiffiesPos + 1) := by
    simp only [step, stores, vsyncStores, store_cons, store_nil]
    rw [Function.update_of_ne (by decide), Function.update_self]
  rw [hstep, u32_of_lt (by omega)]
  split_ifs <;> omega

lemma step_jiffiesPos (hv : ∀ j, e ≠ .vsync j) : step m e jiffiesPos = m jiffiesPos := by
  refine step_of_notMem_own (confined_of_not_vsync hv).stores_own ?_
  rintro (⟨r, -, hk⟩ | hc)
  · cases r <;> simp [jiffiesPos] at hk
  · cases e with
    | vsync j => exact hv j rfl
    | _ => simp [Event.counters, jiffiesPos, frameTracePos, exceptionTracePos] at hc

def Event.isVsync : Event → Bool
  | .vsync _ => true
  | _        => false

def vsyncs (es : List Event) : ℕ := es.countP Event.isVsync

lemma allConfined_iff (hpos : m jiffiesPos < 100) (es : List Event) :
    AllConfined m es ↔ m jiffiesPos + vsyncs es < 100 := by
  induction es generalizing m with
  | nil => exact iff_of_true trivial hpos
  | cons e es ih =>
    rw [AllConfined]
    by_cases hv : ∃ j, e = .vsync j
    · obtain ⟨j, rfl⟩ := hv
      have hstep := step_vsync_jiffiesPos (m := m) j hpos
      have hcount : vsyncs (.vsync j :: es) = vsyncs es + 1 := countP_cons_of_pos rfl
      rw [confined_vsync_iff j hpos, ih (by omega), hstep, hcount]
      omega
    · have hv' : ∀ j, e ≠ .vsync j := fun j h => hv ⟨j, h⟩
      have hcount : vsyncs (e :: es) = vsyncs es := by
        refine countP_cons_of_neg ?_
        cases e with
        | vsync j => exact absurd rfl (hv' j)
        | _ => exact Bool.false_ne_true
      have hstep := step_jiffiesPos (m := m) hv'
      rw [ih (by omega), hstep, hcount]
      exact and_iff_right (confined_of_not_vsync hv')

/-- From a cleared block, all tracers keep to their rings and counters and leave the work item alone
exactly as long as there are fewer than a hundred interrupts. -/
theorem tracers_confined_iff (hzero : m jiffiesPos = 0) (es : List Event) :
    AllConfined m es ↔ vsyncs es < 100 := by
  rw [allConfined_iff (by omega), hzero, Nat.zero_add]

theorem tracers_confined_iff_two :
    AllConfined (fun _ => 0) [.vsync 7, .traceFrame 1 2, .recordException (fun i => i) 3 4 7] :=
  (tracers_confined_iff rfl _).mpr (by decide)

/-- The hundredth interrupt, at the time 5, overwrites the first word of the work item. -/
theorem hundredth_vsync_overwrites_work :
    run (fun _ => 0) (List.replicate 99 (.vsync 4)) work = 0 ∧
      run (fun _ => 0) (List.replicate 99 (.vsync 4) ++ [.vsync 5]) work = 5 := by
  decide +kernel

end Debug

end Decd
