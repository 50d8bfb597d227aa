import H713.Decd.Lock

/-!
# The display of a progressive stream

When a refresh finds the ready list empty it shows the last frame again and sets `force_interlace`,
which nothing clears, and with it set a refresh does not take a frame from the list.
-/

namespace Decd

open Machine Option

namespace Manager

variable {m m' : Manager} {f k : ℕ} {rest : List ℕ}

def Shows (m : Manager) (f : ℕ) : Prop :=
  m.slot0 = .frame f ∧ m.slot1 = .frame f ∧ m.slot2 = .frame f ∧ m.slot3 = .frame f

lemma Shows.unique (h : m.Shows f) (h' : m.Shows k) : f = k :=
  FramePtr.frame.inj (h.1.symm.trans h'.1)

/-! ### The pieces of a progressive stream -/

def Unpaired (m : Manager) : Prop := ¬ (m.type = 1 ∧ m.pair1 ≠ .null)

lemma decFramePop_cons (hp : m.Unpaired) (hready : m.ready = f :: rest) :
    m.decFramePop = .ok ({ m with ready := rest }, .frame f) := by
  rw [decFramePop, if_neg hp, hready]

lemma decFramePop_nil (hp : m.Unpaired) (hready : m.ready = []) :
    m.decFramePop = .ok (m, .null) := by
  rw [decFramePop, if_neg hp, hready]

lemma decFrameQueueEnqueue_frame (hd : m.dirty = false) (f : ℕ) :
    m.decFrameQueueEnqueue (.frame f) =
      .ok ({ (m.decFrameDeferRelease m.slot3).showAll (.frame f) with
        counts := m.counts.inc f, softRepeatCount := 0, dirty := true }, 0) := by
  rw [decFrameQueueEnqueue, if_neg (fun h => by cases h), if_neg (by simp [hd])]
  rfl

def showNext (m : Manager) (f : ℕ) (rest : List ℕ) : Manager :=
  { (m.decFrameDeferRelease m.slot3).showAll (.frame f) with
    ready := rest, counts := (m.counts.inc f).put f, softRepeatCount := 0, dirty := true
    forceInterlace := false }

lemma refreshNext_cons (hp : m.Unpaired) (hd : m.dirty = false) (hready : m.ready = f :: rest) :
    m.refreshNext = .ok (m.showNext f rest) := by
  have hd' : { m with ready := rest }.dirty = false := hd
  simp only [refreshNext, decFramePop_cons hp hready, ok_bind, decFrameQueueEnqueue_frame hd',
    dropOrRequeue, if_pos, videoFramePut]
  rfl

def showAgain (m : Manager) (f : ℕ) : Manager :=
  { m.decFrameDeferRelease m.slot3 with
    slot3 := m.slot2, slot2 := m.slot1, counts := m.counts.inc f, dirty := true
    softRepeatCount := u32 (m.softRepeatCount + 1), forceInterlace := true }

lemma refreshNext_nil (hp : m.Unpaired) (hi : m.interlace = false) (hready : m.ready = [])
    (hs : m.slot0 = .frame f) :
    m.refreshNext = .ok (m.showAgain f) := by
  have hne : ¬ FramePtr.frame f = .null := fun h => by cases h
  simp only [refreshNext, decFramePop_nil hp hready, ok_bind, decFrameQueueRepeat, hi, showAgain]
  simp only [refcountIncSlot, decFrameDeferRelease, hs, if_neg hne, refcountInc, ok_bind,
    Bool.false_eq_true, if_false]

def showFirst (m : Manager) (f : ℕ) : Manager :=
  { m.showAll (.frame f) with
    counts := (m.counts.inc f).put f
    interlace := false, toggle := false, fieldPattern := 0
    type := if m.forceInterlace then 1 else 0
    repeatCurrent := if m.forceInterlace then m.repeatCurrent else 0
    interlaceHold := .one, dirty := true, softRepeatCount := 0, repeatBudget := 1
    state := 1 }

lemma startWith_plain (h : m.alt f = false) : m.startWith f = .ok (m.showFirst f) := by
  simp only [startWith, refcountInc, ok_bind, startStream, showAll, showFirst, h,
    Bool.false_eq_true, if_false]
  split_ifs <;> rfl

lemma startNext_cons (hp : m.Unpaired) (hready : m.ready = f :: rest) (h : m.alt f = false) :
    m.startNext = .ok ({ m with ready := rest }.showFirst f) := by
  rw [startNext, decFramePop_cons hp hready, ok_bind]
  exact startWith_plain h

/-! ### Calls that leave the display alone -/

lemma refreshBody_other (hs : m.state ≤ 3) (h1 : m.state ≠ 1) (h3 : m.state ≠ 3) :
    m.refreshBody = .ok m := by
  have h4 : m.state ≠ 4 := by omega
  have h5 : m.state ≠ 5 := by omega
  simp [refreshBody, h1, h3, h4, h5]

lemma videoFramePut_frame {vf : FramePtr} (h : m.videoFramePut vf = .ok m') :
    ∃ c, m' = { m with counts := c } := by
  cases vf with
  | null =>
    cases h
    exact ⟨_, rfl⟩
  | one => cases h
  | frame f =>
    cases h
    exact ⟨_, rfl⟩

lemma dropLastFrame_frame (h : m.dropLastFrame = .ok m') :
    ∃ c, m' = { m with counts := c, lastFrame := .null } := by
  obtain ⟨m₁, hput, h⟩ := bind_eq_ok.mp h
  obtain ⟨c, rfl⟩ := videoFramePut_frame hput
  cases h
  exact ⟨c, rfl⟩

lemma putReleased_frame {l : List FramePtr} (h : putReleased l m = .ok m') :
    ∃ c q, m' = { m with counts := c, releaseFifo := q } := by
  induction l generalizing m with
  | nil =>
    cases h
    exact ⟨_, _, rfl⟩
  | cons vf l ih =>
    cases l with
    | nil =>
      cases h
      exact ⟨_, _, rfl⟩
    | cons vf' l =>
      obtain ⟨m₁, hput, h⟩ := bind_eq_ok.mp h
      obtain ⟨c, rfl⟩ := videoFramePut_frame hput
      obtain ⟨c', q, rfl⟩ := ih h
      exact ⟨c', q, rfl⟩

lemma decFrameReleaseProcess_frame (h : m.decFrameReleaseProcess = .ok m') :
    ∃ c q vf, m' = { m with counts := c, releaseFifo := q, lastFrame := vf } := by
  obtain ⟨m₁, hput, h⟩ := bind_eq_ok.mp h
  obtain ⟨c, q, rfl⟩ := putReleased_frame hput
  split_ifs at h
  · cases h
    exact ⟨c, q, m.lastFrame, rfl⟩
  · cases q with
    | nil =>
      cases h
      exact ⟨c, [], m.lastFrame, rfl⟩
    | cons vf l =>
      cases h
      exact ⟨c, l, vf, rfl⟩

/-! ### Runs with progressive frames -/

def Event.Progressive : Event → Prop
  | .submit alt          => alt = false
  | .interlaceSetup _ _  => False
  | _                    => True

def Playing (m : Manager) : Prop :=
  ∃ k < m.created, m.Shows k ∧ m.ready = List.range' (k + 1) (m.created - (k + 1))

structure Progressive (m : Manager) : Prop where
  interlace : m.interlace = false
  pair0 : m.pair0 = .null
  pair1 : m.pair1 = .null
  alt : ∀ f, m.alt f = false
  state : m.state ≤ 3
  /-- before the first frame -/
  fresh : m.state = 0 → m.created = 0 ∧ m.ready = [] ∧ m.dirty = false ∧
    m.forceInterlace = false ∧ m.waiting = false
  playing : m.state ≠ 0 → m.Playing

namespace Progressive

lemma init : decFrameManagerInit.Progressive where
  interlace := rfl
  pair0 := rfl
  pair1 := rfl
  alt := fun _ => rfl
  state := by decide
  fresh := fun _ => ⟨rfl, rfl, rfl, rfl, rfl⟩
  playing := fun h => absurd rfl h

lemma unpaired (h : m.Progressive) : m.Unpaired := fun hp => hp.2 h.pair1

lemma playing_of_state {n : ℕ} (h : m.Progressive) (hn : m.state = n) (h0 : n ≠ 0) : m.Playing :=
  h.playing (hn ▸ h0)

lemma of_playing (h : m.Progressive) (hi : m'.interlace = m.interlace)
    (hp₀ : m'.pair0 = m.pair0) (hp₁ : m'.pair1 = m.pair1) (ha : m'.alt = m.alt)
    (hs : m'.state ≤ 3) (hs₀ : m'.state ≠ 0) (hplay : m'.Playing) : m'.Progressive where
  interlace := hi.trans h.interlace
  pair0 := hp₀.trans h.pair0
  pair1 := hp₁.trans h.pair1
  alt := fun f => by rw [ha, h.alt]
  state := hs
  fresh := fun h0 => absurd h0 hs₀
  playing := fun _ => hplay

end Progressive

def Underrun (m : Manager) (e : Event) : Prop :=
  e = .refresh ∧ m.state = 1 ∧ m.dirty = false ∧ m.ready = []

namespace Progressive

/-! ### Refresh -/

lemma refreshBody_cons (h : m.Progressive) (h1 : m.state = 1) (hd : m.dirty = false)
    (hf : m.forceInterlace = false) (hready : m.ready = f :: rest) :
    m.refreshBody = .ok (m.showNext f rest) := by
  rw [← refreshNext_cons h.unpaired hd hready]
  simp [refreshBody, refreshPlaying, h1, hd, hf, h.interlace]

lemma refreshBody_nil (h : m.Progressive) (h1 : m.state = 1) (hd : m.dirty = false)
    (hf : m.forceInterlace = false) (hready : m.ready = []) (hs : m.slot0 = .frame f) :
    m.refreshBody = .ok (m.showAgain f) := by
  rw [← refreshNext_nil h.unpaired h.interlace hready hs]
  simp [refreshBody, refreshPlaying, h1, hd, hf, h.interlace]

lemma refreshBody_forced (h : m.Progressive) (h1 : m.state = 1) (hf : m.forceInterlace = true) :
    m.refreshBody = .ok m := by
  simp [refreshBody, refreshPlaying, refreshPair, h1, hf, h.interlace, h.pair0]

lemma refreshBody (h : m.Progressive) (hc : ¬ i32 m.shutdownCounter < 0)
    (hb : m.refreshBody = .ok m') :
    m'.Progressive ∧
      (m'.forceInterlace = true ↔ m.forceInterlace = true ∨ m.Underrun .refresh) := by
  by_cases hd : m.dirty = true
  · have hb' : m.refreshBody = .ok m := if_pos hd
    cases hb'.symm.trans hb
    refine ⟨h, by simp [Underrun, hd]⟩
  have hd : m.dirty = false := Bool.eq_false_of_not_eq_true hd
  by_cases h1 : m.state = 1
  · obtain ⟨k, hk, hshows, hready⟩ := h.playing_of_state h1 (by decide)
    have hne : m.state ≠ 0 := by rw [h1]; decide
    by_cases hf : m.forceInterlace = true
    · cases (h.refreshBody_forced h1 hf).symm.trans hb
      exact ⟨h, by simp [hf]⟩
    have hf : m.forceInterlace = false := Bool.eq_false_of_not_eq_true hf
    cases hlist : m.ready with
    | nil =>
      cases (h.refreshBody_nil h1 hd hf hlist hshows.1).symm.trans hb
      refine ⟨h.of_playing rfl rfl rfl rfl h.state hne
        ⟨k, hk, ⟨hshows.1, hshows.2.1, hshows.2.1, hshows.2.2.1⟩, hready⟩, ?_⟩
      simp [Underrun, h1, hd, hlist, showAgain]
    | cons f rest =>
      cases (h.refreshBody_cons h1 hd hf hlist).symm.trans hb
      -- the list starts with the frame after the one that was shown
      obtain ⟨n, hn⟩ : ∃ n, m.created - (k + 1) = n + 1 :=
        Nat.exists_eq_succ_of_ne_zero fun h0 => by simp [hlist, h0] at hready
      rw [hn, List.range'_succ, hlist] at hready
      obtain ⟨rfl, hrest⟩ := List.cons.inj hready
      have hlt : k + 1 < m.created := by omega
      refine ⟨h.of_playing rfl rfl rfl rfl h.state hne
        ⟨k + 1, hlt, ⟨rfl, rfl, rfl, rfl⟩, ?_⟩, ?_⟩
      · rw [show n = m.created - (k + 1 + 1) by omega] at hrest
        exact hrest
      · simp [Underrun, hf, hlist, showNext]
  have hno : ¬ m.Underrun .refresh := fun hu => h1 hu.2.1
  by_cases h3 : m.state = 3
  · rw [refreshBody_stopping hc h3 hd, refreshStopping_of_plain h.interlace] at hb
    cases hb
    obtain ⟨k, hk, hshows, hready⟩ := h.playing_of_state h3 (by decide)
    refine ⟨h.of_playing rfl rfl rfl rfl (show 2 ≤ 3 by decide) (show 2 ≠ 0 by decide)
      ⟨k, hk, hshows, hready⟩, by simp [hno]⟩
  · cases (refreshBody_other h.state h1 h3).symm.trans hb
    exact ⟨h, by simp [hno]⟩

lemma refresh (h : m.Progressive) (hrest : m.Resting) (hr : m.decFrameQueueRefresh = .ok m') :
    m'.Progressive ∧
      (m'.forceInterlace = true ↔ m.forceInterlace = true ∨ m.Underrun .refresh) := by
  have ht : m.clearScheduled.taken.Progressive := ⟨h.1, h.2, h.3, h.4, h.5, h.6, h.7⟩
  rw [decFrameQueueRefresh, lock_of_free (m := m.clearScheduled) hrest.locked, ok_bind] at hr
  obtain ⟨m₁, hb, hm⟩ := bind_eq_ok.mp hr
  obtain ⟨h₁, hf⟩ := ht.refreshBody hrest.counter hb
  cases hm
  exact ⟨⟨h₁.1, h₁.2, h₁.3, h₁.4, h₁.5, h₁.6, h₁.7⟩, hf⟩

/-! ### The other events -/

lemma vsynced (h : m.Progressive) :
    m.vsynced.Progressive ∧ m.vsynced.forceInterlace = m.forceInterlace := by
  have hfresh (h0 : m.state = 0) : m.created = 0 ∧ m.ready = [] ∧ false = false ∧
      m.forceInterlace = false ∧ m.waiting = false :=
    ⟨(h.fresh h0).1, (h.fresh h0).2.1, rfl, (h.fresh h0).2.2.2⟩
  unfold Manager.vsynced synced
  split_ifs with hs hd hd
  · exact ⟨⟨h.1, h.2, h.3, h.4, h.5, hfresh, h.7⟩, rfl⟩
  · exact ⟨⟨h.1, h.2, h.3, h.4, h.5, h.6, h.7⟩, rfl⟩
  · exact ⟨⟨h.1, h.2, h.3, h.4, h.5, hfresh, h.7⟩, rfl⟩
  · exact ⟨h, rfl⟩

lemma playing_addReady (h : m.Playing) : (m.addReady false).Playing := by
  obtain ⟨k, hk, hshows, hready⟩ := h
  refine ⟨k, Nat.lt_succ_of_lt hk, hshows, ?_⟩
  have hlen : m.created + 1 - (k + 1) = m.created - (k + 1) + 1 := by omega
  have hlast : k + 1 + (m.created - (k + 1)) = m.created := by omega
  show m.ready ++ [m.created] = List.range' (k + 1) (m.created + 1 - (k + 1))
  rw [hready, hlen, List.range'_1_concat, hlast]

lemma addReady (h : m.Progressive) (f : ℕ) : (m.addReady false).alt f = false := by
  by_cases hf : f = m.created
  · simp [Manager.addReady, decCreateVideoFrame, hf]
  · simp [Manager.addReady, decCreateVideoFrame, hf, h.alt]

lemma start_addReady (h : m.Progressive) (h0 : m.state = 0)
    (hs : (m.addReady false).taken.start = .ok m') :
    m'.Progressive ∧ m'.forceInterlace = m.forceInterlace := by
  obtain ⟨hcreated, hready, hdirty, -, -⟩ := h.fresh h0
  rw [start, if_neg (by exact Bool.eq_false_iff.mp hdirty)] at hs
  obtain ⟨m₁, hdrop, hs⟩ := bind_eq_ok.mp hs
  obtain ⟨c, hm₁⟩ := dropLastFrame_frame hdrop
  have hpair : m₁.pair1 = .null := by rw [hm₁]; exact h.pair1
  have hlist : m₁.ready = [m.created] := by
    rw [hm₁]
    show m.ready ++ [m.created] = [m.created]
    rw [hready]
    rfl
  have halt (f : ℕ) : m₁.alt f = false := by rw [hm₁]; exact h.addReady f
  cases (startNext_cons (fun hp => hp.2 hpair) hlist (halt m.created)).symm.trans hs
  have hone : 1 ≠ 0 := by decide
  refine ⟨⟨rfl, by rw [hm₁]; exact h.pair0, hpair, halt, show 1 ≤ 3 by decide,
    fun h1 => absurd h1 hone, fun _ => ?_⟩, by rw [hm₁]; rfl⟩
  refine ⟨m.created, by rw [hm₁]; exact Nat.lt_succ_self _, ⟨rfl, rfl, rfl, rfl⟩, ?_⟩
  show [] = List.range' (m.created + 1) (m₁.created - (m.created + 1))
  have hlen : m₁.created = m.created + 1 := by rw [hm₁]; rfl
  rw [hlen, Nat.sub_self]
  rfl

lemma submit (h : m.Progressive) (hrest : m.Resting)
    (hs : m.decFrameManagerEnqueueFrame false = .ok m') :
    m'.Progressive ∧ m'.forceInterlace = m.forceInterlace := by
  have hstarted (h0 : m.state ≠ 0) := playing_addReady (h.playing h0)
  unfold decFrameManagerEnqueueFrame decFrameQueueResume at hs
  split_ifs at hs with h2 h0
  · cases hs
    have hone : 1 ≠ 0 := by decide
    have hne : m.state ≠ 0 := fun h0 => by cases h0.symm.trans h2
    exact ⟨⟨h.1, h.2, h.3, h.addReady, show 1 ≤ 3 by decide, fun h1 => absurd h1 hone,
      fun _ => hstarted hne⟩, rfl⟩
  · cases hs
    exact ⟨⟨h.1, h.2, h.3, h.addReady, h.5, fun h1 => absurd h1 h0, fun _ => hstarted h0⟩, rfl⟩
  · rw [lock_of_free (m := m.addReady false) hrest.locked, ok_bind] at hs
    obtain ⟨m₁, hstart, hs⟩ := bind_eq_ok.mp hs
    obtain ⟨h₁, hf⟩ := h.start_addReady (not_not.mp h0) hstart
    cases hs
    exact ⟨⟨h₁.1, h₁.2, h₁.3, h₁.4, h₁.5, h₁.6, h₁.7⟩, hf⟩

lemma stop (h : m.Progressive) :
    m.decFrameManagerStop.Progressive ∧
      m.decFrameManagerStop.forceInterlace = m.forceInterlace := by
  unfold decFrameManagerStop
  by_cases h0 : m.state = 0
  · simp only [h0, if_neg (show ¬ (0 = 1 ∨ 0 = 2) by decide), if_true]
    exact ⟨h, trivial⟩
  · by_cases hs : m.state = 1 ∨ m.state = 2
    · have hthree : 3 ≠ 0 := by decide
      simp only [if_pos hs, if_neg hthree]
      exact ⟨⟨h.1, h.2, h.3, h.4, Nat.le_refl 3, fun h3 => absurd h3 hthree, fun _ => h.7 h0⟩,
        trivial⟩
    · simp only [if_neg hs, if_neg h0]
      exact ⟨⟨h.1, h.2, h.3, h.4, h.5, fun h3 => absurd h3 h0, h.7⟩, trivial⟩

lemma step {e : Event} (h : m.Progressive) (hrest : m.Resting) (he : e.Progressive)
    (hs : m.step e = some m') :
    m'.Progressive ∧ (m'.forceInterlace = true ↔ m.forceInterlace = true ∨ m.Underrun e) := by
  cases e with
  | submit alt =>
    simp only [Manager.step, ite_none_left_eq_some, toOption_eq_some] at hs
    obtain rfl : alt = false := he
    obtain ⟨h', hf⟩ := h.submit hrest hs.2
    exact ⟨h', by simp [hf, Underrun]⟩
  | interlaceSetup altTop altBottom => exact he.elim
  | vsync =>
    rw [Manager.step, toOption_eq_some] at hs
    obtain ⟨-, rfl⟩ := hrest.vsync_ok hs
    obtain ⟨h', hf⟩ := h.vsynced
    exact ⟨h', by simp [hf, Underrun]⟩
  | refresh =>
    simp only [Manager.step, ite_none_right_eq_some, toOption_eq_some] at hs
    exact h.refresh hrest hs.2
  | releaseWork =>
    simp only [Manager.step, ite_none_right_eq_some, toOption_eq_some] at hs
    obtain ⟨c, q, vf, rfl⟩ := decFrameReleaseProcess_frame hs.2
    exact ⟨⟨h.1, h.2, h.3, h.4, h.5, h.6, h.7⟩, by simp [Underrun]⟩
  | stop =>
    simp only [Manager.step, ite_none_left_eq_some, Option.some.injEq] at hs
    rw [← hs.2]
    obtain ⟨h', hf⟩ := h.stop
    exact ⟨h', by simp [hf, Underrun]⟩
  | wake =>
    simp only [Manager.step, ite_none_right_eq_some, toOption_eq_some] at hs
    -- before the first frame nothing waits
    cases (h.fresh hs.1.2).2.2.2.2.symm.trans hs.1.1
  | timeout =>
    simp only [Manager.step, ite_none_right_eq_some, Option.some.injEq] at hs
    rw [← hs.2]
    exact ⟨⟨h.1, h.2, h.3, h.4, h.5, fun h0 => absurd h0 hs.1.2, h.7⟩, by simp [Underrun]⟩

lemma run {es : List Event} (h : m.Progressive) (hrest : m.Resting)
    (hes : ∀ e ∈ es, e.Progressive) (hr : run Manager.step m es = some m') :
    m'.Progressive ∧ (m'.forceInterlace = false ↔
      m.forceInterlace = false ∧ Guarded Manager.step (fun m e => ¬ m.Underrun e) m es) := by
  induction es generalizing m with
  | nil =>
    cases hr
    exact ⟨h, (and_iff_left trivial).symm⟩
  | cons e es ih =>
    obtain ⟨m₁, hs, hr⟩ := run_cons_eq_some.mp hr
    obtain ⟨h₁, hf₁⟩ := h.step hrest (hes e List.mem_cons_self) hs
    obtain ⟨h', hf⟩ := ih h₁ (hrest.step hs) (fun e he => hes e (List.mem_cons_of_mem _ he)) hr
    have hf₁' : m₁.forceInterlace = false ↔ m.forceInterlace = false ∧ ¬ m.Underrun e := by
      rw [← Bool.not_eq_true, hf₁, not_or, Bool.not_eq_true]
    refine ⟨h', ?_⟩
    rw [hf, hf₁', and_assoc, Guarded]
    refine and_congr_right fun _ => and_congr_right fun _ => ⟨?_, fun hg => hg m₁ hs⟩
    intro hg m₂ hs₂
    cases hs.symm.trans hs₂
    exact hg

end Progressive

/-- In a progressive stream the slots show a frame and the ready list has those submitted after it,
in order. A refresh takes the next one exactly if there has been no underrun. -/
theorem refresh_takes_iff (es : List Event) (m : Manager) (hes : ∀ e ∈ es, e.Progressive)
    (hr : run step decFrameManagerInit es = some m) (h1 : m.state = 1) :
    ∃ k, m.Shows k ∧ m.ready = List.range' (k + 1) (m.created - (k + 1)) ∧
      (m.dirty = false → m.ready ≠ [] →
        ((∃ m', m.decFrameQueueRefresh = .ok m' ∧ m'.Shows (k + 1) ∧ m'.ready = m.ready.tail) ↔
          Guarded step (fun m e => ¬ m.Underrun e) decFrameManagerInit es) ∧
        (¬ Guarded step (fun m e => ¬ m.Underrun e) decFrameManagerInit es →
          ∃ m', m.decFrameQueueRefresh = .ok m' ∧ m'.Shows k ∧ m'.ready = m.ready)) := by
  have hrest := resting_of_run hr
  obtain ⟨h, hforce⟩ := Progressive.init.run .init hes hr
  have ht : m.clearScheduled.taken.Progressive := ⟨h.1, h.2, h.3, h.4, h.5, h.6, h.7⟩
  obtain ⟨k, hk, hshows, hready⟩ := h.playing_of_state h1 (by decide)
  refine ⟨k, hshows, hready, fun hd hne => ?_⟩
  rw [← (hforce.trans (and_iff_right rfl))]
  have hstuck (hf : m.forceInterlace = true) :
      ∃ m', m.decFrameQueueRefresh = .ok m' ∧ m'.Shows k ∧ m'.ready = m.ready :=
    ⟨_, hrest.refresh_eq (ht.refreshBody_forced h1 hf), hshows, rfl⟩
  refine ⟨⟨fun htakes => ?_, fun hf => ?_⟩, fun hf => hstuck (by simpa using hf)⟩
  · by_contra hf
    obtain ⟨m', hm', hnext, -⟩ := htakes
    obtain ⟨m'', hm'', hsame, -⟩ := hstuck (by simpa using hf)
    cases hm'.symm.trans hm''
    exact absurd (hnext.unique hsame) (Nat.succ_ne_self k)
  · obtain ⟨n, hn⟩ : ∃ n, m.created - (k + 1) = n + 1 :=
      Nat.exists_eq_succ_of_ne_zero fun h0 => hne (by rw [hready, h0]; rfl)
    rw [hn, List.range'_succ] at hready
    exact ⟨_, hrest.refresh_eq (ht.refreshBody_cons h1 hd hf hready), ⟨rfl, rfl, rfl, rfl⟩,
      by rw [hready]; rfl⟩

/-- Without an underrun the second of two frames comes into the slots. -/
theorem refresh_takes_iff_second :
    ∃ m, run step decFrameManagerInit [.submit false, .submit false, .vsync] = some m ∧
      m.state = 1 ∧ m.dirty = false ∧ m.ready = [1] ∧ m.Shows 0 ∧
      (∃ m', m.decFrameQueueRefresh = .ok m' ∧ m'.Shows 1) := by
  have hrun : (run step decFrameManagerInit [.submit false, .submit false, .vsync]).map
      (fun m => (m.state, m.dirty, m.ready, m.slot0)) = some (1, false, [1], .frame 0) := by
    decide +kernel
  obtain ⟨m, hm, hall⟩ := map_eq_some_iff.mp hrun
  obtain ⟨h1, hall⟩ := Prod.mk.inj hall
  obtain ⟨hd, hall⟩ := Prod.mk.inj hall
  obtain ⟨hready, hslot⟩ := Prod.mk.inj hall
  have hes : ∀ e ∈ [Event.submit false, .submit false, .vsync], e.Progressive := by
    simp [Event.Progressive]
  obtain ⟨k, hk, -, htakes⟩ := refresh_takes_iff _ m hes hm h1
  obtain rfl : 0 = k := FramePtr.frame.inj (hslot.symm.trans hk.1)
  have hguard : Guarded step (fun m e => ¬ m.Underrun e) decFrameManagerInit
      [.submit false, .submit false, .vsync] := by
    simp [Guarded, Underrun]
  obtain ⟨m', hm', hnext, -⟩ :=
    (htakes hd (by rw [hready]; exact List.cons_ne_nil _ _)).1.mpr hguard
  exact ⟨m, hm, h1, hd, hready, hk, m', hm', hnext⟩

/-- After one underrun the frame submitted next does not come into the slots. -/
theorem refresh_stuck :
    ∃ m, run step decFrameManagerInit
        [.submit false, .vsync, .refresh, .vsync, .submit false] = some m ∧
      m.state = 1 ∧ m.dirty = false ∧ m.ready = [1] ∧ m.Shows 0 ∧
      ∃ m', m.decFrameQueueRefresh = .ok m' ∧ m'.ready = [1] ∧ m'.Shows 0 := by
  let es : List Event := [.submit false, .vsync, .refresh, .vsync, .submit false]
  have hrun : (run step decFrameManagerInit es).map
      (fun m => (m.state, m.dirty, m.ready, [m.slot0, m.slot1, m.slot2, m.slot3])) =
      some (1, false, [1], List.replicate 4 (.frame 0)) := by
    decide +kernel
  have hnext : ((run step decFrameManagerInit es).bind (·.decFrameQueueRefresh.toOption)).map
      (fun m => (m.ready, [m.slot0, m.slot1, m.slot2, m.slot3])) =
      some ([1], List.replicate 4 (.frame 0)) := by
    decide +kernel
  obtain ⟨m, hm, hall⟩ := map_eq_some_iff.mp hrun
  rw [hm, bind_some] at hnext
  simp only [Prod.mk.injEq, List.replicate, List.cons.injEq, and_true] at hall
  simp only [map_eq_some_iff, toOption_eq_some, Prod.mk.injEq, List.replicate,
    List.cons.injEq, and_true] at hnext
  obtain ⟨h1, hd, hready, hshows⟩ := hall
  obtain ⟨m', hm', hready', hshows'⟩ := hnext
  exact ⟨m, hm, h1, hd, hready, hshows, m', hm', hready', hshows'⟩

end Manager

end Decd
