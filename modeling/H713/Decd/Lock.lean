import H713.Decd.Basic
import H713.Machine.Outcome

/-!
# The lock of the queue

`dec_vsync_process`, `dec_frame_queue_refresh` and `dec_frame_queue_resume` hold the lock of the
queue. What they call does not take it, except for `dec_frame_recycle`, which takes it for each
frame in the recycle FIFO.
-/

namespace Decd

open Machine Option

namespace Manager

variable {m m' : Manager} {vf : FramePtr}

/-- The lock, the recycle FIFO, the pair of fields and the constant of the shutdown are as
before. -/
structure Kept (m m' : Manager) : Prop where
  locked : m'.locked = m.locked
  recycleFifo : m'.recycleFifo = m.recycleFifo
  shutdownCounter : m'.shutdownCounter = m.shutdownCounter
  pair0 : m'.pair0 = m.pair0
  pair1 : m'.pair1 = m.pair1

lemma Kept.refl (m : Manager) : Kept m m := ⟨rfl, rfl, rfl, rfl, rfl⟩

lemma Kept.trans {m'' : Manager} (h : Kept m m') (h' : Kept m' m'') : Kept m m'' :=
  ⟨h'.1.trans h.1, h'.2.trans h.2, h'.3.trans h.3, h'.4.trans h.4, h'.5.trans h.5⟩

abbrev Inside (m : Manager) : Except Fault Manager → Prop := Ends (Kept m) (· = .badPointer)

abbrev InsideFst {α : Type} (m : Manager) : Except Fault (Manager × α) → Prop :=
  Ends (fun r => Kept m r.1) (· = .badPointer)

/-! ### The pieces of the critical sections -/

lemma inside_refcountInc (m : Manager) (vf : FramePtr) : Inside m (m.refcountInc vf) := by
  cases vf with
  | null => rfl
  | one => rfl
  | frame f => exact ⟨rfl, rfl, rfl, rfl, rfl⟩

lemma inside_videoFramePut (m : Manager) (vf : FramePtr) : Inside m (m.videoFramePut vf) := by
  cases vf with
  | null => exact .refl m
  | one => rfl
  | frame f => exact ⟨rfl, rfl, rfl, rfl, rfl⟩

lemma inside_refcountIncSlot (m : Manager) (vf : FramePtr) : Inside m (m.refcountIncSlot vf) := by
  unfold refcountIncSlot
  exact .ite (fun _ => .refl m) fun _ => inside_refcountInc m vf

lemma inside_decFrameQueueEnqueue (m : Manager) (vf : FramePtr) :
    InsideFst m (m.decFrameQueueEnqueue vf) := by
  unfold decFrameQueueEnqueue
  refine .ite (fun _ => .refl m) fun _ => .ite (fun _ => .refl m) fun _ => ?_
  refine Ends.bind (inside_refcountInc _ vf) fun m' hm => ?_
  exact ⟨hm.1, hm.2, hm.3, hm.4, hm.5⟩

lemma inside_decFramePop (m : Manager) : InsideFst m m.decFramePop := by
  unfold decFramePop
  refine .ite (fun _ => ?_) fun _ => ?_
  · refine Ends.bind (inside_refcountInc m _) fun m' hm => ?_
    exact ⟨hm.1, hm.2, hm.3, hm.4, hm.5⟩
  · cases m.ready with
    | nil => exact .refl m
    | cons f rest => exact ⟨rfl, rfl, rfl, rfl, rfl⟩

lemma kept_decFrameQueueHardwareRepeatCtrl (m : Manager) (enable : Bool) :
    Kept m (m.decFrameQueueHardwareRepeatCtrl enable).1 := by
  unfold decFrameQueueHardwareRepeatCtrl
  split_ifs <;> exact ⟨rfl, rfl, rfl, rfl, rfl⟩

lemma inside_decFrameQueueRepeat (m : Manager) : Inside m m.decFrameQueueRepeat := by
  unfold decFrameQueueRepeat
  refine .ite (fun _ => .ite (fun _ => ?_) fun _ => ?_) fun _ => ?_
  · have hm := kept_decFrameQueueHardwareRepeatCtrl
      { m with softRepeatCount := u32 (m.softRepeatCount + 1) } true
    dsimp only
    split_ifs <;> exact ⟨hm.1, hm.2, hm.3, hm.4, hm.5⟩
  · refine Ends.bind (inside_refcountIncSlot _ _) fun m' hm => ?_
    exact ⟨hm.1, hm.2, hm.3, hm.4, hm.5⟩
  · refine Ends.bind (inside_refcountIncSlot _ _) fun m' hm => ?_
    exact ⟨hm.1, hm.2, hm.3, hm.4, hm.5⟩

lemma inside_startWith (m : Manager) (f : ℕ) : Inside m (m.startWith f) := by
  refine Ends.bind (inside_refcountInc _ _) fun m₁ h₁ => ?_
  have hstream : Inside m₁ (m₁.startStream f) := by
    unfold startStream
    refine .ite (fun _ => ⟨rfl, rfl, rfl, rfl, rfl⟩) fun _ => .ite (fun _ => ?_) fun _ => ?_
    · exact (inside_videoFramePut _ _).mono fun m₂ h₂ => ⟨h₂.1, h₂.2, h₂.3, h₂.4, h₂.5⟩
    · exact (inside_videoFramePut _ _).mono fun m₂ h₂ => ⟨h₂.1, h₂.2, h₂.3, h₂.4, h₂.5⟩
  refine Ends.bind hstream fun m₂ h₂ => ?_
  exact ⟨h₂.1.trans h₁.1, h₂.2.trans h₁.2, h₂.3.trans h₁.3, h₂.4.trans h₁.4, h₂.5.trans h₁.5⟩

lemma inside_startNext (m : Manager) : Inside m m.startNext := by
  refine Ends.bind (inside_decFramePop m) fun r hr => ?_
  match r.2 with
  | .null => exact hr
  | .one => exact rfl
  | .frame f => exact (inside_startWith r.1 f).mono fun m' hm => hr.trans hm

lemma inside_dropLastFrame (m : Manager) : Inside m m.dropLastFrame := by
  refine Ends.bind (inside_videoFramePut m _) fun m' hm => ?_
  exact ⟨hm.1, hm.2, hm.3, hm.4, hm.5⟩

lemma inside_start (m : Manager) : Inside m m.start := by
  unfold start
  refine .ite (fun _ => .refl m) fun _ => Ends.bind (inside_dropLastFrame m) fun m₁ h₁ => ?_
  exact (inside_startNext m₁).mono fun m' hm => h₁.trans hm

lemma inside_refreshInterlaced (m : Manager) : Inside m m.refreshInterlaced := by
  unfold refreshInterlaced
  refine .ite (fun _ => ?_) fun _ => ?_
  · dsimp only
    split_ifs <;> exact ⟨rfl, rfl, rfl, rfl, rfl⟩
  · refine .ite (fun _ => ?_) fun _ => .ite (fun _ => ?_) fun _ => .ite (fun _ => ?_) fun _ => ?_
    · refine Ends.bind (inside_decFrameQueueEnqueue _ _) fun r hr => ?_
      exact .ite (fun _ => rfl) fun _ => ⟨hr.1, hr.2, hr.3, hr.4, hr.5⟩
    · have hm := kept_decFrameQueueHardwareRepeatCtrl
        { m with toggle := false, repeatCurrent := u32 (m.repeatCurrent + 1) } true
      dsimp only
      split_ifs <;> exact ⟨hm.1, hm.2, hm.3, hm.4, hm.5⟩
    · refine Ends.bind (inside_decFramePop _) fun r hr => ?_
      exact ⟨hr.1, hr.2, hr.3, hr.4, hr.5⟩
    · exact ⟨rfl, rfl, rfl, rfl, rfl⟩

lemma inside_dropOrRequeue (q : Manager × ℤ) (f : ℕ) : Inside q.1 (dropOrRequeue q f) := by
  unfold dropOrRequeue
  exact .ite (fun _ => inside_videoFramePut _ _) fun _ =>
    .ite (fun _ => inside_videoFramePut _ _) fun _ => ⟨rfl, rfl, rfl, rfl, rfl⟩

lemma inside_refreshNext (m : Manager) : Inside m m.refreshNext := by
  refine Ends.bind (inside_decFramePop m) fun r hr => ?_
  match r.2 with
  | .null =>
    refine Ends.bind (inside_decFrameQueueRepeat r.1) fun m' hm => ?_
    exact ⟨hm.1.trans hr.1, hm.2.trans hr.2, hm.3.trans hr.3, hm.4.trans hr.4, hm.5.trans hr.5⟩
  | .one => exact rfl
  | .frame f =>
    refine Ends.bind (inside_decFrameQueueEnqueue r.1 _) fun q hq => ?_
    refine Ends.bind (inside_dropOrRequeue q f) fun m' hm => ?_
    have := hr.trans (hq.trans hm)
    exact ⟨this.1, this.2, this.3, this.4, this.5⟩

lemma inside_refreshPair (m : Manager) : Inside m m.refreshPair := by
  unfold refreshPair
  refine .ite (fun _ => ?_) fun _ => .refl m
  refine Ends.bind (inside_decFrameQueueEnqueue _ _) fun r hr => ?_
  exact ⟨hr.1, hr.2, hr.3, hr.4, hr.5⟩

lemma inside_refreshPlaying (m : Manager) : Inside m m.refreshPlaying := by
  unfold refreshPlaying
  exact .ite (fun _ => inside_refreshInterlaced m) fun _ =>
    .ite (fun _ => inside_refreshNext m) fun _ => inside_refreshPair m

/-! ### Recycling -/

lemma decFrameRecycle_of_nil (h : m.recycleFifo = []) :
    m.decFrameRecycle = .ok { m with releaseQueued := true } := by
  rw [decFrameRecycle, h, recycleAll, ok_bind, ← h]

lemma decFrameRecycle_of_locked (hl : m.locked = true) (hn : .null ∉ m.recycleFifo)
    (hne : m.recycleFifo ≠ []) : m.decFrameRecycle = .error .selfLock := by
  unfold decFrameRecycle
  cases hfifo : m.recycleFifo with
  | nil => exact absurd hfifo hne
  | cons vf l =>
    have hvf : vf ≠ .null := fun h => hn (by rw [hfifo, h]; exact List.mem_cons_self)
    rw [recycleAll, if_neg hvf, lock, if_pos hl, error_bind, error_bind]

lemma null_ne_one : FramePtr.null ≠ .one := by decide

lemma frame_ne_one (f : ℕ) : FramePtr.frame f ≠ .one := fun h => by cases h

/-- What holds between the calls. -/
structure Resting (m : Manager) : Prop where
  locked : m.locked = false
  recycleFifo : .null ∉ m.recycleFifo
  shutdownCounter : m.shutdownCounter = 4
  pair0 : m.pair0 ≠ .one
  pair1 : m.pair1 ≠ .one

lemma Resting.init : decFrameManagerInit.Resting where
  locked := rfl
  recycleFifo := List.not_mem_nil
  shutdownCounter := rfl
  pair0 := null_ne_one
  pair1 := null_ne_one

lemma Resting.of_kept (h : m.Resting) (hk : Kept m m') : m'.Resting :=
  ⟨hk.locked.trans h.locked, hk.recycleFifo ▸ h.recycleFifo,
    hk.shutdownCounter.trans h.shutdownCounter, hk.pair0 ▸ h.pair0, hk.pair1 ▸ h.pair1⟩

lemma Resting.counter (h : m.Resting) : ¬ i32 m.shutdownCounter < 0 := by
  rw [h.shutdownCounter]
  decide

lemma lock_of_free (h : m.locked = false) : m.lock = .ok m.taken := if_neg (by simp [h])

lemma Resting.lock (h : m.Resting) : m.lock = .ok m.taken := lock_of_free h.locked

lemma inside_section {f : Manager → Except Fault Manager} (h : m.locked = false)
    (hf : ∀ m, Inside m (f m)) :
    Inside m (m.lock >>= fun m => f m >>= fun m => .ok m.unlock) := by
  rw [lock_of_free h, ok_bind]
  refine Ends.bind (hf _) fun m' hm => ?_
  exact ⟨h.symm, hm.2, hm.3, hm.4, hm.5⟩

lemma inside_decFrameQueueResume (h : m.locked = false) : Inside m m.decFrameQueueResume := by
  unfold decFrameQueueResume
  exact .ite (fun _ => ⟨rfl, rfl, rfl, rfl, rfl⟩) fun _ => .ite (fun _ => .refl m) fun _ =>
    inside_section h inside_start

/-! ### The three calls -/

def synced (m : Manager) : Manager :=
  if m.dirty then { m with dirty := false, repeatPending := false, releaseQueued := true } else m

def vsynced (m : Manager) : Manager :=
  if schedules m.state then { m.synced with refreshScheduled := true } else m.synced

lemma kept_vsynced (m : Manager) : Kept m m.vsynced := by
  unfold vsynced synced
  split_ifs <;> exact ⟨rfl, rfl, rfl, rfl, rfl⟩

lemma vsyncBody_of_nil (h : m.dirty = true → m.recycleFifo = []) : m.vsyncBody = .ok m.synced := by
  unfold vsyncBody synced
  split_ifs with hd
  · exact decFrameRecycle_of_nil (m := m.decFrameQueueSync) (h hd)
  · rfl

lemma decVsyncProcess_of_nil (h : m.Resting) (hr : m.dirty = true → m.recycleFifo = []) :
    m.decVsyncProcess = .ok m.vsynced := by
  have hunlock : m.taken.synced.unlock = m.synced := by
    unfold unlock synced taken
    split_ifs <;> rw [← h.locked]
  rw [decVsyncProcess, h.lock, ok_bind, vsyncBody_of_nil (m := m.taken) hr, ok_bind, hunlock,
    vsynced]

lemma decVsyncProcess_of_ne (h : m.Resting) (hd : m.dirty = true) (hr : m.recycleFifo ≠ []) :
    m.decVsyncProcess = .error .selfLock := by
  have hrec := decFrameRecycle_of_locked (m := m.taken.decFrameQueueSync) rfl h.recycleFifo hr
  have hbody : m.taken.vsyncBody = .error .selfLock := (if_pos hd).trans hrec
  rw [decVsyncProcess, h.lock, ok_bind, hbody, error_bind]

lemma Resting.vsync_ok (h : m.Resting) (hv : m.decVsyncProcess = .ok m') :
    (m.dirty = true → m.recycleFifo = []) ∧ m' = m.vsynced := by
  have hr : m.dirty = true → m.recycleFifo = [] := by
    intro hd
    by_contra hr
    cases (decVsyncProcess_of_ne h hd hr).symm.trans hv
  exact ⟨hr, Except.ok.inj (hv.symm.trans (decVsyncProcess_of_nil h hr))⟩

lemma Resting.refresh_eq {m₁ : Manager} (h : m.Resting)
    (hb : m.clearScheduled.taken.refreshBody = .ok m₁) :
    m.decFrameQueueRefresh = .ok m₁.unlock := by
  rw [decFrameQueueRefresh, lock_of_free (m := m.clearScheduled) h.locked, ok_bind, hb, ok_bind]

def Ending (m : Manager) : Prop := m.state = 5 ∧ m.dirty = false

lemma kept_endShutdown (m : Manager) : Kept m m.endShutdown := by
  unfold endShutdown
  refine .trans ?_ (kept_decFrameQueueHardwareRepeatCtrl _ false)
  split_ifs <;> exact ⟨rfl, rfl, rfl, rfl, rfl⟩

lemma refreshBody_of_ending (hc : ¬ i32 m.shutdownCounter < 0) (he : m.Ending) :
    m.refreshBody = m.endShutdown.decFrameRecycle := by
  simp [refreshBody, he.1, he.2, if_neg hc]

lemma refreshBody_stopping (hc : ¬ i32 m.shutdownCounter < 0) (h3 : m.state = 3)
    (hd : m.dirty = false) : m.refreshBody = .ok m.refreshStopping := by
  simp [refreshBody, h3, hd, if_neg hc]

lemma refreshStopping_of_plain (hi : m.interlace = false) :
    m.refreshStopping = { m with state := 2 } := if_neg (by simp [hi])

lemma inside_refreshBody (hc : ¬ i32 m.shutdownCounter < 0) (he : ¬ m.Ending) :
    Inside m m.refreshBody := by
  unfold refreshBody
  refine .ite (fun _ => .refl m) fun hd => .ite (fun _ => inside_refreshPlaying m) fun _ => ?_
  refine .ite (fun _ => ?_) fun _ => .ite (fun _ => ?_) fun _ =>
    .ite (fun h5 => ?_) fun _ => .refl m
  · rw [if_neg hc, Ends.ok_iff, refreshStopping]
    split_ifs <;> exact ⟨rfl, rfl, rfl, rfl, rfl⟩
  · rw [if_neg hc]
    exact ⟨rfl, rfl, rfl, rfl, rfl⟩
  · exact absurd ⟨h5, by simpa using hd⟩ he

lemma decFrameQueueRefresh_cases (h : m.Resting) :
    (m.Ending ∧ m.recycleFifo ≠ []) ∧ m.decFrameQueueRefresh = .error .selfLock ∨
      ¬ (m.Ending ∧ m.recycleFifo ≠ []) ∧ Inside m m.decFrameQueueRefresh := by
  have hkept {m' : Manager} (hk : Kept m.clearScheduled.taken m') :
      Kept m m'.unlock := ⟨h.locked.symm, hk.2, hk.3, hk.4, hk.5⟩
  rw [decFrameQueueRefresh, lock_of_free (m := m.clearScheduled) h.locked,
    ok_bind]
  by_cases he : m.Ending
  · have hk := kept_endShutdown m.clearScheduled.taken
    rw [refreshBody_of_ending (m := m.clearScheduled.taken) h.counter he]
    by_cases hr : m.recycleFifo = []
    · rw [decFrameRecycle_of_nil (hk.recycleFifo.trans hr)]
      exact .inr ⟨fun hno => hno.2 hr, hkept ⟨hk.1, hk.2, hk.3, hk.4, hk.5⟩⟩
    · rw [decFrameRecycle_of_locked hk.locked (hk.recycleFifo ▸ h.recycleFifo)
        (hk.recycleFifo ▸ hr)]
      exact .inl ⟨⟨he, hr⟩, rfl⟩
  · refine .inr ⟨fun hno => he hno.1, ?_⟩
    refine Ends.bind (inside_refreshBody (m := m.clearScheduled.taken)
      h.counter he) fun m' hm => hkept hm

/-! ### Runs -/

lemma inside_putAll (l : List FramePtr) (m : Manager) : Inside m (putAll l m) := by
  induction l generalizing m with
  | nil => exact .refl m
  | cons vf l ih =>
    refine Ends.bind (inside_videoFramePut m vf) fun m' hm => ?_
    exact (ih m').mono fun m'' hm' => hm.trans hm'

lemma inside_putReleased (l : List FramePtr) (m : Manager) : Inside m (putReleased l m) := by
  induction l generalizing m with
  | nil => exact .refl m
  | cons vf l ih =>
    cases l with
    | nil => exact .refl m
    | cons vf' l =>
      refine Ends.bind (inside_videoFramePut _ vf) fun m' hm => ?_
      exact (ih m').mono fun m'' hm' => .trans ⟨hm.1, hm.2, hm.3, hm.4, hm.5⟩ hm'

lemma inside_decFrameReleaseProcess (m : Manager) : Inside m m.decFrameReleaseProcess := by
  refine Ends.bind (inside_putReleased m.releaseFifo m) fun m' hm => .ite (fun _ => hm) fun _ => ?_
  match m'.releaseFifo with
  | [] => exact hm
  | vf :: l => exact ⟨hm.1, hm.2, hm.3, hm.4, hm.5⟩

lemma notMem_kfifoIn {fifo : List FramePtr} (h : .null ∉ fifo) (hvf : vf ≠ .null) :
    .null ∉ kfifoIn fifo vf := by
  unfold kfifoIn
  split_ifs
  · simp [h, hvf.symm]
  · exact h

lemma Resting.recyclePair (h : m.Resting) : m.recyclePair.Resting := by
  unfold Manager.recyclePair
  dsimp only
  split_ifs with h₀ h₁ h₁
  · exact h
  · exact ⟨h.1, notMem_kfifoIn h.2 h₁, h.3, h.4, null_ne_one⟩
  · exact ⟨h.1, notMem_kfifoIn h.2 h₀, h.3, null_ne_one, h.5⟩
  · exact ⟨h.1, notMem_kfifoIn (notMem_kfifoIn h.2 h₀) h₁, h.3, null_ne_one, null_ne_one⟩

lemma Resting.addReady (h : m.Resting) (alt : Bool) : (m.addReady alt).Resting :=
  ⟨h.1, h.2, h.3, h.4, h.5⟩

lemma Resting.newPair (h : m.Resting) (altTop altBottom : Bool) :
    (m.newPair altTop altBottom).Resting := by
  have hr : ((m.decCreateVideoFrame altTop).decCreateVideoFrame altBottom).recyclePair.Resting :=
    Resting.recyclePair ⟨h.1, h.2, h.3, h.4, h.5⟩
  exact ⟨hr.1, hr.2, hr.3, frame_ne_one _, frame_ne_one _⟩

lemma Resting.decInterlaceSetup {altTop altBottom : Bool} (h : m.Resting)
    (hs : m.decInterlaceSetup altTop altBottom = .ok m') : m'.Resting := by
  have h₁ : (m.decFrameManagerSetStreamType 1).Resting := ⟨h.1, h.2, h.3, h.4, h.5⟩
  unfold Manager.decInterlaceSetup decFrameManagerEnqueueInterlaceFrame at hs
  split_ifs at hs with htype
  · cases hs
    exact h₁
  · have h₂ := h₁.newPair altTop altBottom
    exact h₂.of_kept ((inside_decFrameQueueResume h₂.locked).of_eq_ok hs)

lemma Resting.step {e : Event} (h : m.Resting) (hs : m.step e = some m') : m'.Resting := by
  cases e with
  | submit alt =>
    simp only [Manager.step, ite_none_left_eq_some, toOption_eq_some] at hs
    have hr := h.addReady alt
    exact hr.of_kept ((inside_decFrameQueueResume hr.locked).of_eq_ok hs.2)
  | interlaceSetup altTop altBottom =>
    simp only [Manager.step, ite_none_left_eq_some, toOption_eq_some] at hs
    exact h.decInterlaceSetup hs.2
  | vsync =>
    rw [Manager.step, toOption_eq_some] at hs
    obtain ⟨-, rfl⟩ := h.vsync_ok hs
    exact h.of_kept m.kept_vsynced
  | refresh =>
    simp only [Manager.step, ite_none_right_eq_some, toOption_eq_some] at hs
    rcases decFrameQueueRefresh_cases h with ⟨-, herr⟩ | ⟨-, hin⟩
    · cases herr.symm.trans hs.2
    · exact h.of_kept (hin.of_eq_ok hs.2)
  | releaseWork =>
    simp only [Manager.step, ite_none_right_eq_some, toOption_eq_some] at hs
    have hk := (inside_decFrameReleaseProcess _).of_eq_ok hs.2
    exact h.of_kept ⟨hk.1, hk.2, hk.3, hk.4, hk.5⟩
  | stop =>
    simp only [Manager.step, ite_none_left_eq_some, Option.some.injEq] at hs
    rw [← hs.2, decFrameManagerStop]
    split_ifs <;> exact ⟨h.1, h.2, h.3, h.4, h.5⟩
  | wake =>
    simp only [Manager.step, ite_none_right_eq_some, toOption_eq_some] at hs
    obtain ⟨m₁, hm₁, hm⟩ := bind_eq_ok.mp hs.2
    have hk := (inside_putAll _ _).of_eq_ok hm₁
    cases hm
    exact ⟨hk.1.trans h.1, hk.2 ▸ h.2, hk.3.trans h.3, hk.4 ▸ null_ne_one, hk.5 ▸ null_ne_one⟩
  | timeout =>
    simp only [Manager.step, ite_none_right_eq_some, Option.some.injEq] at hs
    rw [← hs.2]
    exact ⟨h.1, h.2, h.3, h.4, h.5⟩

lemma resting_of_run {es : List Event} (hr : run step decFrameManagerInit es = some m) :
    m.Resting :=
  run_invariant (fun _ _ _ h hs => Resting.step h hs) .init hr

/-- In every reachable state, a vsync waits for its own lock exactly if it has new slots and there
is something to recycle, and a refresh if it ends the shutdown and there is. A resume does not. -/
theorem selfLock_iff (es : List Event) (m : Manager)
    (hr : run step decFrameManagerInit es = some m) :
    (m.decVsyncProcess = .error .selfLock ↔ m.dirty = true ∧ m.recycleFifo ≠ []) ∧
      (m.decFrameQueueRefresh = .error .selfLock ↔ m.Ending ∧ m.recycleFifo ≠ []) ∧
      m.decFrameQueueResume ≠ .error .selfLock := by
  have h := resting_of_run hr
  refine ⟨⟨fun hv => ?_, fun hv => decVsyncProcess_of_ne h hv.1 hv.2⟩, ⟨fun hv => ?_, fun hv => ?_⟩,
    fun hv => ?_⟩
  · by_contra hno
    have hok := decVsyncProcess_of_nil h fun hd => by_contra fun hne => hno ⟨hd, hne⟩
    cases hok.symm.trans hv
  · rcases decFrameQueueRefresh_cases h with ⟨hend, -⟩ | ⟨-, hin⟩
    · exact hend
    · cases hin.of_eq_error hv
  · rcases decFrameQueueRefresh_cases h with ⟨-, herr⟩ | ⟨hno, -⟩
    · exact herr
    · exact absurd hv hno
  · cases (inside_decFrameQueueResume h.locked).of_eq_error hv

/-- With one pair of fields there is nothing to recycle. -/
theorem selfLock_iff_pair :
    ∃ m, run step decFrameManagerInit [.interlaceSetup false false] = some m ∧ m.dirty = true ∧
      m.decVsyncProcess ≠ .error .selfLock ∧ m.decFrameQueueRefresh ≠ .error .selfLock := by
  have hstate : (run step decFrameManagerInit [.interlaceSetup false false]).map
      (fun m => (m.dirty, m.recycleFifo)) = some (true, []) := by
    decide +kernel
  obtain ⟨m, hm, hall⟩ := map_eq_some_iff.mp hstate
  obtain ⟨hdirty, hfifo⟩ := Prod.mk.inj hall
  obtain ⟨hvsync, hrefresh, -⟩ := selfLock_iff [.interlaceSetup false false] m hm
  exact ⟨m, hm, hdirty, fun h => (hvsync.mp h).2 hfifo, fun h => (hrefresh.mp h).2 hfifo⟩

/-- The second pair of fields moves the first one to the recycle FIFO, and the next vsync waits for
itself. -/
theorem vsync_selfLock :
    ∃ m, run step decFrameManagerInit [.interlaceSetup false false, .interlaceSetup false false] =
        some m ∧
      m.dirty = true ∧ m.recycleFifo = [.frame 0, .frame 1] ∧
      m.decVsyncProcess = .error .selfLock := by
  have hstate : (run step decFrameManagerInit
      [.interlaceSetup false false, .interlaceSetup false false]).map
        (fun m => (m.dirty, m.recycleFifo)) = some (true, [.frame 0, .frame 1]) := by
    decide +kernel
  obtain ⟨m, hm, hall⟩ := map_eq_some_iff.mp hstate
  obtain ⟨hdirty, hfifo⟩ := Prod.mk.inj hall
  refine ⟨m, hm, hdirty, hfifo, ?_⟩
  exact decVsyncProcess_of_ne (resting_of_run hm) hdirty (by rw [hfifo]; exact List.cons_ne_nil _ _)

end Manager

end Decd
