import H713.Decd.Lock

/-!
# Stopping the stream

`dec_frame_manager_stop` sets state 3 and waits for state 0. The refresh goes to the next state once
a vsync has taken the slots: an interlaced stream goes through the states 4 and 5 to 0, a
progressive one stays in state 2.
-/

namespace Decd

open Machine Option

namespace Manager

variable {m m' : Manager} {k : ℕ}

def refreshIfScheduled (m : Manager) : Except Fault Manager :=
  if m.refreshScheduled then m.decFrameQueueRefresh else .ok m

def round (m : Manager) : Except Fault Manager := do
  let m ← m.decVsyncProcess
  m.refreshIfScheduled

def rounds : ℕ → Manager → Except Fault Manager
  | 0, m     => .ok m
  | n + 1, m => do
    let m ← m.round
    rounds n m

/-! ### After a vsync -/

lemma vsynced_dirty (m : Manager) : m.vsynced.dirty = false := by
  unfold vsynced synced
  split_ifs <;> simp_all

lemma vsynced_state (m : Manager) : m.vsynced.state = m.state := by
  unfold vsynced synced
  split_ifs <;> rfl

lemma vsynced_interlace (m : Manager) : m.vsynced.interlace = m.interlace := by
  unfold vsynced synced
  split_ifs <;> rfl

lemma vsynced_waiting (m : Manager) : m.vsynced.waiting = m.waiting := by
  unfold vsynced synced
  split_ifs <;> rfl

lemma vsynced_scheduled (h : schedules m.state = true) : m.vsynced.refreshScheduled = true := by
  rw [vsynced, if_pos h]

/-! ### The shutdown of an interlaced stream -/

/-- State `k` of a shutdown with nothing to recycle. -/
structure Phase (k : ℕ) (m : Manager) : Prop where
  resting : m.Resting
  recycleFifo : m.recycleFifo = []
  state : m.state = k
  waiting : m.waiting = true

lemma Phase.vsynced (h : Phase k m) : Phase k m.vsynced where
  resting := h.resting.of_kept m.kept_vsynced
  recycleFifo := m.kept_vsynced.recycleFifo.trans h.recycleFifo
  state := m.vsynced_state.trans h.state
  waiting := m.vsynced_waiting.trans h.waiting

lemma Phase.round (h : Phase k m) (hk : schedules k = true) :
    m.round = m.vsynced.decFrameQueueRefresh := by
  have hv := decVsyncProcess_of_nil h.resting fun _ => h.recycleFifo
  rw [Manager.round, hv, ok_bind, refreshIfScheduled,
    if_pos (vsynced_scheduled (by rwa [h.state]))]

lemma Phase.next {j : ℕ} {m₁ : Manager} (h : Phase j m)
    (hb : m.clearScheduled.taken.refreshBody = .ok m₁) (hk : m₁.state = k)
    (hw : m₁.waiting = true) : ∃ m', m.decFrameQueueRefresh = .ok m' ∧ Phase k m' := by
  have hr := h.resting.refresh_eq hb
  rcases decFrameQueueRefresh_cases h.resting with ⟨-, herr⟩ | ⟨-, hin⟩
  · cases herr.symm.trans hr
  · have hkept := hin.of_eq_ok hr
    exact ⟨_, hr, h.resting.of_kept hkept, hkept.recycleFifo.trans h.recycleFifo, hk, hw⟩

lemma Phase.stopping (h : Phase 3 m) (hd : m.dirty = false) (hi : m.interlace = true) :
    ∃ m', m.decFrameQueueRefresh = .ok m' ∧ Phase 4 m' := by
  have hbody := refreshBody_stopping (m := m.clearScheduled.taken) h.resting.counter h.state hd
  refine h.next hbody ?_ ?_
  · rw [refreshStopping, if_pos (by exact hi)]
  · rw [refreshStopping, if_pos (by exact hi)]
    exact h.waiting

lemma Phase.blank (h : Phase 4 m) (hd : m.dirty = false) :
    ∃ m', m.decFrameQueueRefresh = .ok m' ∧ Phase 5 m' := by
  have hbody : m.clearScheduled.taken.refreshBody = .ok m.clearScheduled.taken.refreshBlank := by
    simp [refreshBody, clearScheduled, taken, hd, h.state, h.resting.counter]
  exact h.next hbody rfl h.waiting

lemma state_endShutdown (m : Manager) : m.endShutdown.state = 0 := by
  unfold endShutdown decFrameQueueHardwareRepeatCtrl
  dsimp only
  split_ifs <;> rfl

lemma waiting_endShutdown (m : Manager) : m.endShutdown.waiting = m.waiting := by
  unfold endShutdown decFrameQueueHardwareRepeatCtrl
  dsimp only
  split_ifs <;> rfl

lemma Phase.ending (h : Phase 5 m) (hd : m.dirty = false) :
    ∃ m', m.decFrameQueueRefresh = .ok m' ∧ Phase 0 m' := by
  have hk := kept_endShutdown m.clearScheduled.taken
  have hbody : m.clearScheduled.taken.refreshBody
      = .ok { m.clearScheduled.taken.endShutdown with releaseQueued := true } := by
    rw [refreshBody_of_ending (m := m.clearScheduled.taken) h.resting.counter ⟨h.state, hd⟩]
    exact decFrameRecycle_of_nil (hk.recycleFifo.trans h.recycleFifo)
  exact h.next hbody (state_endShutdown _) ((waiting_endShutdown _).trans h.waiting)

lemma Phase.rounds (h : Phase 3 m) (hi : m.interlace = true) :
    ∃ m', rounds 3 m = .ok m' ∧ Phase 0 m' := by
  obtain ⟨m₁, hm₁, h₁⟩ := h.vsynced.stopping m.vsynced_dirty (m.vsynced_interlace.trans hi)
  obtain ⟨m₂, hm₂, h₂⟩ := h₁.vsynced.blank m₁.vsynced_dirty
  obtain ⟨m₃, hm₃, h₃⟩ := h₂.vsynced.ending m₂.vsynced_dirty
  refine ⟨m₃, ?_, h₃⟩
  rw [Manager.rounds, h.round (by decide), hm₁, ok_bind, Manager.rounds, h₁.round (by decide), hm₂,
    ok_bind, Manager.rounds, h₂.round (by decide), hm₃, ok_bind, Manager.rounds]

/-! ### The frames that were still queued -/

def queued (m : Manager) : List ℕ := m.ready ++ m.pair0.frames ++ m.pair1.frames

lemma putAll_eq {l : List FramePtr} (h : .one ∉ l) (m : Manager) :
    putAll l m =
      .ok { m with counts := (l.flatMap FramePtr.frames).foldl RefCounts.put m.counts } := by
  induction l generalizing m with
  | nil => rfl
  | cons vf l ih =>
    rw [List.mem_cons, not_or] at h
    cases vf with
    | null => exact ih h.2 m
    | one => exact absurd rfl h.1
    | frame f => exact ih h.2 { m with counts := m.counts.put f }

lemma Phase.wake (h : Phase 0 m) :
    ∃ m', m.step .wake = some m' ∧ m'.state = 0 ∧ m'.queued = [] ∧
      m'.counts = m.queued.foldl RefCounts.put m.counts := by
  have hone : .one ∉ m.ready.map FramePtr.frame ++ [m.pair0, m.pair1] := by
    have h₀ := h.resting.pair0.symm
    have h₁ := h.resting.pair1.symm
    simp [h₀, h₁]
  have hframes : (m.ready.map FramePtr.frame ++ [m.pair0, m.pair1]).flatMap FramePtr.frames
      = m.queued := by
    simp [queued, List.flatMap_map, FramePtr.frames]
  rw [step, if_pos ⟨h.waiting, h.state⟩]
  simp only [decFrameManagerFree, putAll_eq hone, ok_bind, Except.toOption, Option.some.injEq,
    exists_eq_left', hframes, true_and, and_true]
  rfl

/-! ### The shutdown that does not end -/

/-- A progressive stream that stops or is paused, or a shutdown with something to recycle. -/
structure Stuck (m : Manager) : Prop where
  resting : m.Resting
  away : m.interlace = false ∧ (m.state = 2 ∨ m.state = 3) ∨
    m.recycleFifo ≠ [] ∧ (m.state = 3 ∨ m.state = 4 ∧ m.dirty = true)

lemma Stuck.state_ne (h : m.Stuck) : m.state ≠ 0 := by
  rcases h.away with ⟨-, h | h⟩ | ⟨-, h | ⟨h, -⟩⟩ <;> rw [h] <;> decide

lemma refreshBody_paused (h2 : m.state = 2) :
    m.clearScheduled.taken.refreshBody = .ok m.clearScheduled.taken := by
  simp [refreshBody, clearScheduled, taken, h2]

lemma Stuck.refresh (h : m.Stuck) (hd : m.dirty = false) (hr : m.decFrameQueueRefresh = .ok m') :
    m'.Stuck := by
  have hrest : m'.Resting := by
    rcases decFrameQueueRefresh_cases h.resting with ⟨-, herr⟩ | ⟨-, hin⟩
    · cases herr.symm.trans hr
    · exact h.resting.of_kept (hin.of_eq_ok hr)
  by_cases h2 : m.state = 2
  · obtain rfl := Except.ok.inj (hr.symm.trans (h.resting.refresh_eq (refreshBody_paused h2)))
    refine ⟨hrest, .inl ⟨?_, .inl h2⟩⟩
    rcases h.away with ⟨hi, -⟩ | ⟨-, h3 | ⟨h4, -⟩⟩
    · exact hi
    · cases h2.symm.trans h3
    · cases h2.symm.trans h4
  · have h3 : m.state = 3 := by
      rcases h.away with ⟨-, h2' | h3⟩ | ⟨-, h3 | ⟨-, hd'⟩⟩
      · exact absurd h2' h2
      · exact h3
      · exact h3
      · cases hd.symm.trans hd'
    have hbody := refreshBody_stopping (m := m.clearScheduled.taken) h.resting.counter h3 hd
    obtain rfl := Except.ok.inj (hr.symm.trans (h.resting.refresh_eq hbody))
    refine ⟨hrest, ?_⟩
    unfold refreshStopping
    split_ifs with hi
    · -- an interlaced stream is here only with something to recycle
      rcases h.away with ⟨hi', -⟩ | ⟨hne, -⟩
      · cases hi'.symm.trans hi
      · exact .inr ⟨hne, .inr ⟨rfl, rfl⟩⟩
    · exact .inl ⟨Bool.eq_false_of_not_eq_true hi, .inl rfl⟩

lemma Stuck.round (h : m.Stuck) (hr : m.round = .ok m') : m'.Stuck := by
  obtain ⟨m₁, hv, hr⟩ := bind_eq_ok.mp hr
  obtain ⟨hnil, rfl⟩ := h.resting.vsync_ok hv
  have hk := m.kept_vsynced
  have h₁ : m.vsynced.Stuck := by
    refine ⟨h.resting.of_kept hk, ?_⟩
    rw [m.vsynced_interlace, m.vsynced_state, hk.recycleFifo]
    rcases h.away with hpaused | ⟨hne, h3 | ⟨-, hd⟩⟩
    · exact .inl hpaused
    · exact .inr ⟨hne, .inl h3⟩
    · exact absurd (hnil hd) hne
  unfold refreshIfScheduled at hr
  split_ifs at hr
  · exact h₁.refresh m.vsynced_dirty hr
  · cases hr
    exact h₁

lemma Stuck.rounds (h : m.Stuck) {n : ℕ} (hr : rounds n m = .ok m') : m'.Stuck := by
  induction n generalizing m with
  | zero =>
    cases hr
    exact h
  | succ n ih =>
    obtain ⟨m₁, hm₁, hr⟩ := bind_eq_ok.mp hr
    exact ih (h.round hm₁) hr

/-! ### Every shutdown -/

lemma decFrameManagerStop_of_playing (hs : m.state = 1 ∨ m.state = 2) :
    m.decFrameManagerStop = { m with state := 3, waiting := true } := by
  simp [decFrameManagerStop, hs]

/-- A stop is woken exactly if the stream is interlaced and there is nothing to recycle, after three
vsyncs, and it then puts the queued frames. -/
theorem stop_ends_iff (es : List Event) (m : Manager)
    (hr : run step decFrameManagerInit es = some m) (hs : m.state = 1 ∨ m.state = 2) :
    ((∃ n t, rounds n m.decFrameManagerStop = .ok t ∧ t.state = 0) ↔
        m.interlace = true ∧ m.recycleFifo = []) ∧
      (m.interlace = true → m.recycleFifo = [] →
        ∃ t t', rounds 3 m.decFrameManagerStop = .ok t ∧ t.state = 0 ∧ t.step .wake = some t' ∧
          t'.state = 0 ∧ t'.queued = [] ∧ t'.counts = t.queued.foldl RefCounts.put t.counts) := by
  have hrest := resting_of_run hr
  have hrest₃ : { m with state := 3, waiting := true }.Resting :=
    ⟨hrest.1, hrest.2, hrest.3, hrest.4, hrest.5⟩
  rw [decFrameManagerStop_of_playing hs]
  have hends (hi : m.interlace = true) (hnil : m.recycleFifo = []) :
      ∃ t, rounds 3 { m with state := 3, waiting := true } = .ok t ∧ Phase 0 t :=
    Phase.rounds ⟨hrest₃, hnil, rfl, rfl⟩ hi
  refine ⟨⟨?_, ?_⟩, ?_⟩
  · rintro ⟨n, t, ht, h0⟩
    by_contra hno
    have hstuck : { m with state := 3, waiting := true }.Stuck := by
      refine ⟨hrest₃, ?_⟩
      by_cases hi : m.interlace = true
      · exact .inr ⟨fun hnil => hno ⟨hi, hnil⟩, .inl rfl⟩
      · exact .inl ⟨by simpa using hi, .inr rfl⟩
    exact (hstuck.rounds ht).state_ne h0
  · rintro ⟨hi, hnil⟩
    obtain ⟨t, ht, h0⟩ := hends hi hnil
    exact ⟨3, t, ht, h0.state⟩
  · intro hi hnil
    obtain ⟨t, ht, h0⟩ := hends hi hnil
    obtain ⟨t', hw, hfreed⟩ := h0.wake
    exact ⟨t, t', ht, h0.state, hw, hfreed⟩

/-- An interlaced stream with one frame queued. -/
theorem stop_ends_iff_interlaced :
    ∃ m, run step decFrameManagerInit [.submit true, .submit true] = some m ∧ m.state = 1 ∧
      ∃ t t', rounds 3 m.decFrameManagerStop = .ok t ∧ t.state = 0 ∧ t.step .wake = some t' ∧
        t'.queued = [] := by
  have hstate : (run step decFrameManagerInit [.submit true, .submit true]).map
      (fun m => (m.state, m.interlace, m.recycleFifo)) = some (1, true, []) := by
    decide +kernel
  obtain ⟨m, hm, hall⟩ := map_eq_some_iff.mp hstate
  simp only [Prod.mk.injEq] at hall
  obtain ⟨h1, hi, hnil⟩ := hall
  obtain ⟨t, t', ht, h0, hw, -, hq, -⟩ :=
    (stop_ends_iff [.submit true, .submit true] m hm (.inl h1)).2 hi hnil
  exact ⟨m, hm, h1, t, t', ht, h0, hw, hq⟩

/-- A progressive stream is paused by the first refresh after the stop, and stays so. -/
theorem stop_pauses :
    ∃ m, run step decFrameManagerInit [.submit false] = some m ∧ m.state = 1 ∧
      (∃ t, rounds 1 m.decFrameManagerStop = .ok t ∧ t.state = 2 ∧ t.waiting = true) ∧
      ∀ n t, rounds n m.decFrameManagerStop = .ok t → t.state ≠ 0 := by
  have hstate : (run step decFrameManagerInit [.submit false]).map
      (fun m => (m.state, m.interlace, (rounds 1 m.decFrameManagerStop).toOption.map
        fun t => (t.state, t.waiting))) = some (1, false, some (2, true)) := by
    decide +kernel
  obtain ⟨m, hm, hall⟩ := map_eq_some_iff.mp hstate
  simp only [Prod.mk.injEq, map_eq_some_iff, toOption_eq_some] at hall
  obtain ⟨h1, hi, t, ht, h2⟩ := hall
  refine ⟨m, hm, h1, ⟨t, ht, h2⟩, fun n t ht => ?_⟩
  have hrest := resting_of_run hm
  rw [decFrameManagerStop_of_playing (.inl h1)] at ht
  have hstuck : { m with state := 3, waiting := true }.Stuck :=
    ⟨⟨hrest.1, hrest.2, hrest.3, hrest.4, hrest.5⟩, .inl ⟨hi, .inr rfl⟩⟩
  exact (hstuck.rounds ht).state_ne

end Manager

end Decd
