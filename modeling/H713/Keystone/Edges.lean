import H713.Machine.Monitor
import H713.Keystone.BackOff

/-!
# Overtravel

Once the limiter was found active in one direction, the motor must not go further that way before it
has moved back. Homing sets the flag of the wrong direction, and neither homing nor a movement that
backs off looks at the flags.
-/

namespace Keystone

open Machine List

/-! ### Traces -/

def blocked (t : List Item) (d : Dir) : Bool :=
  armed (fun x => x = .limit d) (fun x => x = .done d.other) t

def NoOvertravel (t : List Item) : Prop :=
  ∀ d, NoneUntil (fun x => x = .limit d) (fun x => x = .mstep d) (fun x => x = .done d.other) t

section

variable (t : List Item) (d d' : Dir)

@[simp] lemma blocked_mstep : blocked (t ++ [.mstep d']) d = blocked t d := by
  simp [blocked, armed_concat]

@[simp] lemma blocked_limit :
    blocked (t ++ [.limit d']) d = (decide (d' = d) || blocked t d) := by
  simp only [blocked, armed_concat, Item.limit.injEq, reduceCtorEq, if_false]
  split_ifs with h
  · simp [h]
  · simp [h]

@[simp] lemma blocked_found (d'' : Dir) :
    blocked (t ++ [.mstep d'', .limit d']) d = (decide (d' = d) || blocked t d) := by
  rw [append_cons, blocked_limit, blocked_mstep]

@[simp] lemma blocked_done :
    blocked (t ++ [.done d']) d = (!decide (d' = d.other) && blocked t d) := by
  simp only [blocked, armed_concat, Item.done.injEq, reduceCtorEq, if_false]
  split_ifs with h
  · simp [h]
  · simp [h]

lemma noOvertravel_nil : NoOvertravel [] := fun _ => noneUntil_nil

lemma NoOvertravel.mstep {t : List Item} {d : Dir} (h : NoOvertravel t)
    (hd : blocked t d = false) : NoOvertravel (t ++ [.mstep d]) := by
  intro d'
  refine (noneUntil_concat t _).mpr ⟨h d', fun heq => ?_⟩
  obtain rfl : d = d' := by simpa using heq
  exact hd

lemma NoOvertravel.limit {t : List Item} (h : NoOvertravel t) : NoOvertravel (t ++ [.limit d]) :=
  fun d' => (noneUntil_concat t _).mpr ⟨h d', fun heq => by cases heq⟩

lemma NoOvertravel.found {t : List Item} {d : Dir} (h : NoOvertravel t)
    (hd : blocked t d = false) : NoOvertravel (t ++ [.mstep d, .limit d]) := by
  rw [append_cons]
  exact (h.mstep hd).limit d

lemma NoOvertravel.done {t : List Item} (h : NoOvertravel t) : NoOvertravel (t ++ [.done d]) :=
  fun d' => (noneUntil_concat t _).mpr ⟨h d', fun heq => by cases heq⟩

end

/-! ### The condition -/

def Worker.Clear (m : Motor) (raw : ℤ) : Worker → Prop
  | .control d .own =>
    motorLimiterStatus m.limiter (some d) raw = true → 0 < m.backStep → m.edge d.other = 0
  | .homing .start =>
    1 ≤ m.limiter.num → motorLimiterStatus m.limiter none raw = false →
      m.edgeUp = 0 ∧ m.edgeDn = 0
  | .homing (.up i) => i < homingUpMax → motorLimiterStatus m.limiter none raw = false
  | .homing (.dn i) => i < homingDnMax → motorLimiterStatus m.limiter none raw = false
  | _ => True

def Driver.Clear (s : Driver) : Event → Prop
  | .tick raw => s.worker.Clear s.motor raw
  | _         => True

instance (m : Motor) (raw : ℤ) : ∀ w : Worker, Decidable (w.Clear m raw)
  | .idle | .handler | .control _ .entry | .control _ (.back _) | .control _ .finish
  | .control _ (.returned _) => .isTrue trivial
  | .control d .own => inferInstanceAs (Decidable
      (motorLimiterStatus m.limiter (some d) raw = true → 0 < m.backStep → m.edge d.other = 0))
  | .homing .start => inferInstanceAs (Decidable
      (1 ≤ m.limiter.num → motorLimiterStatus m.limiter none raw = false →
        m.edgeUp = 0 ∧ m.edgeDn = 0))
  | .homing (.up i) => inferInstanceAs (Decidable
      (i < homingUpMax → motorLimiterStatus m.limiter none raw = false))
  | .homing (.dn i) => inferInstanceAs (Decidable
      (i < homingDnMax → motorLimiterStatus m.limiter none raw = false))

instance (s : Driver) : ∀ e : Event, Decidable (s.Clear e)
  | .tick raw => inferInstanceAs (Decidable (s.worker.Clear s.motor raw))
  | .work | .home | .ctrl _ _ | .backStep _ => .isTrue trivial

/-! ### The invariant -/

/-- A blocked direction has its flag set, or is about to have it set. The worker never stands before
an mstep in a blocked direction. -/
structure Inv (m : Motor) (w : Worker) (t : List Item) : Prop where
  safe : NoOvertravel t
  limits : m.noLimit = 0
  edge : ∀ d, blocked t d = true → m.edge d ≠ 0 ∨ ∃ i, w = .control d (.back i)
  own : ∀ d, w = .control d .own → blocked t d = false
  back : ∀ d i, w = .control d (.back i) → blocked t d.other = false
  homing : ∀ h, w = .homing h → h ≠ .start → ∀ d, blocked t d = false

section

variable {m m' : Motor} {w w' : Worker} {t : List Item} {d : Dir} {raw : ℤ}

lemma Inv.of_edge (safe : NoOvertravel t) (limits : m.noLimit = 0)
    (edge : ∀ d, blocked t d = true → m.edge d ≠ 0)
    (hw : w = .idle ∨ w = .handler ∨ w = .homing .start ∨ ∃ d, w = .control d .entry ∨
      w = .control d .finish) : Inv m w t := by
  refine ⟨safe, limits, fun d hd => .inl (edge d hd), ?_, ?_, ?_⟩
  · rintro d rfl
    simp at hw
  · rintro d i rfl
    simp at hw
  · rintro h rfl hne
    simp [hne] at hw

lemma Inv.not_blocked (h : Inv m w t) (hw : ∀ i, w ≠ .control d (.back i)) (hd : m.edge d = 0) :
    blocked t d = false := by
  rw [← Bool.not_eq_true]
  intro hb
  rcases h.edge d hb with hne | ⟨i, hi⟩
  · exact hne hd
  · exact hw i hi

lemma finish_edge (m : Motor) (d d' : Dir) :
    (m.finish d).edge d' = if d' = d.other then 0 else m.edge d' := by
  cases d <;> cases d' <;> rfl

@[simp] lemma finish_noLimit (m : Motor) (d : Dir) : (m.finish d).noLimit = m.noLimit := by
  cases d <;> rfl

lemma Inv.edge_ne (h : Inv m w t) (hw : ∀ i, w ≠ .control d (.back i)) (hd : blocked t d = true) :
    m.edge d ≠ 0 := by
  intro hz
  rw [h.not_blocked hw hz] at hd
  cases hd

lemma Inv.entry (h : Inv m (.control d .entry) t) :
    Inv (motorRunControl d raw m .entry).1 (.ofPc d (motorRunControl d raw m .entry).2.1)
      (t ++ (motorRunControl d raw m .entry).2.2) := by
  have hedge : ∀ d', blocked t d' = true → m.edge d' ≠ 0 :=
    fun d' => h.edge_ne fun i hi => by cases hi
  simp only [motorRunControl]
  split_ifs with hc
  · rw [append_nil]
    exact .of_edge h.safe h.limits hedge (.inr (.inl rfl))
  · -- the flag of this direction is not set, so the way is free
    have hd : m.edge d = 0 := by
      by_contra hne
      exact hc ⟨hne, h.limits⟩
    have hfree := h.not_blocked (fun i hi => by cases hi) hd
    rw [append_nil]
    refine ⟨h.safe, h.limits, fun d' hd' => .inl (hedge d' hd'), fun d' heq => ?_,
      fun d' i heq => ?_,
      fun h' heq => ?_⟩
    · cases heq
      exact hfree
    · cases heq
    · cases heq

lemma Inv.ownStep (h : Inv m (.control d .own) t)
    (hclear : motorLimiterStatus m.limiter (some d) raw = true → 0 < m.backStep →
      m.edge d.other = 0) :
    Inv (motorRunControl d raw m .own).1 (.ofPc d (motorRunControl d raw m .own).2.1)
      (t ++ (motorRunControl d raw m .own).2.2) := by
  have hfree := h.own d rfl
  have hedge : ∀ d', blocked t d' = true → m.edge d' ≠ 0 :=
    fun d' => h.edge_ne fun i hi => by cases hi
  have hne : ∀ d', d' ≠ d → blocked (t ++ [.mstep d, .limit d]) d' = true → m.edge d' ≠ 0 :=
    fun d' hdd hd' => hedge d' (by simpa [Ne.symm hdd] using hd')
  simp only [motorRunControl]
  split_ifs with hact hback
  · -- the limiter is active, and the other way is free to back off
    have hother : blocked t d.other = false :=
      h.not_blocked (fun i hi => by simp at hi) (hclear hact.2 hback)
    refine ⟨h.safe.found hfree, h.limits, fun d' hd' => ?_, fun d' heq => ?_, fun d' i heq => ?_,
      fun h' heq => ?_⟩
    · by_cases hdd : d' = d
      · exact .inr ⟨0, by rw [hdd]; rfl⟩
      · exact .inl (hne d' hdd hd')
    · cases heq
    · cases heq
      simp [hother, (Dir.other_ne d).symm]
    · cases heq
  · refine .of_edge (h.safe.found hfree) (by simpa using h.limits) (fun d' hd' => ?_)
      (.inr (.inr (.inr ⟨d, .inr rfl⟩)))
    rw [Motor.setEdge_edge]
    split_ifs with hdd
    · decide
    · exact hne d' hdd hd'
  · exact .of_edge (h.safe.mstep hfree) h.limits (fun d' hd' => hedge d' (by simpa using hd'))
      (.inr (.inr (.inr ⟨d, .inr rfl⟩)))

lemma Inv.backStep {i : ℕ} (h : Inv m (.control d (.back i)) t) :
    Inv (motorRunControl d raw m (.back i)).1 (.ofPc d (motorRunControl d raw m (.back i)).2.1)
      (t ++ (motorRunControl d raw m (.back i)).2.2) := by
  have hother := h.back d i rfl
  have hedge : ∀ d', d' ≠ d → blocked t d' = true → m.edge d' ≠ 0 := fun d' hdd =>
    h.edge_ne fun j hj => by
      cases hj
      exact hdd rfl
  simp only [motorRunControl]
  by_cases hi : (i : ℤ) < m.backStep
  · rw [if_pos hi]
    refine ⟨h.safe.mstep hother, h.limits, fun d' hd' => ?_, fun d' heq => ?_, fun d' j heq => ?_,
      fun h' heq => ?_⟩
    · by_cases hdd : d' = d
      · exact .inr ⟨_, by rw [hdd]; rfl⟩
      · exact .inl (hedge d' hdd (by simpa using hd'))
    · cases heq
    · cases heq
      simpa using hother
    · cases heq
  · rw [if_neg hi, append_nil]
    refine .of_edge h.safe (by simpa using h.limits) (fun d' hd' => ?_)
      (.inr (.inr (.inr ⟨d, .inr rfl⟩)))
    rw [Motor.setEdge_edge]
    split_ifs with hdd
    · decide
    · exact hedge d' hdd hd'

lemma Inv.finishStep (h : Inv m (.control d .finish) t) :
    Inv (motorRunControl d raw m .finish).1 (.ofPc d (motorRunControl d raw m .finish).2.1)
      (t ++ (motorRunControl d raw m .finish).2.2) := by
  change Inv (m.finish d) .handler (t ++ [.done d])
  refine .of_edge (h.safe.done d) (by simpa using h.limits) (fun d' hd' => ?_) (.inr (.inl rfl))
  simp only [blocked_done, Bool.and_eq_true, Bool.not_eq_true', decide_eq_false_iff_not] at hd'
  have hdd : d' ≠ d.other := by
    rintro rfl
    exact hd'.1 (Dir.other_other d).symm
  rw [finish_edge, if_neg hdd]
  exact h.edge_ne (fun i hi => by cases hi) hd'.2

lemma Inv.control {pc : Pc} (h : Inv m (.control d pc) t)
    (hclear : pc = .own → motorLimiterStatus m.limiter (some d) raw = true → 0 < m.backStep →
      m.edge d.other = 0) :
    Inv (motorRunControl d raw m pc).1 (.ofPc d (motorRunControl d raw m pc).2.1)
      (t ++ (motorRunControl d raw m pc).2.2) := by
  cases pc with
  | entry => exact h.entry
  | own => exact h.ownStep (hclear rfl)
  | back i => exact h.backStep
  | finish => exact h.finishStep
  | returned r =>
    simp only [motorRunControl, append_nil]
    exact .of_edge h.safe h.limits (fun d' => h.edge_ne fun i hi => by cases hi) (.inr (.inl rfl))

lemma Inv.home {k : Home} (h : Inv m (.homing k) t)
    (hstart : k = .start → 1 ≤ m.limiter.num → motorLimiterStatus m.limiter none raw = false →
      m.edgeUp = 0 ∧ m.edgeDn = 0)
    (hup : ∀ i, k = .up i → i < homingUpMax → motorLimiterStatus m.limiter none raw = false)
    (hdn : ∀ i, k = .dn i → i < homingDnMax → motorLimiterStatus m.limiter none raw = false) :
    Inv (motorInitialHoming raw m k).1 (.ofHome (motorInitialHoming raw m k).2.1)
      (t ++ (motorInitialHoming raw m k).2.2) := by
  have hedge : ∀ d, blocked t d = true → m.edge d ≠ 0 :=
    fun d' => h.edge_ne fun i hi => by cases hi
  have hidle : Inv m (.ofHome none) (t ++ []) := by
    rw [append_nil]
    exact .of_edge h.safe h.limits hedge (.inl rfl)
  -- a loop of homing goes on while neither direction is blocked
  have hloop {u : List Item} {k' : Home} (hu : NoOvertravel u) (hfree : ∀ d, blocked u d = false) :
      Inv m (.homing k') u := by
    refine ⟨hu, h.limits, fun d hd => ?_, fun d heq => ?_, fun d i heq => ?_, fun _ _ _ => hfree⟩
    · rw [hfree d] at hd
      cases hd
    · cases heq
    · cases heq
  cases k with
  | start =>
    simp only [motorInitialHoming]
    split_ifs with hnum hact
    · exact hidle
    · exact hidle
    · obtain ⟨hu, hd⟩ := hstart rfl (by omega) (by simpa using hact)
      rw [append_nil]
      refine hloop h.safe fun d => h.not_blocked (fun i hi => by cases hi) ?_
      cases d
      · exact hu
      · exact hd
  | up i =>
    have hfree := h.homing _ rfl (fun heq => by cases heq)
    simp only [motorInitialHoming]
    by_cases hi : i < homingUpMax
    · rw [if_pos hi, hup i rfl hi]
      exact hloop (h.safe.mstep (hfree .up)) fun d => by simpa using hfree d
    · rw [if_neg hi, append_nil]
      exact hloop h.safe hfree
  | dn i =>
    have hfree := h.homing _ rfl (fun heq => by cases heq)
    simp only [motorInitialHoming]
    by_cases hi : i < homingDnMax
    · rw [if_pos hi, hdn i rfl hi]
      exact hloop (h.safe.mstep (hfree .dn)) fun d => by simpa using hfree d
    · rw [if_neg hi]
      exact hidle

end

/-! ### Runs -/

lemma motorCtrlStore_spec (val allocs : ℕ) (s : Driver) :
    (∀ d, (motorCtrlStore val allocs s).motor.edge d = s.motor.edge d) ∧
    (motorCtrlStore val allocs s).motor.noLimit = s.motor.noLimit ∧
    (motorCtrlStore val allocs s).worker = s.worker ∧
    (motorCtrlStore val allocs s).trace = s.trace := by
  simp only [motorCtrlStore, motorRunUpDn]
  split
  · split_ifs <;> exact ⟨fun _ => rfl, rfl, rfl, rfl⟩
  · split_ifs <;> exact ⟨fun _ => rfl, rfl, rfl, rfl⟩
  · exact ⟨fun _ => rfl, rfl, rfl, rfl⟩
  · exact ⟨fun d => by cases d <;> rfl, rfl, rfl, rfl⟩
  · exact ⟨fun _ => rfl, rfl, rfl, rfl⟩

lemma Inv.congr {m m' : Motor} {w : Worker} {t : List Item} (h : Inv m w t)
    (hedge : ∀ d, m'.edge d = m.edge d) (hlim : m'.noLimit = m.noLimit) : Inv m' w t :=
  ⟨h.safe, hlim.trans h.limits, fun d hd => hedge d ▸ h.edge d hd, h.own, h.back, h.homing⟩

lemma Inv.step {s s' : Driver} {e : Event} (h : Inv s.motor s.worker s.trace) (hok : s.Clear e)
    (hs : s.step e = some s') : Inv s'.motor s'.worker s'.trace := by
  have hedge (hw : ∀ d i, s.worker ≠ .control d (.back i)) :
      ∀ d, blocked s.trace d = true → s.motor.edge d ≠ 0 := fun d => h.edge_ne (hw d)
  cases e with
  | tick raw =>
    simp only [Driver.step, Driver.tick] at hs
    cases hw : s.worker with
    | idle => simp [hw] at hs
    | handler =>
      have hflags := hedge fun d i => by simp [hw]
      cases hq : s.queue with
      | nil =>
        simp only [hw, hq, Option.some.injEq] at hs
        subst hs
        exact .of_edge h.safe h.limits hflags (.inl rfl)
      | cons d q =>
        simp only [hw, hq, Option.some.injEq] at hs
        subst hs
        exact .of_edge h.safe h.limits hflags (.inr (.inr (.inr ⟨d, .inl rfl⟩)))
    | control d pc =>
      simp only [hw, Option.some.injEq] at hs
      subst hs
      rw [hw] at h
      refine h.control fun hpc => ?_
      simpa only [Driver.Clear, Worker.Clear, hw, hpc] using hok
    | homing k =>
      simp only [hw, Option.some.injEq] at hs
      subst hs
      rw [hw] at h
      refine h.home (fun hk => ?_) (fun i hk => ?_) (fun i hk => ?_)
      · simpa only [Driver.Clear, Worker.Clear, hw, hk] using hok
      · simpa only [Driver.Clear, Worker.Clear, hw, hk] using hok
      · simpa only [Driver.Clear, Worker.Clear, hw, hk] using hok
  | work =>
    simp only [Driver.step, Option.ite_none_right_eq_some, Option.some.injEq] at hs
    obtain ⟨⟨hw, -⟩, rfl⟩ := hs
    exact .of_edge h.safe h.limits (hedge fun d i => by simp [hw]) (.inr (.inl rfl))
  | home =>
    simp only [Driver.step, Option.ite_none_right_eq_some, Option.some.injEq] at hs
    obtain ⟨⟨hw, -⟩, rfl⟩ := hs
    exact .of_edge h.safe h.limits (hedge fun d i => by simp [hw]) (.inr (.inr (.inl rfl)))
  | ctrl val allocs =>
    simp only [Driver.step, Option.some.injEq] at hs
    subst hs
    obtain ⟨he, hl, hw, ht⟩ := motorCtrlStore_spec val allocs s
    rw [hw, ht]
    exact h.congr he hl
  | backStep v =>
    simp only [Driver.step, Option.some.injEq] at hs
    subst hs
    exact h.congr (fun d => by cases d <;> rfl) rfl

/-- While homing stays clear of the limiter and no movement backs off towards a set flag, there is
no overtravel. -/
theorem no_overtravel (l : Limiter) (disableAutoHoming : Bool) (es : List Event) (s : Driver)
    (hg : Guarded Driver.step Driver.Clear (motorProbe l disableAutoHoming) es)
    (hr : run Driver.step (motorProbe l disableAutoHoming) es = some s) : NoOvertravel s.trace := by
  have hinit : Inv (motorProbe l disableAutoHoming).motor (motorProbe l disableAutoHoming).worker
      (motorProbe l disableAutoHoming).trace :=
    .of_edge noOvertravel_nil rfl (fun d hd => by cases hd) (.inl rfl)
  exact (hg.invariant (I := fun s => Inv s.motor s.worker s.trace)
    (fun s e s' hI hok hs => hI.step hok hs) hinit hr).safe

def upIntoLimiter : List Event :=
  [.ctrl 257 1, .work, .tick 0, .tick 0, .tick 1, .tick 1, .tick 1, .tick 1, .tick 1, .tick 1,
    .tick 0, .tick 0]

/-- A movement up that finds the limiter and backs off, on a board that does not home. -/
theorem no_overtravel_up : ∃ s, run Driver.step
    (motorProbe boardLimiter true) upIntoLimiter = some s ∧
    s.trace = [.mstep .up, .limit .up, .mstep .dn, .mstep .dn, .mstep .dn, .mstep .dn, .mstep .dn,
      .done .up] ∧ NoOvertravel s.trace := by
  have hg : Guarded Driver.step Driver.Clear (motorProbe boardLimiter true) upIntoLimiter := by
    decide
  exact ⟨_, rfl, rfl, no_overtravel boardLimiter true upIntoLimiter _ hg rfl⟩

/-- Homing finds the limiter after its first mstep up and sets the flag of the way down. A command
to move up is carried out. -/
theorem homing_then_up : ∃ es s, run Driver.step (motorProbe boardLimiter false) es = some s ∧
    s.trace = [.mstep .up, .limit .up, .mstep .up] ∧ ¬ NoOvertravel s.trace := by
  refine ⟨[.home, .tick 0, .tick 1, .ctrl 257 1, .work, .tick 0, .tick 0, .tick 0], _, rfl, rfl, ?_⟩
  intro h
  obtain ⟨x, hx, -⟩ := h .up [.mstep .up] (.limit .up) [] (.mstep .up) [] rfl rfl rfl
  cases hx

end Keystone
