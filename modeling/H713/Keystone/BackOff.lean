import H713.Keystone.Basic

/-!
# The back-off loop

A movement that runs into its limiter is followed by `back_step` msteps the other way. The loop
takes its counter back whenever the limiter reads free after the fourth round, so that it can go on
as long as the limiter stays free.
-/

namespace Keystone

open List

def IsRaw (raw : ℤ) : Prop := -4095 ≤ raw ∧ raw ≤ 1

/-! ### Calls -/

/-- A call of `motor_run_up_control` or `motor_run_dn_control` under way. -/
structure Call where
  motor : Motor
  pc : Pc
  trace : List Item

def Call.tick (d : Dir) (c : Call) (raw : ℤ) : Call where
  motor := (motorRunControl d raw c.motor c.pc).1
  pc := (motorRunControl d raw c.motor c.pc).2.1
  trace := c.trace ++ (motorRunControl d raw c.motor c.pc).2.2

def Call.after (d : Dir) : ℕ → Call → (ℕ → ℤ) → Call
  | 0, c, _      => c
  | n + 1, c, rs => Call.after d n (c.tick d (rs 0)) fun k => rs (k + 1)

def msteps (trace : List Item) : ℕ := trace.countP fun x => x = .mstep .up ∨ x = .mstep .dn

def ReturnsWithin (d : Dir) (m : Motor) (rs : ℕ → ℤ) (N : ℕ) : Prop :=
  ∃ n r, (Call.after d n ⟨m, .entry, []⟩ rs).pc = .returned r ∧
    (Call.after d n ⟨m, .entry, []⟩ rs).motor.runMutex = false ∧
    msteps (Call.after d n ⟨m, .entry, []⟩ rs).trace ≤ N

/-! ### The condition -/

def Limiter.Fixed (l : Limiter) (d : Dir) : Prop :=
  (∃ status, l.pin (some d) = .error status) ∨ ¬ IsRaw l.activeLevel

def Motor.BacksOff (m : Motor) (d : Dir) : Prop :=
  m.edge d ≠ 0 ∨ m.noLimit ≠ 0 ∨ m.backStep ≤ 4 ∨ m.limiter.Fixed d

section

variable {d : Dir} {m : Motor} {t : List Item} {rs : ℕ → ℤ} {i k : ℕ}

@[simp] lemma finish_runMutex : (m.finish d).runMutex = false := by cases d <;> rfl

lemma after_own (h : m.edge d = 0 ∨ m.noLimit ≠ 0) (n : ℕ) :
    Call.after d (n + 1) ⟨m, .entry, t⟩ rs =
      Call.after d n ⟨{ m with runMutex := true }, .own, t⟩ fun k => rs (k + 1) := by
  have hno : ¬ (m.edge d ≠ 0 ∧ m.noLimit = 0) := fun ⟨h₁, h₂⟩ => h.elim h₁ fun h₃ => h₃ h₂
  simp only [Call.after, Call.tick, motorRunControl, if_neg hno, append_nil]

lemma after_back (h : m.edge d = 0 ∨ m.noLimit ≠ 0)
    (hact : m.noLimit = 0 ∧ motorLimiterStatus m.limiter (some d) (rs 1) = true)
    (hback : 0 < m.backStep) (n : ℕ) :
    Call.after d (n + 2) ⟨m, .entry, []⟩ rs =
      Call.after d n ⟨{ m with runMutex := true }, .back 0, [.mstep d, .limit d]⟩
        fun k => rs (k + 2) := by
  rw [after_own h, Call.after]
  simp [Call.tick, motorRunControl, hact, hback]

lemma back_returns (rs : ℕ → ℤ)
    (hup : (∀ raw, motorLimiterStatus m.limiter (some d) raw = true) ∨ m.backStep ≤ 4)
    (hk : m.backStep.toNat = i + k) :
    ∃ n, Call.after d n ⟨m, .back i, t⟩ rs =
      ⟨(m.setEdge d 1).finish d, .returned 1,
        t ++ List.replicate k (.mstep d.other) ++ [.done d]⟩ := by
  induction k generalizing i t rs with
  | zero =>
    have hi : ¬ (i : ℤ) < m.backStep := by omega
    refine ⟨2, ?_⟩
    simp [Call.after, Call.tick, motorRunControl, hi]
  | succ k ih =>
    have hi : (i : ℤ) < m.backStep := by omega
    have hstay : ¬ (¬ motorLimiterStatus m.limiter (some d) (rs 0) = true ∧ 3 < i) := by
      rintro ⟨hfree, hlt⟩
      rcases hup with hact | hle
      · exact hfree (hact _)
      · omega
    obtain ⟨n, hn⟩ := ih (i := i + 1) (t := t ++ [.mstep d.other]) (fun k => rs (k + 1))
      (by omega)
    refine ⟨n + 1, ?_⟩
    have htick : Call.tick d ⟨m, .back i, t⟩ (rs 0) =
        ⟨m, .back (i + 1), t ++ [.mstep d.other]⟩ := by
      simp only [Call.tick, motorRunControl, if_pos hi, if_neg hstay]
    rw [Call.after, htick, hn, replicate_succ]
    simp

lemma back_stays (rs : ℕ → ℤ) (hlong : 4 < m.backStep)
    (hfree : ∀ n, motorLimiterStatus m.limiter (some d) (rs n) = false) (hi : i ≤ 4) (n : ℕ) :
    ∃ j t', j ≤ 4 ∧ Call.after d n ⟨m, .back i, t⟩ rs = ⟨m, .back j, t'⟩ := by
  induction n generalizing i t rs with
  | zero => exact ⟨i, t, hi, rfl⟩
  | succ n ih =>
    have hlt : (i : ℤ) < m.backStep := by omega
    have hfree0 : motorLimiterStatus m.limiter (some d) (rs 0) = false := hfree 0
    have htick : Call.tick d ⟨m, .back i, t⟩ (rs 0) =
        ⟨m, .back ((if 3 < i then i - 1 else i) + 1), t ++ [.mstep d.other]⟩ := by
      simp [Call.tick, motorRunControl, hlt, hfree0]
    rw [Call.after, htick]
    refine ih (fun k => rs (k + 1)) (fun n => hfree (n + 1)) ?_
    split_ifs <;> omega

lemma Limiter.Fixed.active {l : Limiter} {raw : ℤ} (h : l.Fixed d) (hraw : IsRaw raw)
    (hact : motorLimiterStatus l (some d) raw = true) (raw' : ℤ) :
    motorLimiterStatus l (some d) raw' = true := by
  rcases h with ⟨status, hpin⟩ | hlevel
  · simp only [motorLimiterStatus, hpin] at hact ⊢
    exact hact
  · simp only [motorLimiterStatus] at hact ⊢
    cases hpin : l.pin (some d) with
    | error status => simpa [hpin] using hact
    | ok pin =>
      rw [hpin] at hact
      obtain rfl : raw = l.activeLevel := by simpa using hact
      exact absurd hraw hlevel

lemma msteps_replicate (k : ℕ) (d d' : Dir) :
    msteps ([.mstep d, .limit d] ++ List.replicate k (.mstep d') ++ [.done d]) = k + 1 := by
  cases d <;> cases d' <;> simp [msteps, countP_replicate]

lemma Motor.BacksOff.returnsWithin (h : m.BacksOff d) (hm : m.runMutex = false)
    (hrs : ∀ n, IsRaw (rs n)) : ReturnsWithin d m rs (m.backStep.toNat + 1) := by
  by_cases hedge : m.edge d ≠ 0 ∧ m.noLimit = 0
  · refine ⟨1, 0, ?_⟩
    simp [Call.after, Call.tick, motorRunControl, hedge, hm, msteps]
  have hgo : m.edge d = 0 ∨ m.noLimit ≠ 0 := by
    by_cases h₁ : m.edge d = 0
    · exact .inl h₁
    · exact .inr fun h₂ => hedge ⟨h₁, h₂⟩
  by_cases hact : m.noLimit = 0 ∧ motorLimiterStatus m.limiter (some d) (rs 1) = true
  · by_cases hback : 0 < m.backStep
    · -- the back-off loop runs for its `back_step` rounds
      have hup : (∀ raw, motorLimiterStatus m.limiter (some d) raw = true) ∨ m.backStep ≤ 4 := by
        rcases h with h | h | h | h
        · exact absurd ⟨h, hact.1⟩ hedge
        · exact absurd hact.1 h
        · exact .inr h
        · exact .inl (h.active (hrs 1) hact.2)
      obtain ⟨n, hn⟩ := back_returns (d := d) (m := { m with runMutex := true }) (i := 0)
        (k := m.backStep.toNat) (t := [.mstep d, .limit d]) (fun k => rs (k + 2)) hup
        (by simp)
      refine ⟨n + 2, 1, ?_⟩
      rw [after_back hgo hact hback, hn]
      exact ⟨rfl, finish_runMutex, Nat.le_of_eq (msteps_replicate _ d d.other)⟩
    · refine ⟨3, 1, ?_⟩
      rw [after_own hgo]
      simp only [Call.after, Call.tick, motorRunControl, hact, Nat.zero_add, and_self, ↓reduceIte,
        hback, nil_append, cons_append, finish_runMutex, true_and]
      cases d <;> simp [msteps]
  · refine ⟨3, 1, ?_⟩
    rw [after_own hgo]
    simp only [Call.after, Call.tick, motorRunControl, Nat.zero_add, hact, ↓reduceIte,
      nil_append, cons_append, finish_runMutex, true_and]
    cases d <;> simp [msteps]

def stuckReadings (level : ℤ) (n : ℕ) : ℤ :=
  if n < 2 then level else if level = 0 then 1 else 0

lemma isRaw_stuckReadings {level : ℤ} (h : IsRaw level) (n : ℕ) :
    IsRaw (stuckReadings level n) := by
  simp only [stuckReadings]
  split_ifs
  · exact h
  · exact ⟨by omega, by omega⟩
  · exact ⟨by omega, by omega⟩

lemma not_returnsWithin (h : ¬ m.BacksOff d) (N : ℕ) :
    ¬ ReturnsWithin d m (stuckReadings m.limiter.activeLevel) N := by
  simp only [Motor.BacksOff, Limiter.Fixed, not_or, not_not, not_exists] at h
  obtain ⟨hedge, hlim, hlong, hpin, hlevel⟩ := h
  have hstatus (raw : ℤ) : motorLimiterStatus m.limiter (some d) raw =
      decide (raw = m.limiter.activeLevel) := by
    simp only [motorLimiterStatus]
    cases hp : m.limiter.pin (some d) with
    | error status => exact absurd hp (hpin status)
    | ok pin => rfl
  have hfree (n : ℕ) : motorLimiterStatus m.limiter (some d)
      (stuckReadings m.limiter.activeLevel (n + 2)) = false := by
    rw [hstatus, decide_eq_false_iff_not]
    simp only [stuckReadings]
    split_ifs <;> omega
  have hact : motorLimiterStatus m.limiter (some d)
      (stuckReadings m.limiter.activeLevel 1) = true := by
    rw [hstatus]
    simp [stuckReadings]
  have hback : 0 < m.backStep := by omega
  rintro ⟨n, r, hret, -⟩
  match n with
  | 0 => cases hret
  | 1 => simp [Call.after, Call.tick, motorRunControl, hedge] at hret
  | n + 2 =>
    obtain ⟨j, t', -, hj⟩ := back_stays (d := d) (m := { m with runMutex := true })
      (t := [.mstep d, .limit d]) (i := 0)
      (fun k => stuckReadings m.limiter.activeLevel (k + 2)) (by simpa using hlong) hfree
      (by omega) n
    rw [after_back (.inl hedge) ⟨hlim, hact⟩ hback, hj] at hret
    cases hret

end

/-- A movement is bounded, by `back_step + 1` msteps, exactly when it backs off for at most four
msteps or cannot back off with a limiter that changes. -/
theorem control_bounded_iff (d : Dir) (m : Motor) (hm : m.runMutex = false) :
    ((∃ N, ∀ rs, (∀ n, IsRaw (rs n)) → ReturnsWithin d m rs N) ↔ m.BacksOff d) ∧
    (m.BacksOff d → ∀ rs, (∀ n, IsRaw (rs n)) →
      ReturnsWithin d m rs (m.backStep.toNat + 1)) := by
  refine ⟨⟨fun ⟨N, hN⟩ => ?_, fun h => ⟨_, fun rs hrs => h.returnsWithin hm hrs⟩⟩,
    fun h rs hrs => h.returnsWithin hm hrs⟩
  by_contra h
  have hlevel : IsRaw m.limiter.activeLevel := by
    by_contra hno
    exact h (.inr (.inr (.inr (.inr hno))))
  exact not_returnsWithin h N (hN _ (isRaw_stuckReadings hlevel))

def boardLimiter : Limiter := ⟨238, 0, 1, 1, [238]⟩

/-- A movement that backs off for three msteps makes at most four. -/
theorem control_bounded_short :
    (Call.after .up 7 ⟨⟨boardLimiter, 0, 0, 0, 0, 0, 3, 0, false⟩, .entry, []⟩
      (stuckReadings 1)).trace =
        [.mstep .up, .limit .up, .mstep .dn, .mstep .dn, .mstep .dn, .done .up] ∧
    ReturnsWithin .up ⟨boardLimiter, 0, 0, 0, 0, 0, 3, 0, false⟩ (stuckReadings 1) 4 :=
  ⟨by decide, (control_bounded_iff .up ⟨boardLimiter, 0, 0, 0, 0, 0, 3, 0, false⟩ rfl).2
    (.inr (.inr (.inl (by decide)))) _ (isRaw_stuckReadings ⟨by decide, by decide⟩)⟩

/-- With the default of five msteps, a limiter that opens again keeps the motor running for ever. -/
theorem control_never_returns : ∃ rs : ℕ → ℤ, (∀ n, IsRaw (rs n)) ∧
    ∀ N, ¬ ReturnsWithin .up (motorProbe boardLimiter true).motor rs N := by
  refine ⟨stuckReadings 1, isRaw_stuckReadings ⟨by decide, by decide⟩, fun N => ?_⟩
  refine not_returnsWithin (m := (motorProbe boardLimiter true).motor) ?_ N
  rintro (h | h | h | ⟨status, h⟩ | h)
  · exact h rfl
  · exact h rfl
  · exact absurd h (by decide)
  · cases h
  · exact h ⟨by decide, by decide⟩

end Keystone
