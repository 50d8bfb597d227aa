import H713.Keystone.BackOff

/-!
# The reported position

`step_cur` is counted up or down by one for each movement. The msteps of the back-off are not
counted, so the position is exact as long as no movement backs off, and wrong after the first one
that does.
-/

namespace Keystone

open Machine List

/-! ### Calls that return -/

def Dir.sign : Dir → ℤ
  | .up => 1
  | .dn => -1

lemma Dir.sign_other (d : Dir) : d.other.sign = -d.sign := by cases d <;> rfl

def travelled (trace : List Item) : ℤ :=
  (trace.count (.mstep .up) : ℤ) - trace.count (.mstep .dn)

section

variable {d : Dir} {m : Motor} {t : List Item} {rs : ℕ → ℤ} {n r : ℕ} {c : Call}

lemma travelled_append (t t' : List Item) : travelled (t ++ t') = travelled t + travelled t' := by
  simp only [travelled, count_append]
  omega

@[simp] lemma travelled_mstep : travelled [.mstep d] = d.sign := by cases d <;> rfl

@[simp] lemma travelled_limit : travelled [.mstep d, .limit d] = d.sign := by cases d <;> rfl

@[simp] lemma travelled_done : travelled [.done d] = 0 := by cases d <;> rfl

lemma travelled_replicate (k : ℕ) : travelled (List.replicate k (.mstep d)) = k * d.sign := by
  cases d <;> simp [travelled, count_replicate, Dir.sign]

lemma finish_stepCur : (m.finish d).stepCur = m.stepCur + d.sign := by cases d <;> rfl

@[simp] lemma setEdge_stepCur (v : ℤ) : (m.setEdge d v).stepCur = m.stepCur := by cases d <;> rfl

lemma after_returned (n : ℕ) (rs : ℕ → ℤ) :
    Call.after d n ⟨m, .returned r, t⟩ rs = ⟨m, .returned r, t⟩ := by
  induction n generalizing rs with
  | zero => rfl
  | succ n ih =>
    rw [Call.after]
    simpa [Call.tick, motorRunControl] using ih fun k => rs (k + 1)

lemma after_finish (h : (Call.after d n ⟨m, .finish, t⟩ rs).pc = .returned r) :
    Call.after d n ⟨m, .finish, t⟩ rs = ⟨m.finish d, .returned 1, t ++ [.done d]⟩ := by
  cases n with
  | zero => cases h
  | succ n =>
    rw [Call.after]
    exact after_returned n fun k => rs (k + 1)

lemma after_backOff {i : ℕ} (h : (Call.after d n ⟨m, .back i, t⟩ rs).pc = .returned r) :
    ∃ k : ℕ, m.backStep ≤ i + k ∧ Call.after d n ⟨m, .back i, t⟩ rs =
      ⟨(m.setEdge d 1).finish d, .returned 1,
        t ++ List.replicate k (.mstep d.other) ++ [.done d]⟩ := by
  induction n generalizing i t rs with
  | zero => cases h
  | succ n ih =>
    rw [Call.after] at h ⊢
    by_cases hi : (i : ℤ) < m.backStep
    · simp only [Call.tick, motorRunControl, if_pos hi] at h ⊢
      obtain ⟨k, hk, hcall⟩ := ih h
      refine ⟨k + 1, ?_, ?_⟩
      · split_ifs at hk <;> omega
      · rw [hcall, replicate_succ]
        simp
    · simp only [Call.tick, motorRunControl, if_neg hi, append_nil] at h ⊢
      refine ⟨0, by omega, ?_⟩
      simpa using after_finish h

end

def Motor.Reverses (m : Motor) (d : Dir) (raw : ℤ) : Prop :=
  m.edge d = 0 ∧ m.noLimit = 0 ∧ motorLimiterStatus m.limiter (some d) raw = true ∧ 0 < m.backStep

instance (m : Motor) (d : Dir) (raw : ℤ) : Decidable (m.Reverses d raw) :=
  inferInstanceAs (Decidable (_ ∧ _ ∧ _ ∧ _))

section

variable {d : Dir} {m : Motor} {t : List Item} {rs : ℕ → ℤ} {n r : ℕ}

lemma after_own_returns (h : (Call.after d n ⟨m, .own, t⟩ rs).pc = .returned r) :
    ∃ k : ℕ, (0 < k ↔ m.noLimit = 0 ∧ motorLimiterStatus m.limiter (some d) (rs 0) = true ∧
        0 < m.backStep) ∧
      (Call.after d n ⟨m, .own, t⟩ rs).motor.stepCur = m.stepCur + d.sign ∧
      travelled (Call.after d n ⟨m, .own, t⟩ rs).trace = travelled t + d.sign - k * d.sign := by
  cases n with
  | zero => cases h
  | succ n =>
    rw [Call.after] at h ⊢
    by_cases hact : m.noLimit = 0 ∧ motorLimiterStatus m.limiter (some d) (rs 0) = true
    · by_cases hback : 0 < m.backStep
      · -- the back-off loop, for one round at least
        have htick : Call.tick d ⟨m, .own, t⟩ (rs 0) =
            ⟨m, .back 0, t ++ [.mstep d, .limit d]⟩ := by
          simp [Call.tick, motorRunControl, hact, hback]
        rw [htick] at h ⊢
        obtain ⟨k, hk, hcall⟩ := after_backOff h
        refine ⟨k, ⟨fun _ => ⟨hact.1, hact.2, hback⟩, fun _ => by omega⟩, ?_, ?_⟩
        · rw [hcall, finish_stepCur, setEdge_stepCur]
        · rw [hcall, travelled_append, travelled_append, travelled_append, travelled_limit,
            travelled_replicate, travelled_done, Dir.sign_other, Int.mul_neg]
          omega
      · have htick : Call.tick d ⟨m, .own, t⟩ (rs 0) =
            ⟨m.setEdge d 1, .finish, t ++ [.mstep d, .limit d]⟩ := by
          simp [Call.tick, motorRunControl, hact, hback]
        rw [htick] at h ⊢
        refine ⟨0, ⟨fun h => absurd h (by omega), fun h => absurd h.2.2 hback⟩, ?_, ?_⟩
        · rw [after_finish h, finish_stepCur, setEdge_stepCur]
        · rw [after_finish h, travelled_append, travelled_append, travelled_limit, travelled_done]
          omega
    · have htick : Call.tick d ⟨m, .own, t⟩ (rs 0) = ⟨m, .finish, t ++ [.mstep d]⟩ := by
        simp [Call.tick, motorRunControl, hact]
      rw [htick] at h ⊢
      refine ⟨0, ⟨fun h => absurd h (by omega), fun h => absurd ⟨h.1, h.2.1⟩ hact⟩, ?_, ?_⟩
      · rw [after_finish h, finish_stepCur]
      · rw [after_finish h, travelled_append, travelled_append, travelled_mstep, travelled_done]
        omega

lemma call_returns (h : (Call.after d n ⟨m, .entry, t⟩ rs).pc = .returned r) :
    ∃ k : ℕ, (0 < k ↔ m.Reverses d (rs 1)) ∧
      (Call.after d n ⟨m, .entry, t⟩ rs).motor.stepCur - m.stepCur =
        travelled (Call.after d n ⟨m, .entry, t⟩ rs).trace - travelled t + k * d.sign := by
  cases n with
  | zero => cases h
  | succ n =>
    by_cases hno : m.edge d ≠ 0 ∧ m.noLimit = 0
    · have hcall : Call.after d (n + 1) ⟨m, .entry, t⟩ rs = ⟨m, .returned 0, t⟩ := by
        rw [Call.after]
        simpa [Call.tick, motorRunControl, hno] using after_returned n fun k => rs (k + 1)
      refine ⟨0, ⟨fun h => absurd h (by omega), fun h => absurd h.1 hno.1⟩, ?_⟩
      rw [hcall]
      change m.stepCur - m.stepCur = travelled t - travelled t + 0 * d.sign
      omega
    · have hgo : m.edge d = 0 ∨ m.noLimit ≠ 0 := by
        by_cases hedge : m.edge d = 0
        · exact .inl hedge
        · exact .inr fun hlim => hno ⟨hedge, hlim⟩
      rw [after_own hgo] at h ⊢
      obtain ⟨k, hk, hpos, htrav⟩ := after_own_returns h
      refine ⟨k, hk.trans ⟨fun hback => ⟨?_, hback⟩, fun h => h.2⟩, ?_⟩
      · exact hgo.resolve_right fun h => h hback.1
      · rw [hpos, htrav]
        change m.stepCur + d.sign - m.stepCur = _
        omega

end

/-! ### Sequences of movements -/

/-- A movement of `n` steps with the limiter readings `rs`, or a write to a setting. -/
inductive Action where
  | control (d : Dir) (rs : ℕ → ℤ) (n : ℕ)
  | noLimit (v : ℤ)
  | backStep (v : ℤ)
  | limit

/-- The motor, with what has happened to it so far. -/
structure Travel where
  motor : Motor
  trace : List Item

variable (s : Travel)

def Travel.step : Action → Option Travel
  | .control d rs n =>
    let c := Call.after d n ⟨s.motor, .entry, s.trace⟩ rs
    match c.pc with
    | .returned _ => some ⟨c.motor, c.trace⟩
    | _           => none
  | .noLimit v => some { s with motor := { s.motor with noLimit := if v ≠ 0 then 1 else 0 } }
  | .backStep v =>
    some { s with motor := { s.motor with backStep := if 0 ≤ v then v else s.motor.backStep } }
  | .limit => some { s with motor := { s.motor with edgeUp := 0, edgeDn := 0 } }

def Travel.Counted : Action → Prop
  | .control d rs _ => ¬ s.motor.Reverses d (rs 1)
  | _               => True

instance : ∀ a : Action, Decidable (s.Counted a)
  | .control d rs _ => inferInstanceAs (Decidable (¬ s.motor.Reverses d (rs 1)))
  | .noLimit _ | .backStep _ | .limit => .isTrue trivial

def Travel.Exact (start : ℤ) (s : Travel) : Prop := s.motor.stepCur - start = travelled s.trace

lemma Travel.Exact.step_iff {start : ℤ} {s s' : Travel} {a : Action} (h : s.Exact start)
    (ha : s.step a = some s') : s'.Exact start ↔ s.Counted a := by
  rw [Travel.Exact] at h
  cases a with
  | control d rs n =>
    simp only [Travel.step] at ha
    split at ha
    · rename_i r hpc
      cases ha
      obtain ⟨k, hk, hpos⟩ := call_returns hpc
      rw [Travel.Exact, Travel.Counted, ← hk]
      dsimp only at hpos ⊢
      cases d with
      | up =>
        rw [Dir.sign, Int.mul_one] at hpos
        omega
      | dn =>
        rw [Dir.sign, Int.mul_neg, Int.mul_one] at hpos
        omega
    · cases ha
  | noLimit v =>
    cases ha
    exact ⟨fun _ => trivial, fun _ => h⟩
  | backStep v =>
    cases ha
    exact ⟨fun _ => trivial, fun _ => h⟩
  | limit =>
    cases ha
    exact ⟨fun _ => trivial, fun _ => h⟩

/-- For every sequence of movements that return, with any limiter readings and settings, the
position changes by the upward msteps minus the downward ones exactly when none of them backs off.
-/
theorem position_exact_iff (m : Motor) (as : List Action) (s : Travel)
    (hr : run Travel.step ⟨m, []⟩ as = some s) :
    (∀ bs u, bs <+: as → run Travel.step ⟨m, []⟩ bs = some u →
      u.motor.stepCur - m.stepCur =
        (u.trace.count (.mstep .up) : ℤ) - u.trace.count (.mstep .dn)) ↔
      Guarded Travel.step Travel.Counted ⟨m, []⟩ as := by
  have hstart : Travel.Exact m.stepCur ⟨m, []⟩ := by
    change m.stepCur - m.stepCur = 0
    omega
  exact (guarded_iff_invariant (fun _ _ _ => Travel.Exact.step_iff) hstart hr).symm

def freeMoves : List Action :=
  [.control .up (fun _ => 0) 3, .control .up (fun _ => 0) 3, .control .dn (fun _ => 0) 3]

theorem position_exact_iff_free : ∃ s,
    run Travel.step ⟨(motorProbe boardLimiter true).motor, []⟩ freeMoves = some s ∧
    s.motor.stepCur - (motorProbe boardLimiter true).motor.stepCur =
      (s.trace.count (.mstep .up) : ℤ) - s.trace.count (.mstep .dn) :=
  ⟨_, rfl, (position_exact_iff _ freeMoves _ rfl).mpr (by decide) _ _ (prefix_refl _) rfl⟩

/-- A movement up into the limiter takes the motor four msteps down, and is counted as one up. -/
theorem backOff_not_counted : ∃ s,
    run Travel.step ⟨(motorProbe boardLimiter true).motor, []⟩ [.control .up (fun _ => 1) 9] =
      some s ∧
    s.motor.stepCur - (motorProbe boardLimiter true).motor.stepCur = 1 ∧
    (s.trace.count (.mstep .up) : ℤ) - s.trace.count (.mstep .dn) = -4 :=
  ⟨_, rfl, by decide, by decide⟩

end Keystone
