import H713.Pwm.Basic

/-!
# What a channel does to the others

`sun8i_pwm_apply` writes the registers of its channel, the bit of the channel in the enable
register, and the clock register of the pair, on which the other channel runs as well.
-/

namespace Pwm

open Machine Function

variable {chip : Chip} {r : ℕ → UInt32} {ch ch' : ℕ} {state : PwmState}

/-- The registers other than the clocks that are read for a channel. -/
structure SameRegs (r r' : ℕ → UInt32) (ch : ℕ) : Prop where
  period : r' (periodReg ch) = r (periodReg ch)
  ctl : r' (ctlReg ch) = r (ctlReg ch)
  enable : r' enableReg &&& bit ch = r enableReg &&& bit ch

lemma bit_and_bit (h : ch < 32) (h' : ch' < 32) (hne : ch' ≠ ch) : bit ch &&& bit ch' = 0 :=
  one_shiftLeft_and_of_ne h h' hne.symm

lemma sameRegs_configure (k : Choice) (h : ch < 32) (h' : ch' < 32) (hne : ch' ≠ ch) :
    SameRegs r (configure r ch k state) ch' where
  period := by rw [configure_periodReg h, if_neg hne]
  ctl := configure_ctlReg h hne
  enable := by rw [configure_enableReg h, or_and_of_disjoint (bit_and_bit h h' hne)]

lemma sameRegs_disable (h : ch < 32) (h' : ch' < 32) (hne : ch' ≠ ch) :
    SameRegs r (update r enableReg (r enableReg &&& ~~~bit ch)) ch' where
  period := update_of_ne (by rw [periodReg, enableReg]; omega) _ _
  ctl := update_of_ne (by rw [ctlReg, enableReg]; omega) _ _
  enable := by rw [update_self, and_not_and_of_disjoint (bit_and_bit h h' hne)]

lemma sameRegs_apply (chip : Chip) (r : ℕ → UInt32) (state : PwmState) (h : ch < 32)
    (h' : ch' < 32) (hne : ch' ≠ ch) : SameRegs r (sun8iPwmApply chip r ch state).1 ch' := by
  rw [sun8iPwmApply]
  split_ifs
  · cases sun8iPwmFindClock chip state.period with
    | none => exact ⟨rfl, rfl, rfl⟩
    | some k => exact sameRegs_configure k h h' hne
  · exact sameRegs_disable h h' hne

lemma apply_clkCfgReg_of_some {k : Choice} (h : ch < 32) (h' : ch' < 32) (hpair : ch' / 2 = ch / 2)
    (henabled : state.enabled = true) (hk : sun8iPwmFindClock chip state.period = some k) :
    (sun8iPwmApply chip r ch state).1 (clkCfgReg (ch' / 2)) = clkCfgVal k := by
  rw [sun8iPwmApply, if_pos henabled, hk]
  exact (configure_clkCfgReg h h').trans (if_pos hpair)

lemma apply_clkCfgReg_of_not (r : ℕ → UInt32) (h : ch < 32) (h' : ch' < 32)
    (hnot : ¬ (ch' / 2 = ch / 2 ∧ state.enabled = true ∧
      ∃ k, sun8iPwmFindClock chip state.period = some k)) :
    (sun8iPwmApply chip r ch state).1 (clkCfgReg (ch' / 2)) = r (clkCfgReg (ch' / 2)) := by
  rw [sun8iPwmApply]
  split_ifs with henabled
  · cases hk : sun8iPwmFindClock chip state.period with
    | none => rfl
    | some k =>
      have hpair : ch' / 2 ≠ ch / 2 := fun hpair => hnot ⟨hpair, henabled, k, hk⟩
      exact (configure_clkCfgReg h h').trans (if_neg hpair)
  · refine update_of_ne ?_ _ _
    rw [clkCfgReg, enableReg]
    omega

/-- The polarity and the enabled flag of another channel stay. Its period and its duty cycle do
exactly if it is of another pair, the pair gets no clock, or its cycles last as long as before. -/
theorem others_kept_iff (chip : Chip) (r : ℕ → UInt32) (ch ch' : ℕ) (state : PwmState)
    (h : ch < 32) (h' : ch' < 32) (hne : ch' ≠ ch) :
    (sun8iPwmGetState chip (sun8iPwmApply chip r ch state).1 ch').polarity =
        (sun8iPwmGetState chip r ch').polarity ∧
      (sun8iPwmGetState chip (sun8iPwmApply chip r ch state).1 ch').enabled =
        (sun8iPwmGetState chip r ch').enabled ∧
      ((sun8iPwmGetState chip (sun8iPwmApply chip r ch state).1 ch' = sun8iPwmGetState chip r ch') ↔
        (ch' / 2 = ch / 2 → state.enabled = true →
          ∀ k, sun8iPwmFindClock chip state.period = some k →
            report (pairRate chip (clkCfgVal k)) (r (periodReg ch')) =
              report (pairRate chip (r (clkCfgReg (ch' / 2)))) (r (periodReg ch')))) := by
  obtain ⟨hperiod, hctl, henable⟩ := sameRegs_apply chip r state h h' hne
  refine ⟨?_, ?_, ?_⟩
  · rw [sun8iPwmGetState, hctl, sun8iPwmGetState]
  · rw [sun8iPwmGetState, henable, sun8iPwmGetState]
  · simp only [sun8iPwmGetState, hperiod, hctl, henable, PwmState.mk.injEq, and_true]
    rw [← Prod.ext_iff]
    by_cases hcond : ch' / 2 = ch / 2 ∧ state.enabled = true ∧
        ∃ k, sun8iPwmFindClock chip state.period = some k
    · obtain ⟨hpair, henabled, k, hk⟩ := hcond
      rw [apply_clkCfgReg_of_some h h' hpair henabled hk]
      constructor
      · intro heq _ _ k' hk'
        rw [hk] at hk'
        cases hk'
        exact heq
      · exact fun hsame => hsame hpair henabled k hk
    · rw [apply_clkCfgReg_of_not r h h' hcond]
      exact ⟨fun _ hpair henabled k hk => absurd ⟨hpair, henabled, k, hk⟩ hcond, fun _ => rfl⟩

def boardChip : Chip := ⟨24000000, none⟩

def fan : ℕ → UInt32 := fun a =>
  if a = clkCfgReg 0 then 0x80
  else if a = periodReg 1 then 0x01E003C0
  else if a = ctlReg 1 then 0x22
  else if a = enableReg then 0x2
  else 0

/-- The other channel of the pair is given the same period. -/
theorem others_kept_iff_same :
    sun8iPwmGetState boardChip (sun8iPwmApply boardChip fan 0 ⟨40000, 0, .normal, true⟩).1 1 =
      ⟨40000, 20000, .normal, true⟩ := by
  refine Eq.trans ((others_kept_iff boardChip fan 0 1 ⟨40000, 0, .normal, true⟩
    (by decide) (by decide) (by decide)).2.2.mpr ?_) (by decide)
  intro _ _ k hk
  have hfound : sun8iPwmFindClock boardChip 40000 = some ⟨0, 0, 960⟩ := by decide
  rw [hfound] at hk
  cases hk
  decide

/-- A period of 10 ms for channel 0 takes channel 1 from 25 kHz to 6250 Hz. -/
theorem neighbour_slowed :
    sun8iPwmGetState boardChip fan 1 = ⟨40000, 20000, .normal, true⟩ ∧
      (sun8iPwmApply boardChip fan 0 ⟨10000000, 0, .normal, true⟩).2 = 0 ∧
      sun8iPwmGetState boardChip (sun8iPwmApply boardChip fan 0 ⟨10000000, 0, .normal, true⟩).1 1 =
        ⟨160000, 80000, .normal, true⟩ := by
  decide

/-! ### Runs -/

def applies (chip : Chip) (r : ℕ → UInt32) (calls : List (ℕ × PwmState)) : ℕ → UInt32 :=
  calls.foldl (fun r c => (sun8iPwmApply chip r c.1 c.2).1) r

/-- Any settings of the channels of other pairs leave the state of a channel as it is. -/
theorem getState_applies {calls : List (ℕ × PwmState)} (chip : Chip) (r : ℕ → UInt32)
    (h' : ch' < 32) (hcalls : ∀ c ∈ calls, c.1 < 32 ∧ c.1 / 2 ≠ ch' / 2) :
    sun8iPwmGetState chip (applies chip r calls) ch' = sun8iPwmGetState chip r ch' := by
  induction calls generalizing r with
  | nil => rfl
  | cons c calls ih =>
    obtain ⟨hlt, hpair⟩ := hcalls c List.mem_cons_self
    have hne : ch' ≠ c.1 := fun heq => hpair (by rw [heq])
    have hregs := sameRegs_apply chip r c.2 hlt h' hne
    have hnot : ¬ (ch' / 2 = c.1 / 2 ∧ c.2.enabled = true ∧
        ∃ k, sun8iPwmFindClock chip c.2.period = some k) := fun hcond => hpair hcond.1.symm
    refine (ih _ fun d hd => hcalls d (List.mem_cons_of_mem c hd)).trans ?_
    change sun8iPwmGetState chip (sun8iPwmApply chip r c.1 c.2).1 ch' = _
    rw [sun8iPwmGetState, hregs.period, hregs.ctl, hregs.enable,
      apply_clkCfgReg_of_not r hlt h' hnot, sun8iPwmGetState]

def otherCalls : List (ℕ × PwmState) :=
  [(2, ⟨10000000, 0, .normal, true⟩), (3, ⟨0, 0, .normal, true⟩),
    (5, ⟨40000, 40000, .inversed, true⟩), (2, ⟨10000000, 0, .normal, false⟩)]

/-- The second of four calls fails. -/
theorem getState_applies_fan :
    (sun8iPwmApply boardChip (applies boardChip fan (otherCalls.take 1)) 3
      ⟨0, 0, .normal, true⟩).2 = -22 ∧
    sun8iPwmGetState boardChip (applies boardChip fan otherCalls) 1 =
      ⟨40000, 20000, .normal, true⟩ :=
  ⟨by decide, (getState_applies boardChip fan (by decide) (by decide)).trans (by decide)⟩

end Pwm
