import H713.Pwm.Clock

/-!
# The period that is read back

The fields of the registers are read as they were written. The rest is a chain of divisions that
round down.
-/

namespace Pwm

open Machine List Option UInt32 Nat

variable {chip : Chip} {k : Choice} {state : PwmState}

/-! ### Fields -/

lemma clkCfgVal_fields (hsrc : k.src ∈ [0, 1]) (hm : k.divM ≤ 7) :
    clkCfgVal k &&& 0x3 = k.src ∧ ((clkCfgVal k &&& 0x70) >>> 4).toUInt64.toNat = k.divM := by
  obtain ⟨src, m, cycles⟩ := k
  have hhosc : ∀ m < 8, clkCfgVal ⟨0, m, cycles⟩ &&& 0x3 = 0 ∧
      ((clkCfgVal ⟨0, m, cycles⟩ &&& 0x70) >>> 4).toUInt64.toNat = m := by
    simp only [clkCfgVal]
    decide
  have hapb : ∀ m < 8, clkCfgVal ⟨1, m, cycles⟩ &&& 0x3 = 1 ∧
      ((clkCfgVal ⟨1, m, cycles⟩ &&& 0x70) >>> 4).toUInt64.toNat = m := by
    simp only [clkCfgVal]
    decide
  rcases mem_cons.mp hsrc with rfl | hsrc
  · exact hhosc m (lt_succ_of_le hm)
  · obtain rfl := mem_singleton.mp hsrc
    exact hapb m (lt_succ_of_le hm)

lemma pairRate_clkCfgVal {rate : UInt32} (hsrc : k.src ∈ [0, 1]) (hm : k.divM ≤ 7)
    (hsome : chip.rate k.src = some rate) (hne : rate ≠ 0) :
    (pairRate chip (clkCfgVal k)).toNat = rate.toNat / 2 ^ k.divM := by
  obtain ⟨hfield, hdiv⟩ := clkCfgVal_fields hsrc hm
  have hselected : (if k.src = 1 then chip.apb.getD chip.hosc else chip.hosc) = rate := by
    rw [Chip.rate] at hsome
    split_ifs at hsome ⊢
    · rw [hsome, getD_some]
    · exact Option.some.inj hsome
  rw [pairRate, hfield, hselected, if_neg hne, UInt64.toNat_shiftRight, hdiv,
    mod_eq_of_lt (by omega), shiftRight_eq_div_pow, toNat_toUInt64]

section

variable {e a : UInt32}

lemma periodVal_toNat (he : e.toNat < 65536) :
    (periodVal e a).toNat = a.toNat % 65536 * 65536 + e.toNat := by
  have hactive : ((a <<< 16) &&& 0xFFFF0000).toNat = a.toNat % 65536 * 65536 := by
    rw [UInt32.toNat_and, UInt32.toNat_shiftLeft, shiftLeft_eq]
    change a.toNat * 2 ^ 16 % 4294967296 &&& (4294967295 - (2 ^ 16 - 1)) = _
    rw [and_not_low (mod_lt _ (by decide)) (show 16 ≤ 32 by decide)]
    omega
  have hentire : (e &&& 0xFFFF).toNat = e.toNat := by
    rw [UInt32.toNat_and]
    exact (and_two_pow_sub_one_eq_mod _ 16).trans (mod_eq_of_lt he)
  rw [periodVal, UInt32.toNat_or, hactive, hentire]
  have hor := shiftLeft_add_eq_or_of_lt (i := 16) he (a.toNat % 65536)
  rw [shiftLeft_eq] at hor
  exact hor.symm

lemma periodVal_entire (he : e.toNat < 65536) : periodVal e a &&& 0xFFFF = e := by
  apply UInt32.toNat_inj.mp
  rw [UInt32.toNat_and, periodVal_toNat he]
  refine (and_two_pow_sub_one_eq_mod _ 16).trans ?_
  omega

lemma periodVal_active (he : e.toNat < 65536) :
    ((periodVal e a &&& 0xFFFF0000) >>> 16).toNat = a.toNat % 65536 := by
  rw [UInt32.toNat_shiftRight, UInt32.toNat_and, periodVal_toNat he, shiftRight_eq_div_pow]
  change (a.toNat % 65536 * 65536 + e.toNat &&& (4294967295 - (2 ^ 16 - 1))) / 2 ^ 16 = _
  rw [and_not_low (by omega) (by decide)]
  omega

lemma divU64_toNat {x : UInt32} {rate : UInt64} (hx : x.toNat < 65536)
    (hrate : rate.toNat < 4294967296) :
    (divU64 (x.toUInt64 * 1000000000) rate.toUInt32).toNat = x.toNat * 1000000000 / rate.toNat := by
  have hcut : rate.toUInt32.toUInt64.toNat = rate.toNat := by
    rw [toNat_toUInt64, UInt64.toNat_toUInt32, mod_eq_of_lt hrate]
  rw [divU64, UInt64.toNat_div, hcut, UInt64.toNat_mul, toNat_toUInt64]
  change x.toNat * 1000000000 % 18446744073709551616 / _ = _
  rw [mod_eq_of_lt (by omega)]

lemma report_periodVal {rate : UInt64} (hpos : 0 < e.toNat) (he : e.toNat < 65536)
    (hrate : rate.toNat < 4294967296) :
    (report rate (periodVal e a)).1.toNat = e.toNat * 1000000000 / rate.toNat ∧
      (report rate (periodVal e a)).2.toNat = a.toNat % 65536 * 1000000000 / rate.toNat := by
  have hne : e ≠ 0 := by
    rintro rfl
    exact absurd hpos (by decide)
  have hactive := periodVal_active (a := a) he
  rw [report, periodVal_entire he, if_neg hne]
  refine ⟨divU64_toNat he hrate, ?_⟩
  rw [← hactive]
  exact divU64_toNat (hactive ▸ mod_lt _ (by decide)) hrate

/-- The period is cut to 32 bits as a divisor. -/
lemma activeOf_toNat (hduty : state.dutyCycle < state.period) (hne : state.dutyCycle ≠ 0)
    (hfits : e.toNat * state.period.toNat < 18446744073709551616) :
    (activeOf e state).toNat % 65536 =
      e.toNat * state.dutyCycle.toNat / (state.period.toNat % 4294967296) % 65536 := by
  have hprod : e.toNat * state.dutyCycle.toNat < 18446744073709551616 :=
    (Nat.mul_le_mul_left _ (UInt64.lt_iff_toNat_lt.mp hduty).le).trans_lt hfits
  rw [activeOf, if_neg (UInt64.not_le.mpr hduty), if_neg hne, UInt64.toNat_toUInt32, divU64,
    UInt64.toNat_div, UInt64.toNat_mul, toNat_toUInt64, toNat_toUInt64,
    UInt64.toNat_toUInt32, mod_eq_of_lt hprod]
  exact mod_mod_of_dvd _ (by decide)

end

section

variable {rate period cycles active duty : ℕ}

lemma rounded_period (hrate : 0 < rate) (hcycles : cycles = rate * period / 1000000000) :
    cycles * 1000000000 / rate ≤ period ∧
      rate * period < rate * (cycles * 1000000000 / rate + 1) + 1000000000 := by
  have hle : cycles * 1000000000 ≤ rate * period := by
    rw [hcycles]
    exact Nat.div_mul_le_self _ _
  have hlt : rate * period < cycles * 1000000000 + 1000000000 := by
    rw [hcycles]
    omega
  have hnext : cycles * 1000000000 < rate * (cycles * 1000000000 / rate + 1) :=
    Nat.lt_mul_div_succ _ hrate
  exact ⟨Nat.div_le_of_le_mul hle, by omega⟩

lemma rounded_duty (hperiod : 0 < period)
    (hcycles : cycles * 1000000000 ≤ rate * period) (hactive : active * period ≤ cycles * duty) :
    active * 1000000000 / rate ≤ duty := by
  refine Nat.div_le_of_le_mul (Nat.le_of_mul_le_mul_right ?_ hperiod)
  calc active * 1000000000 * period = active * period * 1000000000 := Nat.mul_right_comm _ _ _
    _ ≤ cycles * duty * 1000000000 := Nat.mul_le_mul_right _ hactive
    _ = cycles * 1000000000 * duty := Nat.mul_right_comm _ _ _
    _ ≤ rate * period * duty := Nat.mul_le_mul_right _ hcycles
    _ = rate * duty * period := Nat.mul_right_comm _ _ _

end

/-! ### A channel that is given a clock -/

/-- The clock that was found, with its rate as it is read back. -/
structure Found (chip : Chip) (period : UInt64) (k : Choice) : Prop where
  rate : (pairRate chip (clkCfgVal k)).toNat = k.clkRate chip
  rate_pos : 0 < k.clkRate chip
  rate_lt : k.clkRate chip < 4294967296
  score : k.score = k.clkRate chip * period.toNat % 18446744073709551616 / 1000000000
  score_pos : 0 < k.score
  score_lt : k.score < 65536

lemma found_of_findClock {period : UInt64} (hk : sun8iPwmFindClock chip period = some k) :
    Found chip period k := by
  have hmem := mem_fitting_of_findClock hk
  obtain ⟨hscore, hpos, hlt⟩ := score_of_mem_fitting hmem
  obtain ⟨hsrc, hm, -, rate, hsome, -⟩ := mem_fitting.mp hmem
  have hdivided : k.clkRate chip = rate.toNat / 2 ^ k.divM := by
    rw [Choice.clkRate, hsome, getD_some]
  have hrate_pos : 0 < k.clkRate chip := by
    refine Nat.pos_of_ne_zero fun hzero => ?_
    rw [hzero, Nat.zero_mul, Nat.zero_mod, Nat.zero_div] at hscore
    omega
  have hrate : rate ≠ 0 := by
    rintro rfl
    rw [hdivided] at hrate_pos
    exact absurd hrate_pos (by simp)
  exact ⟨(pairRate_clkCfgVal hsrc hm hsome hrate).trans hdivided.symm, hrate_pos,
    hdivided ▸ (div_le_self _ _).trans_lt rate.toNat_lt, hscore, hpos, hlt⟩

/-- What a call is for: the count is the largest attainable one. The period read back is at most the
requested one, and less than a cycle and a nanosecond shorter; the duty cycle is at most the
requested one. If no count is attainable the call fails and writes nothing. -/
structure Applied (chip : Chip) (r : ℕ → UInt32) (ch : ℕ) (state : PwmState)
    (res : (ℕ → UInt32) × ℤ) : Prop where
  largest : res.2 = 0 →
    IsGreatest (attainable chip state.period.toNat) (res.1 (periodReg ch) &&& 0xFFFF).toNat
  period_le : res.2 = 0 → (sun8iPwmGetState chip res.1 ch).period ≤ state.period
  period_lt : res.2 = 0 →
    (pairRate chip (res.1 (clkCfgReg (ch / 2)))).toNat * state.period.toNat <
      (pairRate chip (res.1 (clkCfgReg (ch / 2)))).toNat *
        ((sun8iPwmGetState chip res.1 ch).period.toNat + 1) + 1000000000
  duty_le : res.2 = 0 → (sun8iPwmGetState chip res.1 ch).dutyCycle ≤ state.dutyCycle
  fails : attainable chip state.period.toNat = ∅ → res = (r, -22)

/-- The product of the chosen clock does not wrap, and the active cycles are few enough although
the period was cut to 32 bits as their divisor and they to 16 bits in the register. -/
structure Choice.Exact (chip : Chip) (state : PwmState) (k : Choice) : Prop where
  product : k.clkRate chip * state.period.toNat < 18446744073709551616
  duty : state.dutyCycle = 0 ∨ state.dutyCycle = state.period ∨
    state.period.toNat % 4294967296 ≠ 0 ∧
      k.score * state.dutyCycle.toNat / (state.period.toNat % 4294967296) % 65536 * 1000000000 /
        k.clkRate chip ≤ state.dutyCycle.toNat

section

variable {r : ℕ → UInt32} {ch : ℕ}

lemma Found.toUInt32 {period : UInt64} (hf : Found chip period k) :
    k.cycles.toUInt32.toNat = k.score := by
  have hlt := hf.score_lt
  rw [UInt64.toNat_toUInt32]
  exact mod_eq_of_lt (show k.score < 4294967296 by omega)

lemma Found.getState (hf : Found chip state.period k) (h : ch < 32) :
    (configure r ch k state (periodReg ch) &&& 0xFFFF).toNat = k.score ∧
      (sun8iPwmGetState chip (configure r ch k state) ch).period.toNat =
        k.score * 1000000000 / k.clkRate chip ∧
      (sun8iPwmGetState chip (configure r ch k state) ch).dutyCycle.toNat =
        (activeOf k.cycles.toUInt32 state).toNat % 65536 * 1000000000 / k.clkRate chip := by
  have hentire := hf.toUInt32
  have hpos : 0 < k.cycles.toUInt32.toNat := hentire ▸ hf.score_pos
  have he : k.cycles.toUInt32.toNat < 65536 := hentire ▸ hf.score_lt
  have hreport := report_periodVal (a := activeOf k.cycles.toUInt32 state) hpos he
    (hf.rate ▸ hf.rate_lt)
  rw [hf.rate, hentire] at hreport
  have hperiod : configure r ch k state (periodReg ch) =
      periodVal k.cycles.toUInt32 (activeOf k.cycles.toUInt32 state) :=
    (configure_periodReg h).trans (if_pos rfl)
  rw [sun8iPwmGetState, hperiod, configure_clkCfgReg_self h, periodVal_entire he]
  exact ⟨hentire, hreport⟩

/-- A wrapped product leaves a period that is far too short. -/
lemma Found.product_lt (hf : Found chip state.period k)
    (hlt : k.clkRate chip * state.period.toNat <
      k.clkRate chip * (k.score * 1000000000 / k.clkRate chip + 1) + 1000000000) :
    k.clkRate chip * state.period.toNat < 18446744073709551616 := by
  have hscore := hf.score_lt
  have hrate := hf.rate_lt
  have hdiv : k.clkRate chip * (k.score * 1000000000 / k.clkRate chip) ≤ k.score * 1000000000 :=
    mul_div_le _ _
  rw [mul_succ] at hlt
  omega

variable (hf : Found chip state.period k)
  (hlt : k.clkRate chip * state.period.toNat < 18446744073709551616)

include hf hlt

lemma Found.score_eq : k.score = k.clkRate chip * state.period.toNat / 1000000000 := by
  rw [hf.score, mod_eq_of_lt hlt]

lemma Found.score_mul_lt : k.score * state.period.toNat < 18446744073709551616 := by
  have hscore := hf.score_eq hlt
  have hbound := hf.score_lt
  have hperiod : state.period.toNat ≤ k.clkRate chip * state.period.toNat :=
    Nat.le_mul_of_pos_left _ hf.rate_pos
  calc k.score * state.period.toNat ≤ 65536 * state.period.toNat :=
        Nat.mul_le_mul_right _ hbound.le
    _ < 18446744073709551616 := by omega

lemma Found.period_pos : 0 < state.period.toNat := by
  refine Nat.pos_of_ne_zero fun hzero => ?_
  have hscore := hf.score_eq hlt
  have hpos := hf.score_pos
  rw [hzero] at hscore
  omega

lemma Found.duty_le_iff (h : ch < 32) (hduty : state.dutyCycle ≤ state.period) :
    (sun8iPwmGetState chip (configure r ch k state) ch).dutyCycle ≤ state.dutyCycle ↔
      state.dutyCycle = 0 ∨ state.dutyCycle = state.period ∨
      k.score * state.dutyCycle.toNat / (state.period.toNat % 4294967296) % 65536 * 1000000000 /
        k.clkRate chip ≤ state.dutyCycle.toNat := by
  have hentire := hf.toUInt32
  rw [UInt64.le_iff_toNat_le, (hf.getState h).2.2]
  by_cases hfull : state.dutyCycle = state.period
  · refine iff_of_true ?_ (.inr (.inl hfull))
    rw [activeOf, if_pos (hfull ▸ UInt64.le_refl _), hentire, mod_eq_of_lt hf.score_lt, hfull]
    exact (rounded_period hf.rate_pos (hf.score_eq hlt)).1
  by_cases hzero : state.dutyCycle = 0
  · refine iff_of_true ?_ (.inl hzero)
    rw [activeOf, if_neg fun hle => hfull (UInt64.le_antisymm hduty hle), if_pos hzero]
    exact (Nat.zero_div _).le.trans (Nat.zero_le _)
  · rw [activeOf_toNat (UInt64.lt_of_le_of_ne hduty hfull) hzero
      (hentire ▸ hf.score_mul_lt hlt), hentire]
    simp only [hzero, hfull, false_or]

lemma Found.exact_of_lt (hduty : state.dutyCycle ≤ state.period)
    (hcut : state.period.toNat < 4294967296 ∨ state.dutyCycle = 0 ∨
      state.dutyCycle = state.period) : k.Exact chip state := by
  refine ⟨hlt, ?_⟩
  rcases hcut with hcut | hcut | hcut
  · have hpos := hf.period_pos hlt
    have hle := Nat.mul_le_mul_left k.score (UInt64.le_iff_toNat_le.mp hduty)
    have hactive : k.score * state.dutyCycle.toNat / state.period.toNat < 65536 :=
      (Nat.div_le_of_le_mul (hle.trans_eq (Nat.mul_comm _ _))).trans_lt hf.score_lt
    have hcycles : k.score * 1000000000 ≤ k.clkRate chip * state.period.toNat := by
      rw [hf.score_eq hlt]
      exact Nat.div_mul_le_self _ _
    rw [mod_eq_of_lt hcut, mod_eq_of_lt hactive]
    exact .inr (.inr ⟨hpos.ne', rounded_duty hpos hcycles (Nat.div_mul_le_self _ _)⟩)
  · exact .inl hcut
  · exact .inr (.inl hcut)

omit hf hlt

lemma applied_iff (r : ℕ → UInt32) (h : ch < 32) (henabled : state.enabled = true)
    (hduty : state.dutyCycle ≤ state.period)
    (hdiv : ∀ k, sun8iPwmFindClock chip state.period = some k → state.dutyCycle = 0 ∨
      state.dutyCycle = state.period ∨ state.period.toNat % 4294967296 ≠ 0) :
    Applied chip r ch state (sun8iPwmApply chip r ch state) ↔
      ∀ k, sun8iPwmFindClock chip state.period = some k → k.Exact chip state := by
  rw [sun8iPwmApply, if_pos henabled]
  cases hk : sun8iPwmFindClock chip state.period with
  | none =>
    have hret : (-22 : ℤ) ≠ 0 := by decide
    refine iff_of_true ⟨?_, ?_, ?_, ?_, fun _ => rfl⟩ fun k hk' =>
      absurd hk' (some_ne_none k).symm
    all_goals exact fun hzero => absurd hzero hret
  | some k =>
    have hf := found_of_findClock hk
    obtain ⟨hcount, hperiod, -⟩ := hf.getState (r := r) h
    have hclock : (pairRate chip (configure r ch k state (clkCfgReg (ch / 2)))).toNat =
        k.clkRate chip := by
      rw [configure_clkCfgReg_self h, hf.rate]
    constructor
    · intro happlied k' hk'
      cases hk'
      have hbound := happlied.period_lt rfl
      dsimp only at hbound
      rw [hclock, hperiod] at hbound
      have hlt := hf.product_lt hbound
      refine ⟨hlt, ?_⟩
      rcases (hf.duty_le_iff hlt h hduty).mp (happlied.duty_le rfl) with hzero | hfull | hle
      · exact .inl hzero
      · exact .inr (.inl hfull)
      · rcases hdiv k hk with hzero | hfull | hne
        · exact .inl hzero
        · exact .inr (.inl hfull)
        · exact .inr (.inr ⟨hne, hle⟩)
    · intro hexact
      obtain ⟨hlt, hcut⟩ := hexact k rfl
      have hgreatest := findClock_isGreatest hk hlt
      obtain ⟨hle, hbound⟩ := rounded_period hf.rate_pos (hf.score_eq hlt)
      refine ⟨fun _ => hcount ▸ hgreatest, fun _ => ?_, fun _ => ?_, fun _ => ?_, fun hempty => ?_⟩
      · rw [UInt64.le_iff_toNat_le, hperiod]
        exact hle
      · dsimp only
        rw [hclock, hperiod]
        exact hbound
      · exact (hf.duty_le_iff hlt h hduty).mpr (hcut.imp_right (Or.imp_right And.right))
      · exact absurd (hempty ▸ hgreatest.1) (Set.notMem_empty _)

end

/-- The call does what it is for exactly when the clock it chooses is exact, unless it has to divide
by zero. It is so if no product wraps and, where a count is attainable, the period has at most 32
bits as a divisor. -/
theorem apply_finds_largest (chip : Chip) (r : ℕ → UInt32) (ch : ℕ) (state : PwmState)
    (h : ch < 32) (henabled : state.enabled = true) (hduty : state.dutyCycle ≤ state.period) :
    ((∀ k, sun8iPwmFindClock chip state.period = some k → state.dutyCycle = 0 ∨
        state.dutyCycle = state.period ∨ state.period.toNat % 4294967296 ≠ 0) →
      (Applied chip r ch state (sun8iPwmApply chip r ch state) ↔
        ∀ k, sun8iPwmFindClock chip state.period = some k → k.Exact chip state)) ∧
    (NoWrap chip state.period →
      ((attainable chip state.period.toNat).Nonempty → state.period.toNat < 4294967296 ∨
        state.dutyCycle = 0 ∨ state.dutyCycle = state.period) →
      Applied chip r ch state (sun8iPwmApply chip r ch state)) := by
  refine ⟨applied_iff r h henabled hduty, fun hwrap hcut => ?_⟩
  have hexact : ∀ k, sun8iPwmFindClock chip state.period = some k → k.Exact chip state := by
    intro k hk
    have hlt := hwrap.rate_mul_lt (mem_fitting_of_findClock hk)
    exact (found_of_findClock hk).exact_of_lt hlt hduty
      (hcut ⟨k.score, (findClock_isGreatest hk hlt).1⟩)
  refine (applied_iff r h henabled hduty fun k hk => ?_).mpr hexact
  exact (hexact k hk).duty.imp_right (Or.imp_right And.left)

def twoClocks : Chip := ⟨24000000, some 100000000⟩

/-- At 25 kHz the second clock gives the most cycles. A period of 5.3 s has no count with a fast
clock alone, and is refused. -/
theorem apply_finds_largest_fan :
    IsGreatest (attainable twoClocks 40000) 4000 ∧
      sun8iPwmApply ⟨24000000, none⟩ (fun _ => 0) 0 ⟨5294967296, 1000000000, .normal, true⟩ =
        (fun _ => 0, -22) := by
  have hwrap : NoWrap twoClocks 40000 := by
    intro rate hrate
    rcases mem_cons.mp hrate with rfl | hapb
    · decide
    · obtain rfl := mem_singleton.mp hapb
      decide
  have hslow : NoWrap ⟨24000000, none⟩ 5294967296 := by
    intro rate hrate
    obtain rfl := mem_singleton.mp hrate
    decide
  have hempty : attainable ⟨24000000, none⟩ 5294967296 = ∅ := by
    refine Set.eq_empty_of_forall_notMem ?_
    rintro c ⟨rate, hrate, m, hm, rfl, -, hle⟩
    obtain rfl := mem_singleton.mp hrate
    have hlarge : ∀ m < 8, ¬ 24000000 / 2 ^ m * 5294967296 / 1000000000 ≤ 65535 := by decide
    exact hlarge m (lt_succ_of_le hm) hle
  have hfan := (apply_finds_largest twoClocks (fun _ => 0) 2 ⟨40000, 20000, .normal, true⟩
    (by decide) rfl (by decide)).2 hwrap fun _ => .inl (by decide)
  have hrefused := (apply_finds_largest ⟨24000000, none⟩ (fun _ => 0) 0
    ⟨5294967296, 1000000000, .normal, true⟩ (by decide) rfl (by decide)).2 hslow fun hsome =>
      absurd hempty hsome.ne_empty
  exact ⟨hfan.largest rfl, hrefused.fails hempty⟩

/-- A period of 768 s is accepted as one of 40 µs. With slow clocks, one of 5.3 s is cut to 1 s as
the divisor, and a duty cycle of 1 s becomes the whole period. -/
theorem apply_wraps_and_cuts :
    (sun8iPwmApply twoClocks (fun _ => 0) 0 ⟨768614376405, 0, .normal, true⟩).2 = 0 ∧
      (sun8iPwmGetState twoClocks
        (sun8iPwmApply twoClocks (fun _ => 0) 0 ⟨768614376405, 0, .normal, true⟩).1 0).period =
          40000 ∧
      (sun8iPwmApply ⟨32768, some 32768⟩ (fun _ => 0) 0
        ⟨5294967296, 1000000000, .normal, true⟩).2 = 0 ∧
      (sun8iPwmGetState ⟨32768, some 32768⟩
        (sun8iPwmApply ⟨32768, some 32768⟩ (fun _ => 0) 0
          ⟨5294967296, 1000000000, .normal, true⟩).1 0).dutyCycle = 5294921875 := by
  decide

end Pwm
