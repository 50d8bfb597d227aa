import H713.Pwm.Basic

/-!
# The clock that is found

The search is the `argmax` of the counts over all sources and dividers that fit into the register.
Every true count is among them, and one whose product does not wrap is a true count.
-/

namespace Pwm

open Machine List Nat

variable {chip : Chip} {period : UInt64} {src rate : UInt32} {m : ℕ} {k : Choice}

/-! ### The search as a maximum -/

def choicesOf (chip : Chip) (period : UInt64) (src : UInt32) : List Choice :=
  match chip.rate src with
  | none      => []
  | some rate => (List.range 8).map fun m => ⟨src, m, cyclesOf rate m period⟩

def Choice.fits (k : Choice) : Bool := k.cycles ≠ 0 ∧ k.cycles ≤ 0xFFFF

def Choice.score (k : Choice) : ℕ := k.cycles.toNat

def fitting (chip : Chip) (period : UInt64) : List Choice :=
  ([0, 1].flatMap (choicesOf chip period)).filter Choice.fits

lemma shiftRight_toNat (rate : UInt32) (hm : m < 64) :
    (rate.toUInt64 >>> UInt64.ofNat m).toNat = rate.toNat / 2 ^ m := by
  have hofNat : (UInt64.ofNat m).toNat = m :=
    UInt64.toNat_ofNat_of_lt' (show m < 18446744073709551616 by omega)
  rw [UInt64.toNat_shiftRight, hofNat, mod_eq_of_lt hm, shiftRight_eq_div_pow,
    UInt32.toNat_toUInt64]

lemma cyclesOf_toNat (rate : UInt32) (period : UInt64) (hm : m < 64) :
    (cyclesOf rate m period).toNat =
      rate.toNat / 2 ^ m * period.toNat % 18446744073709551616 / 1000000000 := by
  rw [cyclesOf, divU64, UInt64.toNat_div, UInt64.toNat_mul, shiftRight_toNat rate hm]
  rfl

lemma cyclesOf_eq_zero (hm : m < 64) (h : rate.toNat / 2 ^ m = 0) : cyclesOf rate m period = 0 := by
  apply UInt64.toNat_inj.mp
  rw [cyclesOf_toNat rate period hm, h]
  simp

lemma Choice.fits_iff : k.fits = true ↔ k.cycles ≠ 0 ∧ k.cycles ≤ 0xFFFF := decide_eq_true_iff

lemma filter_eq_nil_of_zero (src : UInt32) {ms : List ℕ}
    (h : ∀ m ∈ ms, cyclesOf rate m period = 0) :
    (ms.map fun m => (⟨src, m, cyclesOf rate m period⟩ : Choice)).filter Choice.fits = [] := by
  refine filter_eq_nil_iff.mpr fun c hc => ?_
  obtain ⟨m, hm, rfl⟩ := mem_map.mp hc
  exact fun hfits => (Choice.fits_iff.mp hfits).1 (h m hm)

lemma cyclesOf_eq_zero_of_le {n : ℕ} (hn : n < 64) (hmn : m ≤ n)
    (hzero : rate.toUInt64 >>> UInt64.ofNat m = 0) : cyclesOf rate n period = 0 := by
  have hdiv : rate.toNat / 2 ^ m = 0 := by
    rw [← shiftRight_toNat rate (hmn.trans_lt hn), hzero]
    rfl
  refine cyclesOf_eq_zero hn (Nat.eq_zero_of_le_zero ?_)
  exact (Nat.div_le_div_left (Nat.pow_le_pow_right (by decide) hmn) (Nat.two_pow_pos m)).trans
    hdiv.le

lemma searchDividers_eq (src rate : UInt32) (period : UInt64) {ms : List ℕ}
    (hsorted : ms.Pairwise (· ≤ ·)) (hms : ∀ m ∈ ms, m < 64) (best : Choice) :
    searchDividers src rate period ms best =
      ((ms.map fun m => (⟨src, m, cyclesOf rate m period⟩ : Choice)).filter Choice.fits).foldl
        (keepBest Choice.score) best := by
  induction ms generalizing best with
  | nil => rfl
  | cons m ms ih =>
    obtain ⟨hle, hsorted'⟩ := pairwise_cons.mp hsorted
    have ih := ih hsorted' fun n hn => hms n (mem_cons_of_mem m hn)
    rw [searchDividers]
    dsimp only
    split_ifs with hzero hnone hlarge hbetter
    · -- the loop stops: the dividers are in order, and none that is left gives a cycle
      have hrest : ∀ n ∈ m :: ms, cyclesOf rate n period = 0 := by
        intro n hn
        refine cyclesOf_eq_zero_of_le (hms n hn) ?_ hzero
        rcases mem_cons.mp hn with rfl | hmem
        · exact le_rfl
        · exact hle n hmem
      rw [filter_eq_nil_of_zero src hrest]
      rfl
    · have hnot : ¬ Choice.fits ⟨src, m, cyclesOf rate m period⟩ = true :=
        fun hfits => (Choice.fits_iff.mp hfits).1 hnone
      rw [map_cons, filter_cons_of_neg hnot]
      exact ih best
    · have hnot : ¬ Choice.fits ⟨src, m, cyclesOf rate m period⟩ = true :=
        fun hfits => absurd hlarge (UInt64.not_lt.mpr (Choice.fits_iff.mp hfits).2)
      rw [map_cons, filter_cons_of_neg hnot]
      exact ih best
    all_goals
      have hfits : Choice.fits ⟨src, m, cyclesOf rate m period⟩ = true :=
        Choice.fits_iff.mpr ⟨hnone, UInt64.not_lt.mp hlarge⟩
      rw [map_cons, filter_cons_of_pos hfits, foldl_cons, keepBest]
    · have hscore : best.score < Choice.score ⟨src, m, cyclesOf rate m period⟩ :=
        UInt64.lt_iff_toNat_lt.mp hbetter
      rw [if_pos hscore]
      exact ih _
    · have hscore : ¬ best.score < Choice.score ⟨src, m, cyclesOf rate m period⟩ :=
        fun hlt => hbetter (UInt64.lt_iff_toNat_lt.mpr hlt)
      rw [if_neg hscore]
      exact ih best

lemma filter_choicesOf_of_zero (h : chip.rate src = some 0) :
    (choicesOf chip period src).filter Choice.fits = [] := by
  rw [choicesOf, h]
  refine filter_eq_nil_of_zero src fun n hn => ?_
  exact cyclesOf_eq_zero ((mem_range.mp hn).trans (by decide)) (Nat.zero_div _)

lemma searchSources_eq (chip : Chip) (period : UInt64) (srcs : List UInt32) (best : Choice) :
    searchSources chip period srcs best =
      ((srcs.flatMap (choicesOf chip period)).filter Choice.fits).foldl (keepBest Choice.score)
        best := by
  induction srcs generalizing best with
  | nil => rfl
  | cons src srcs ih =>
    rw [searchSources, flatMap_cons, filter_append, foldl_append]
    cases hrate : chip.rate src with
    | none =>
      rw [choicesOf, hrate]
      exact ih best
    | some rate =>
      dsimp only
      split_ifs with hzero
      · rw [filter_choicesOf_of_zero (hrate.trans (congrArg some hzero))]
        exact ih best
      · rw [ih, choicesOf, hrate,
          searchDividers_eq src rate period pairwise_le_range fun n hn =>
            (mem_range.mp hn).trans (by decide)]

lemma findClock_eq_argmax (chip : Chip) (period : UInt64) :
    sun8iPwmFindClock chip period = (fitting chip period).argmax Choice.score := by
  have hbest : searchSources chip period [0, 1] ⟨0, 0, 0⟩ =
      ((fitting chip period).argmax Choice.score).getD ⟨0, 0, 0⟩ := by
    rw [searchSources_eq]
    refine foldl_keepBest fun c hc => ?_
    have hfits := Choice.fits_iff.mp (mem_filter.mp hc).2
    exact Nat.pos_of_ne_zero fun hzero => hfits.1 (UInt64.toNat_inj.mp hzero)
  rw [sun8iPwmFindClock, hbest]
  cases hmax : (fitting chip period).argmax Choice.score with
  | none => rfl
  | some c =>
    have hfits := Choice.fits_iff.mp (mem_filter.mp (argmax_mem hmax)).2
    exact if_neg hfits.1

/-! ### True counts -/

def Chip.rates (chip : Chip) : List UInt32 := chip.hosc :: chip.apb.toList

def attainable (chip : Chip) (period : ℕ) : Set ℕ :=
  {c | ∃ rate ∈ chip.rates, ∃ m ≤ 7, c = rate.toNat / 2 ^ m * period / 1000000000 ∧
    1 ≤ c ∧ c ≤ 65535}

def NoWrap (chip : Chip) (period : UInt64) : Prop :=
  ∀ rate ∈ chip.rates, rate.toNat * period.toNat < 18446744073709551616

lemma Chip.mem_rates : rate ∈ chip.rates ↔ ∃ src ∈ [0, 1], chip.rate src = some rate := by
  simp [rates, Chip.rate, eq_comm]

/-- The divided rate of the selected clock. -/
def Choice.clkRate (chip : Chip) (k : Choice) : ℕ :=
  ((chip.rate k.src).getD 0).toNat / 2 ^ k.divM

lemma mem_fitting : k ∈ fitting chip period ↔ k.src ∈ [0, 1] ∧ k.divM ≤ 7 ∧ k.fits = true ∧
    ∃ rate, chip.rate k.src = some rate ∧ k.cycles = cyclesOf rate k.divM period := by
  rw [fitting, mem_filter, mem_flatMap]
  constructor
  · rintro ⟨⟨src, hsrc, hk⟩, hfits⟩
    rw [choicesOf] at hk
    cases hrate : chip.rate src with
    | none =>
      rw [hrate] at hk
      exact absurd hk not_mem_nil
    | some rate =>
      rw [hrate] at hk
      obtain ⟨m, hm, rfl⟩ := mem_map.mp hk
      exact ⟨hsrc, Nat.lt_succ_iff.mp (mem_range.mp hm), hfits, rate, hrate, rfl⟩
  · rintro ⟨hsrc, hm, hfits, rate, hrate, hcycles⟩
    refine ⟨⟨k.src, hsrc, ?_⟩, hfits⟩
    rw [choicesOf, hrate]
    refine mem_map.mpr ⟨k.divM, mem_range.mpr (Nat.lt_succ_iff.mpr hm), ?_⟩
    rw [← hcycles]

lemma score_of_mem_fitting (hk : k ∈ fitting chip period) :
    k.score = k.clkRate chip * period.toNat % 18446744073709551616 / 1000000000 ∧
      0 < k.score ∧ k.score < 65536 := by
  obtain ⟨-, hm, hfits, rate, hsome, hcycles⟩ := mem_fitting.mp hk
  obtain ⟨hne, hle⟩ := Choice.fits_iff.mp hfits
  refine ⟨?_, Nat.pos_of_ne_zero fun hzero => hne (UInt64.toNat_inj.mp hzero),
    lt_succ_of_le (UInt64.le_iff_toNat_le.mp hle)⟩
  rw [Choice.score, hcycles, cyclesOf_toNat rate period (by omega), Choice.clkRate, hsome,
    Option.getD_some]

/-- The product of a true count is too small to wrap. -/
lemma exists_fitting {c : ℕ} (hc : c ∈ attainable chip period.toNat) :
    ∃ k ∈ fitting chip period, k.score = c := by
  obtain ⟨rate, hrate, m, hm, rfl, hpos, hle⟩ := hc
  obtain ⟨src, hsrc, hsome⟩ := Chip.mem_rates.mp hrate
  have hcycles : (cyclesOf rate m period).toNat =
      rate.toNat / 2 ^ m * period.toNat / 1000000000 := by
    rw [cyclesOf_toNat rate period (by omega), mod_eq_of_lt (by omega)]
  refine ⟨⟨src, m, cyclesOf rate m period⟩, mem_fitting.mpr ⟨hsrc, hm, ?_, rate, hsome, rfl⟩,
    hcycles⟩
  refine Choice.fits_iff.mpr ⟨fun hzero => ?_, ?_⟩
  · dsimp only at hzero
    rw [hzero] at hcycles
    change 0 = _ at hcycles
    omega
  · rw [UInt64.le_iff_toNat_le]
    rw [hcycles]
    exact hle

lemma score_attainable (hk : k ∈ fitting chip period)
    (hlt : k.clkRate chip * period.toNat < 18446744073709551616) :
    k.score ∈ attainable chip period.toNat := by
  obtain ⟨hscore, hpos, hle⟩ := score_of_mem_fitting hk
  obtain ⟨hsrc, hm, -, rate, hsome, -⟩ := mem_fitting.mp hk
  refine ⟨rate, Chip.mem_rates.mpr ⟨k.src, hsrc, hsome⟩, k.divM, hm, ?_, hpos,
    le_of_lt_succ hle⟩
  rw [mod_eq_of_lt hlt, Choice.clkRate, hsome] at hscore
  exact hscore

lemma NoWrap.rate_mul_lt (hwrap : NoWrap chip period) (hk : k ∈ fitting chip period) :
    k.clkRate chip * period.toNat < 18446744073709551616 := by
  obtain ⟨hsrc, -, -, rate, hsome, -⟩ := mem_fitting.mp hk
  rw [Choice.clkRate, hsome]
  exact (Nat.mul_le_mul_right _ (div_le_self _ _)).trans_lt
    (hwrap rate (Chip.mem_rates.mpr ⟨k.src, hsrc, hsome⟩))

lemma mem_fitting_of_findClock (hk : sun8iPwmFindClock chip period = some k) :
    k ∈ fitting chip period :=
  argmax_mem ((findClock_eq_argmax chip period).symm.trans hk)

lemma findClock_isGreatest (hk : sun8iPwmFindClock chip period = some k)
    (hlt : k.clkRate chip * period.toNat < 18446744073709551616) :
    IsGreatest (attainable chip period.toNat) k.score := by
  refine ⟨score_attainable (mem_fitting_of_findClock hk) hlt, fun c hc => ?_⟩
  obtain ⟨k', hk', rfl⟩ := exists_fitting hc
  rw [findClock_eq_argmax] at hk
  exact le_of_mem_argmax hk' hk

end Pwm
