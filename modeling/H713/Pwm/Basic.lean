import H713.Machine.Best
import H713.Machine.Bits

/-!
# The PWM controller

The channels 2 * p and 2 * p + 1 have one register that selects the source of their clock and a
divider. `sun8i_pwm_find_clock` looks for those with which the period has the most cycles, and
`sun8i_pwm_apply` writes them for the pair.
-/

namespace Pwm

open Function

/-- The rates of the clocks of a `struct sun8i_pwm_chip`. The second one is optional. -/
structure Chip where
  hosc : UInt32
  apb : Option UInt32

inductive Polarity where
  | normal
  | inversed
deriving DecidableEq, Repr

/-- `struct pwm_state` -/
structure PwmState where
  period : UInt64
  dutyCycle : UInt64
  polarity : Polarity
  enabled : Bool
deriving DecidableEq, Repr

/-! ### Registers -/

def clkCfgReg (pair : ℕ) : ℕ := 0x020 + pair * 4
def enableReg : ℕ := 0x060
def ctlReg (ch : ℕ) : ℕ := 0x100 + ch * 0x20
def periodReg (ch : ℕ) : ℕ := 0x104 + ch * 0x20

/-- `BIT(ch)` -/
def bit (ch : ℕ) : UInt32 := 1 <<< UInt32.ofNat ch

def divU64 (a : UInt64) (b : UInt32) : UInt64 := a / b.toUInt64

/-! ### Reading the state -/

variable (chip : Chip)

def pairRate (clkCfg : UInt32) : UInt64 :=
  let clkSrc := clkCfg &&& 0x3
  let divM := (clkCfg &&& 0x70) >>> 4
  let rate := if clkSrc = 1 then chip.apb.getD chip.hosc else chip.hosc
  let rate := if rate = 0 then 24000000 else rate
  rate.toUInt64 >>> divM.toUInt64

def report (clkRate : UInt64) (periodVal : UInt32) : UInt64 × UInt64 :=
  let entireCycles := periodVal &&& 0xFFFF
  let activeCycles := (periodVal &&& 0xFFFF0000) >>> 16
  if entireCycles = 0 then (0, 0)
  else
    (divU64 (entireCycles.toUInt64 * 1000000000) clkRate.toUInt32,
      divU64 (activeCycles.toUInt64 * 1000000000) clkRate.toUInt32)

def sun8iPwmGetState (r : ℕ → UInt32) (ch : ℕ) : PwmState where
  period := (report (pairRate chip (r (clkCfgReg (ch / 2)))) (r (periodReg ch))).1
  dutyCycle := (report (pairRate chip (r (clkCfgReg (ch / 2)))) (r (periodReg ch))).2
  polarity := if r (ctlReg ch) &&& 0x2 ≠ 0 then .normal else .inversed
  enabled := r enableReg &&& bit ch ≠ 0

/-! ### The search for a clock -/

/-- A source and a divider, and the cycles of the period with them. -/
structure Choice where
  src : UInt32
  divM : ℕ
  cycles : UInt64
deriving DecidableEq, Repr

def cyclesOf (rate : UInt32) (m : ℕ) (period : UInt64) : UInt64 :=
  divU64 ((rate.toUInt64 >>> UInt64.ofNat m) * period) 1000000000

def searchDividers (src rate : UInt32) (period : UInt64) : List ℕ → Choice → Choice
  | [], best      => best
  | m :: ms, best =>
    if rate.toUInt64 >>> UInt64.ofNat m = 0 then best
    else
      let cycles := cyclesOf rate m period
      if cycles = 0 then searchDividers src rate period ms best
      else if 0xFFFF < cycles then searchDividers src rate period ms best
      else if best.cycles < cycles then searchDividers src rate period ms ⟨src, m, cycles⟩
      else searchDividers src rate period ms best

def Chip.rate (src : UInt32) : Option UInt32 :=
  if src = 1 then chip.apb else some chip.hosc

def searchSources (chip : Chip) (period : UInt64) : List UInt32 → Choice → Choice
  | [], best          => best
  | src :: srcs, best =>
    match chip.rate src with
    | none => searchSources chip period srcs best
    | some rate =>
      if rate = 0 then searchSources chip period srcs best
      else searchSources chip period srcs (searchDividers src rate period (List.range 8) best)

def sun8iPwmFindClock (period : UInt64) : Option Choice :=
  let best := searchSources chip period [0, 1] ⟨0, 0, 0⟩
  if best.cycles = 0 then none else some best

/-! ### Applying a state -/

def activeOf (entireCycles : UInt32) (state : PwmState) : UInt32 :=
  if state.period ≤ state.dutyCycle then entireCycles
  else if state.dutyCycle = 0 then 0
  else (divU64 (entireCycles.toUInt64 * state.dutyCycle) state.period.toUInt32).toUInt32

def clkCfgVal (k : Choice) : UInt32 :=
  (0x80 : UInt32) ||| ((UInt32.ofNat k.divM <<< 4) &&& 0x70) ||| (k.src &&& 0x3)

def periodVal (entireCycles activeCycles : UInt32) : UInt32 :=
  ((activeCycles <<< 16) &&& 0xFFFF0000) ||| (entireCycles &&& 0xFFFF)

def configure (r : ℕ → UInt32) (ch : ℕ) (k : Choice) (state : PwmState) : ℕ → UInt32 :=
  let entireCycles := k.cycles.toUInt32
  let r := Function.update r (clkCfgReg (ch / 2)) (clkCfgVal k)
  let r := Function.update r (periodReg ch) (periodVal entireCycles (activeOf entireCycles state))
  let r := Function.update r (ctlReg ch)
    (if state.polarity = .normal then 0x20 ||| 0x2 else 0x20)
  Function.update r enableReg (r enableReg ||| bit ch)

def sun8iPwmApply (r : ℕ → UInt32) (ch : ℕ) (state : PwmState) :
    (ℕ → UInt32) × ℤ :=
  if state.enabled then
    match sun8iPwmFindClock chip state.period with
    | none   => (r, -22)
    | some k => (configure r ch k state, 0)
  else (Function.update r enableReg (r enableReg &&& ~~~bit ch), 0)

/-! ### What is written where -/

section

variable {r : ℕ → UInt32} {ch ch' : ℕ} {k : Choice} {state : PwmState}

lemma configure_clkCfgReg (h : ch < 32) (h' : ch' < 32) :
    configure r ch k state (clkCfgReg (ch' / 2)) =
      if ch' / 2 = ch / 2 then clkCfgVal k else r (clkCfgReg (ch' / 2)) := by
  simp only [configure, clkCfgReg, periodReg, ctlReg, enableReg]
  rw [update_of_ne (by omega), update_of_ne (by omega),
    update_of_ne (by omega)]
  split_ifs with hpair
  · rw [hpair, update_self]
  · exact update_of_ne (by omega) _ _

lemma configure_clkCfgReg_self (h : ch < 32) :
    configure r ch k state (clkCfgReg (ch / 2)) = clkCfgVal k :=
  (configure_clkCfgReg h h).trans (if_pos rfl)

lemma configure_periodReg (h : ch < 32) :
    configure r ch k state (periodReg ch') =
      if ch' = ch then periodVal k.cycles.toUInt32 (activeOf k.cycles.toUInt32 state)
      else r (periodReg ch') := by
  simp only [configure, clkCfgReg, periodReg, ctlReg, enableReg]
  rw [update_of_ne (by omega), update_of_ne (by omega)]
  split_ifs with hsame
  · rw [hsame, update_self]
  · rw [update_of_ne (by omega), update_of_ne (by omega)]

lemma configure_ctlReg (h : ch < 32) (hne : ch' ≠ ch) :
    configure r ch k state (ctlReg ch') = r (ctlReg ch') := by
  simp only [configure, clkCfgReg, periodReg, ctlReg, enableReg]
  rw [update_of_ne (by omega), update_of_ne (by omega),
    update_of_ne (by omega), update_of_ne (by omega)]

lemma configure_enableReg (h : ch < 32) :
    configure r ch k state enableReg = r enableReg ||| bit ch := by
  simp only [configure, clkCfgReg, periodReg, ctlReg, enableReg]
  rw [update_self, update_of_ne (by omega), update_of_ne (by omega),
    update_of_ne (by omega)]

end

end Pwm
