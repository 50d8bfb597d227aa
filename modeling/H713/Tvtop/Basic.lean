import H713.Machine.Run
import Mathlib.Data.Int.Basic

/-!
# The TV subsystem

The driver switches tvdisp, tvcap and tvfe on and off. To enable one it takes its clocks, the bus
clock, the reset and, except for tvdisp, the power domain; each call can fail. Users are counted,
and tvdisp takes a reference on tvcap. Register writes are left out.
-/

namespace Tvtop

/-- The submodules, `TVTOP_SUB_TVDISP`, `TVTOP_SUB_TVCAP` and `TVTOP_SUB_TVFE`. -/
inductive Kind where
  | tvdisp
  | tvcap
  | tvfe
  deriving DecidableEq

/-- A `struct tvtop_clk_entry`. A clock handle is a number. -/
structure ClkEntry where
  clk : Option ℕ
  parentRate : ℕ
  parentClk : Option ℕ
  clkEnabled : Bool
  parentClkEnabled : Bool

/-- What the probe functions fill in of a `struct tvtop_submodule`. Of the reset and the power
domain only matters whether they are there. -/
structure Resources (k : Kind) where
  busClk : Option ℕ
  rst : Bool
  pmDev : Bool
  pmDev_tvdisp : k = .tvdisp → pmDev = false

/-- A `struct tvtop_submodule`. -/
structure Submodule (k : Kind) extends Resources k where
  entries : List ClkEntry
  busClkEnabled : Bool
  enabled : Bool

def sunxiTvtopProbe {k : Kind} (r : Resources k) (clks : List (Option ℕ × ℕ)) : Submodule k :=
  { r with
    entries := clks.map fun c => ⟨c.1, c.2, none, false, false⟩
    busClkEnabled := false
    enabled := false }

/-- The enables of each clock, the deasserts of the reset and the uses of the power domain that have
not been undone. -/
@[ext] structure Counts where
  clk : ℕ → ℕ
  reset : ℕ
  pm : ℕ

/-- The results for a clock and for its parent, which is the one `tvtop_select_best_parent` has
chosen. -/
structure EntryAnswer where
  clk : ℕ
  parent : Option ℕ
  parentClk : ℕ

/-- The kernel's answers during one enable. The reset core may count a deassert that has failed. -/
structure Answers where
  entries : List EntryAnswer
  bus : ℕ
  reset : ℕ
  resetCounted : Bool
  pm : ℕ

variable (f : ℕ → ℕ)

def inc (c : ℕ) : ℕ → ℕ := Function.update f c (f c + 1)

def dec (c : ℕ) : ℕ → ℕ := Function.update f c (f c - 1)

lemma inc_apply (c x : ℕ) : inc f c x = f x + if c = x then 1 else 0 := by
  simp only [inc, Function.update_apply]
  split_ifs with h₁ h₂ h₂
  · rw [h₁]
  · exact absurd h₁.symm h₂
  · exact absurd h₂.symm h₁
  · rfl

lemma dec_apply (c x : ℕ) : dec f c x = f x - if c = x then 1 else 0 := by
  simp only [dec, Function.update_apply]
  split_ifs with h₁ h₂ h₂
  · rw [h₁]
  · exact absurd h₁.symm h₂
  · exact absurd h₂.symm h₁
  · rfl

/-! ### The clock list -/

namespace ClkEntry

variable (e : ClkEntry) (a : EntryAnswer)

def enableOwn (f : ℕ → ℕ) : ℕ × ClkEntry × (ℕ → ℕ) :=
  match e.clk with
  | none   => (0, e, f)
  | some c =>
    if e.clkEnabled then (0, e, f)
    else if a.clk = 0 then (0, { e with clkEnabled := true }, inc f c)
    else (a.clk, e, f)

def enableParent (f : ℕ → ℕ) : ℕ × ClkEntry × (ℕ → ℕ) :=
  if e.parentRate = 0 then (0, e, f)
  else
    let parent := e.clk.bind fun _ => a.parent
    let e := { e with parentClk := parent }
    match parent with
    | none   => (0, e, f)
    | some p =>
      if e.parentClkEnabled then (0, e, f)
      else if a.parentClk = 0 then (0, { e with parentClkEnabled := true }, inc f p)
      else (a.parentClk, e, f)

def enable (f : ℕ → ℕ) : ℕ × ClkEntry × (ℕ → ℕ) :=
  let (err, e, f) := e.enableOwn a f
  if err = 0 then e.enableParent a f else (err, e, f)

def release (f : ℕ → ℕ) : ClkEntry × (ℕ → ℕ) :=
  let (e, f) := match e.clk with
    | some c => if e.clkEnabled then ({ e with clkEnabled := false }, dec f c) else (e, f)
    | none   => (e, f)
  match e.parentClk with
  | some p => if e.parentClkEnabled then ({ e with parentClkEnabled := false }, dec f p) else (e, f)
  | none   => (e, f)

end ClkEntry

def releaseAll : List ClkEntry → (ℕ → ℕ) → List ClkEntry × (ℕ → ℕ)
  | [], f      => ([], f)
  | e :: es, f =>
    let (e, f) := e.release f
    let (es, f) := releaseAll es f
    (e :: es, f)

def sunxiTvtopClockEnable (done : List ClkEntry) :
    List ClkEntry → List EntryAnswer → (ℕ → ℕ) → ℕ × List ClkEntry × (ℕ → ℕ)
  | [], _, f       => (0, done.reverse, f)
  | e :: es, as, f =>
    let (err, e, f) := e.enable (as.headD ⟨0, none, 0⟩) f
    if err = 0 then sunxiTvtopClockEnable (e :: done) es as.tail f
    else
      let (done, f) := releaseAll done f
      (err, done.reverse ++ e :: es, f)

/-! ### Enabling and disabling -/

/-- A submodule, with what the kernel counts on its behalf. -/
structure Power (k : Kind) where
  sub : Submodule k
  counts : Counts

namespace Power

variable {k : Kind} (p : Power k) (a : Answers)

def clockEnable : ℕ × Power k :=
  let (err, es, f) := sunxiTvtopClockEnable [] p.sub.entries a.entries p.counts.clk
  (err, ⟨{ p.sub with entries := es }, { p.counts with clk := f }⟩)

def busEnable : ℕ × Power k :=
  match p.sub.busClk with
  | none   => (0, p)
  | some c =>
    if p.sub.busClkEnabled then (0, p)
    else if a.bus = 0 then
      (0, ⟨{ p.sub with busClkEnabled := true }, { p.counts with clk := inc p.counts.clk c }⟩)
    else (a.bus, p)

def resetDeassert : ℕ × Power k :=
  if !p.sub.rst then (0, p)
  else if a.reset = 0 then (0, { p with counts := { p.counts with reset := p.counts.reset + 1 } })
  else if a.resetCounted then
    (a.reset, { p with counts := { p.counts with reset := p.counts.reset + 1 } })
  else (a.reset, p)

def tvtopPmDomainEnable : ℕ × Power k :=
  if !p.sub.pmDev then (0, p)
  else if a.pm = 0 then (0, { p with counts := { p.counts with pm := p.counts.pm + 1 } })
  else (a.pm, { p with counts := { p.counts with pm := p.counts.pm - 1 } })

def andThen (r : ℕ × Power k) (next : Power k → ℕ × Power k) : ℕ × Power k :=
  if r.1 ≠ 0 then r else next r.2

lemma andThen_zero (next : Power k → ℕ × Power k) :
    andThen (0, p) next = next p := rfl

lemma andThen_of_ne {err : ℕ} (h : err ≠ 0) (p : Power k) (next : Power k → ℕ × Power k) :
    andThen (err, p) next = (err, p) := if_pos h

def enableSteps (pm : Bool) (p : Power k) (a : Answers) : ℕ × Power k :=
  if p.sub.enabled then (0, p)
  else
    andThen (p.clockEnable a) fun p =>
    andThen (p.busEnable a) fun p =>
    andThen (p.resetDeassert a) fun p =>
    andThen (if pm then p.tvtopPmDomainEnable a else (0, p)) fun p =>
    (0, { p with sub := { p.sub with enabled := true } })

def tvtopTvdispEnable : Power .tvdisp → Answers → ℕ × Power .tvdisp := enableSteps false

def tvtopTvcapEnable : Power .tvcap → Answers → ℕ × Power .tvcap := enableSteps true

def tvtopTvfeEnable : Power .tvfe → Answers → ℕ × Power .tvfe := enableSteps true

def enableFn : {k : Kind} → Power k → Answers → ℕ × Power k
  | .tvdisp => tvtopTvdispEnable
  | .tvcap  => tvtopTvcapEnable
  | .tvfe   => tvtopTvfeEnable

lemma enableFn_eq :
    p.enableFn a = p.enableSteps (decide (k ≠ .tvdisp)) a := by
  cases k <;> rfl

def busRelease (s : Submodule k) (f : ℕ → ℕ) : Bool × (ℕ → ℕ) :=
  match s.busClk with
  | some c => if s.busClkEnabled then (false, dec f c) else (s.busClkEnabled, f)
  | none   => (s.busClkEnabled, f)

def tvtopSubmoduleDisable : Power k :=
  if !p.sub.enabled then p
  else
    let r := releaseAll p.sub.entries p.counts.clk
    let b := busRelease p.sub r.2
    { sub := { p.sub with entries := r.1, busClkEnabled := b.1, enabled := false }
      counts :=
        { clk := b.2
          reset := if p.sub.rst then p.counts.reset - 1 else p.counts.reset
          pm := if p.sub.pmDev then p.counts.pm - 1 else p.counts.pm } }

end Power

end Tvtop
