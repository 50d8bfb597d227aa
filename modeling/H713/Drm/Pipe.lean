import Mathlib.Data.List.Induction
import Mathlib.Order.Lattice

/-!
# The display pipe

`h713_pipe_enable` switches on the clocks of the display and deasserts its reset, and
`h713_pipe_disable` only clears the flag `enabled`. The removal disables an active pipe and takes
the clocks and the reset back if the flag is set.
-/

namespace Drm

open List

/-- A count of the kernel, with its highest value so far. -/
structure Gauge where
  count : ℕ
  peak : ℕ

def Gauge.up (g : Gauge) : Gauge := ⟨g.count + 1, max g.peak (g.count + 1)⟩

def Gauge.down (g : Gauge) : Gauge := { g with count := g.count - 1 }

/-- What is counted: the five clocks and the reset. -/
inductive Line where
  | svpDtl
  | deint
  | panel
  | busDisp
  | afbd
  | reset
deriving DecidableEq, Repr

/-- The clocks that `h713_get_clocks` has found. It fails without `clk_bus_disp` and the reset. -/
structure Clocks where
  svpDtl : Bool
  deint : Bool
  panel : Bool
  afbd : Bool

def Clocks.has (c : Clocks) : Line → Bool
  | .svpDtl          => c.svpDtl
  | .deint           => c.deint
  | .panel           => c.panel
  | .afbd            => c.afbd
  | .busDisp | .reset => true

def raise (g : Line → Gauge) (l : Line) : Line → Gauge := Function.update g l (g l).up

def lower (g : Line → Gauge) (l : Line) : Line → Gauge := Function.update g l (g l).down

def clockOrder : List Line := [.svpDtl, .deint, .panel, .busDisp, .afbd]

def disable (c : Clocks) (g : Line → Gauge) (l : Line) : Line → Gauge :=
  if c.has l then lower g l else g

def disableAll (c : Clocks) (ls : List Line) (g : Line → Gauge) : Line → Gauge :=
  ls.foldl (disable c) g

def enableFrom (c : Clocks) (err : Line → ℕ) :
    List Line → List Line → (Line → Gauge) → ℕ × (Line → Gauge)
  | _, [], g         => (0, g)
  | done, l :: ls, g =>
    if c.has l then
      if err l = 0 then enableFrom c err (l :: done) ls (raise g l)
      else (err l, disableAll c done g)
    else enableFrom c err (l :: done) ls g

def clocksEnable (c : Clocks) (err : Line → ℕ) (g : Line → Gauge) : ℕ × (Line → Gauge) :=
  enableFrom c err [] clockOrder g

def clocksDisable (c : Clocks) (g : Line → Gauge) : Line → Gauge :=
  disableAll c clockOrder.reverse g

/-- The driver, with the flag of the DRM core for an active pipe. -/
structure Device where
  clocks : Clocks
  lines : Line → Gauge
  enabled : Bool
  active : Bool

/-- The results of the kernel during one `h713_pipe_enable`, and two registers of the blender. The
reset core may count a deassert that has failed. -/
structure Answers where
  clk : Line → ℕ
  reset : ℕ
  resetCounted : Bool
  ctrl : ℕ
  hact : ℕ

namespace Device

def probe (c : Clocks) (n : Line → ℕ) : Device := ⟨c, fun l => ⟨n l, n l⟩, false, false⟩

def pipeEnable (d : Device) (a : Answers) : Device :=
  let (ret, g) := clocksEnable d.clocks a.clk d.lines
  if ret ≠ 0 then { d with lines := g, active := true }
  else if a.reset ≠ 0 then
    let g := if a.resetCounted then raise g .reset else g
    { d with lines := clocksDisable d.clocks g, active := true }
  else
    let g := raise g .reset
    if a.ctrl = 0 ∧ a.hact = 0 then
      { d with lines := clocksDisable d.clocks (lower g .reset), active := true }
    else { d with lines := g, enabled := true, active := true }

def pipeDisable (d : Device) : Device := { d with enabled := false, active := false }

def drmRemove (d : Device) : Device :=
  let d := if d.active then d.pipeDisable else d
  if d.enabled then
    { d with enabled := false, lines := clocksDisable d.clocks (lower d.lines .reset) }
  else d

/-- The operations of the DRM core. An update neither enables nor disables anything. -/
inductive Op where
  | enable (a : Answers)
  | disable
  | update

def step (d : Device) : Op → Device
  | .enable a => d.pipeEnable a
  | .disable  => d.pipeDisable
  | .update   => d

def run (d : Device) (ops : List Op) : Device := ops.foldl step d

end Device

/-! ### Counts that go up by at most one -/

def Gauge.Moved (a b : Gauge) (k : ℕ) : Prop :=
  b.count = a.count + k ∧ b.peak ≤ max a.peak (a.count + 1)

namespace Gauge.Moved

variable {a b : Gauge} {k : ℕ}

lemma refl (a : Gauge) : a.Moved a 0 := ⟨rfl, le_max_left _ _⟩

lemma up (h : a.Moved b 0) : a.Moved b.up 1 := by
  obtain ⟨hcount, hpeak⟩ := h
  refine ⟨?_, ?_⟩
  · rw [Gauge.up, hcount]
  · simp only [Gauge.up]
    omega

lemma down (h : a.Moved b (k + 1)) : a.Moved b.down k := by
  obtain ⟨hcount, hpeak⟩ := h
  refine ⟨?_, hpeak⟩
  simp only [Gauge.down]
  omega

end Gauge.Moved

variable {c : Clocks} {g₀ g : Line → Gauge} {k : Line → ℕ} {err : Line → ℕ} {x : Line}

def Clocks.ones (c : Clocks) (ls : List Line) (l : Line) : ℕ := if l ∈ ls ∧ c.has l then 1 else 0

lemma Clocks.ones_nil (l : Line) : c.ones [] l = 0 := if_neg fun h => absurd h.1 not_mem_nil

lemma Clocks.ones_cons {ls : List Line} (hx : x ∉ ls) (l : Line) :
    c.ones (x :: ls) l = c.ones ls l + c.ones [x] l := by
  by_cases hl : l = x
  · subst hl
    simp [ones, hx]
  · simp [ones, hl]

lemma moved_raise (hhas : c.has x) (hzero : k x = 0) (h : ∀ l, (g₀ l).Moved (g l) (k l))
    (l : Line) : (g₀ l).Moved (raise g x l) (k l + c.ones [x] l) := by
  by_cases hl : l = x
  · subst hl
    have hup := h l
    rw [hzero] at hup
    simpa [raise, Clocks.ones, hhas, hzero] using hup.up
  · simpa [raise, Clocks.ones, hl] using h l

lemma moved_disable (h : ∀ l, (g₀ l).Moved (g l) (k l + c.ones [x] l)) (l : Line) :
    (g₀ l).Moved (disable c g x l) (k l) := by
  have hl := h l
  by_cases hlx : l = x
  · subst hlx
    cases hhas : c.has l with
    | true =>
      have hone : c.ones [l] l = 1 := if_pos ⟨mem_singleton_self l, hhas⟩
      rw [hone] at hl
      rw [disable, if_pos hhas, lower, Function.update_self]
      exact hl.down
    | false => simpa [disable, Clocks.ones, hhas] using hl
  · have hone : c.ones [x] l = 0 := if_neg fun h => hlx (mem_singleton.mp h.1)
    rw [hone] at hl
    rw [disable]
    split_ifs
    · rw [lower, Function.update_of_ne hlx]
      exact hl
    · exact hl

lemma moved_disableAll {ls : List Line} (hnodup : ls.Nodup)
    (h : ∀ l, (g₀ l).Moved (g l) (k l + c.ones ls l)) (l : Line) :
    (g₀ l).Moved (disableAll c ls g l) (k l) := by
  induction ls generalizing g with
  | nil =>
    have hl := h l
    rw [Clocks.ones_nil] at hl
    exact hl
  | cons x ls ih =>
    obtain ⟨hx, hnodup⟩ := nodup_cons.mp hnodup
    refine ih hnodup (moved_disable fun l => ?_)
    have hl := h l
    rwa [Clocks.ones_cons hx, ← Nat.add_assoc] at hl

lemma moved_enableFrom {done ls : List Line} (hnodup : (ls.reverse ++ done).Nodup)
    (h : ∀ l, (g₀ l).Moved (g l) (c.ones done l)) :
    let r := enableFrom c err done ls g
    (r.1 = 0 ↔ ∀ l ∈ ls, c.has l → err l = 0) ∧
      ∀ l, (g₀ l).Moved (r.2 l) (if r.1 = 0 then c.ones (ls.reverse ++ done) l else 0) := by
  induction ls generalizing done g with
  | nil => exact ⟨iff_of_true rfl fun _ hl => absurd hl not_mem_nil, h⟩
  | cons x ls ih =>
    have hperm : (x :: ls).reverse ++ done = ls.reverse ++ x :: done := by
      rw [reverse_cons, append_assoc, singleton_append]
    rw [hperm] at hnodup ⊢
    have hdone : (x :: done).Nodup := (nodup_append.mp hnodup).2.1
    obtain ⟨hx, hdone⟩ := nodup_cons.mp hdone
    cases hhas : c.has x with
    | false =>
      have hnext : ∀ l, (g₀ l).Moved (g l) (c.ones (x :: done) l) := by
        intro l
        have hone : c.ones [x] l = 0 :=
          if_neg fun h => by simp [mem_singleton.mp h.1, hhas] at h
        rw [Clocks.ones_cons hx, hone]
        exact h l
      have hrest := ih hnodup hnext
      simp only [enableFrom, hhas, Bool.false_eq_true, if_false]
      refine ⟨hrest.1.trans ?_, hrest.2⟩
      simp [hhas]
    | true =>
      by_cases herr : err x = 0
      · have hzero : c.ones done x = 0 := if_neg fun h => hx h.1
        have hnext : ∀ l, (g₀ l).Moved (raise g x l) (c.ones (x :: done) l) := by
          intro l
          rw [Clocks.ones_cons hx]
          exact moved_raise hhas hzero h l
        have hrest := ih hnodup hnext
        simp only [enableFrom, hhas, if_true, herr]
        refine ⟨hrest.1.trans ?_, hrest.2⟩
        simp [hhas, herr]
      · simp only [enableFrom, hhas, if_true, if_neg herr]
        refine ⟨iff_of_false herr fun hall => herr (hall x mem_cons_self hhas), fun l => ?_⟩
        refine moved_disableAll hdone (k := fun _ => 0) (fun l => ?_) l
        rw [Nat.zero_add]
        exact h l

lemma clockOrder_nodup : (clockOrder.reverse ++ []).Nodup := by decide

lemma moved_clocksEnable (c : Clocks) (err : Line → ℕ) (g : Line → Gauge) :
    ((clocksEnable c err g).1 = 0 ↔ ∀ l ∈ clockOrder, c.has l → err l = 0) ∧
      ∀ l, (g l).Moved ((clocksEnable c err g).2 l)
        (if (clocksEnable c err g).1 = 0 then c.ones clockOrder.reverse l else 0) :=
  moved_enableFrom clockOrder_nodup fun l => by
    rw [Clocks.ones_nil]
    exact .refl (g l)

lemma moved_clocksDisable (h : ∀ l, (g₀ l).Moved (g l) (k l + c.ones clockOrder.reverse l))
    (l : Line) : (g₀ l).Moved (clocksDisable c g l) (k l) :=
  moved_disableAll (by decide) h l

/-! ### One enable -/

variable (a : Answers)

def Answers.ClocksOk (c : Clocks) : Prop := ∀ l ∈ clockOrder, c.has l → a.clk l = 0

def Answers.Succeeds (c : Clocks) : Prop :=
  a.ClocksOk c ∧ a.reset = 0 ∧ ¬ (a.ctrl = 0 ∧ a.hact = 0)

def Answers.Strands (c : Clocks) : Prop :=
  a.ClocksOk c ∧ a.reset ≠ 0 ∧ a.resetCounted

lemma Clocks.ones_clocks_reset : c.ones clockOrder.reverse .reset = 0 :=
  if_neg fun h => by simp [clockOrder] at h

lemma Clocks.ones_reset : c.ones [.reset] .reset = 1 := rfl

lemma Clocks.ones_reset_le (l : Line) : c.ones [.reset] l ≤ 1 := by
  rw [ones]
  split_ifs <;> omega

lemma Clocks.ones_add_le (l : Line) : c.ones clockOrder.reverse l + c.ones [.reset] l ≤ 1 := by
  by_cases hl : l = .reset
  · subst hl
    rw [ones_clocks_reset, ones_reset]
  · have hzero : c.ones [.reset] l = 0 := if_neg fun h => hl (mem_singleton.mp h.1)
    rw [hzero, ones]
    split_ifs <;> omega

lemma Device.moved_pipeEnable (d : Device) (a : Answers) :
    ∃ k : Line → ℕ, (∀ l, (d.lines l).Moved ((d.pipeEnable a).lines l) (k l)) ∧
      (∀ l, k l ≤ k .reset) ∧
      (k .reset = 0 ↔ ¬ a.Succeeds d.clocks ∧ ¬ a.Strands d.clocks) ∧
      (d.pipeEnable a).clocks = d.clocks ∧ (d.pipeEnable a).active = true := by
  obtain ⟨hok, hmoved⟩ := moved_clocksEnable d.clocks a.clk d.lines
  by_cases hret : (clocksEnable d.clocks a.clk d.lines).1 = 0
  · have hclk : a.ClocksOk d.clocks := hok.mp hret
    simp only [hret, if_true] at hmoved
    have hraised := moved_raise (c := d.clocks) rfl Clocks.ones_clocks_reset hmoved
    simp only [pipeEnable]
    rw [if_neg (not_not_intro hret)]
    split_ifs with hrst hcounted hdead
    · -- the failed deassert is counted, the clocks go back
      refine ⟨d.clocks.ones [.reset], moved_clocksDisable fun l => ?_, fun l => ?_, ?_, rfl, rfl⟩
      · rw [Nat.add_comm]
        exact hraised l
      · exact Clocks.ones_reset_le l
      · exact iff_of_false Nat.one_ne_zero fun h => h.2 ⟨hclk, hrst, hcounted⟩
    · refine ⟨fun _ => 0, moved_clocksDisable fun l => ?_, fun _ => le_rfl, ?_, rfl, rfl⟩
      · rw [Nat.zero_add]
        exact hmoved l
      · exact iff_of_true rfl ⟨fun h => hrst h.2.1, fun h => hcounted h.2.2⟩
    · -- the blender does not answer, everything goes back
      refine ⟨fun _ => 0, moved_clocksDisable fun l => ?_, fun _ => le_rfl, ?_, rfl, rfl⟩
      · rw [Nat.zero_add]
        exact moved_disable hraised l
      · exact iff_of_true rfl ⟨fun h => h.2.2 hdead, fun h => hrst h.2.1⟩
    · refine ⟨_, hraised, fun l => ?_, ?_, rfl, rfl⟩
      · rw [Clocks.ones_clocks_reset, Clocks.ones_reset]
        exact Clocks.ones_add_le l
      · rw [Clocks.ones_clocks_reset, Clocks.ones_reset]
        exact iff_of_false (by decide) fun h => h.1 ⟨hclk, not_not.mp hrst, hdead⟩
  · have hclk : ¬ a.ClocksOk d.clocks := fun h => hret (hok.mpr h)
    simp only [if_neg hret] at hmoved
    simp only [pipeEnable]
    rw [if_pos hret]
    exact ⟨fun _ => 0, hmoved, fun _ => le_rfl,
      iff_of_true rfl ⟨fun h => hclk h.1, fun h => hclk h.1⟩, rfl, rfl⟩

/-! ### The whole history -/

/-- The counts `n₀` have gone up, the one of the reset by `n` and the others by at most as much. -/
structure Owes (n₀ : Line → ℕ) (n : ℕ) (d : Device) : Prop where
  reset : (d.lines .reset).count = n₀ .reset + n
  ge : ∀ l, n₀ l ≤ (d.lines l).count
  le : ∀ l, (d.lines l).count ≤ n₀ l + n
  peak : ∀ l, (d.lines l).peak ≤ n₀ l + n + 1
  flag : d.enabled → d.active

def Restored (n₀ : Line → ℕ) (d : Device) : Prop :=
  ∀ l, (d.lines l).count = n₀ l ∧ (d.lines l).peak ≤ n₀ l + 1

variable {n₀ : Line → ℕ} {n : ℕ} {d : Device}

lemma Owes.restored_iff_eq_zero (h : Owes n₀ n d) : Restored n₀ d ↔ n = 0 := by
  constructor
  · intro hr
    have hreset := h.reset
    rw [(hr .reset).1] at hreset
    omega
  · rintro rfl l
    exact ⟨le_antisymm (h.le l) (h.ge l), h.peak l⟩

lemma Owes.drmRemove (h : Owes n₀ n d) : Owes n₀ n d.drmRemove := by
  have hlines : d.drmRemove.lines = d.lines ∧ d.drmRemove.enabled = false := by
    rw [Device.drmRemove]
    cases hactive : d.active with
    | true => exact ⟨rfl, rfl⟩
    | false =>
      have henabled : d.enabled = false := by
        have hflag := h.flag
        rw [hactive] at hflag
        simpa using hflag
      simp [henabled]
  refine ⟨?_, ?_, ?_, ?_, ?_⟩
  · rw [hlines.1]
    exact h.reset
  · rw [hlines.1]
    exact h.ge
  · rw [hlines.1]
    exact h.le
  · rw [hlines.1]
    exact h.peak
  · rw [hlines.2]
    exact fun h => absurd h Bool.false_ne_true

def Device.Op.Clean (c : Clocks) (o : Device.Op) : Prop :=
  ∀ a, o = .enable a → ¬ a.Succeeds c ∧ ¬ a.Strands c

lemma Owes.step (h : Owes n₀ n d) (o : Device.Op) :
    ∃ n', Owes n₀ n' (d.step o) ∧ (n' = 0 ↔ n = 0 ∧ o.Clean d.clocks) ∧
      (d.step o).clocks = d.clocks := by
  cases o with
  | enable a =>
    obtain ⟨k, hmoved, hle, hzero, hclocks, hactive⟩ := d.moved_pipeEnable a
    refine ⟨n + k .reset, ⟨?_, fun l => ?_, fun l => ?_, fun l => ?_, fun _ => hactive⟩, ?_,
      hclocks⟩
    · have hr := (hmoved .reset).1
      have hreset := h.reset
      simp only [Device.step]
      omega
    · have hl := (hmoved l).1
      have hge := h.ge l
      simp only [Device.step]
      omega
    · have hl := (hmoved l).1
      have hk := hle l
      have hn := h.le l
      simp only [Device.step]
      omega
    · have hl := (hmoved l).2
      have hn := h.le l
      have hpeak := h.peak l
      simp only [Device.step]
      omega
    · rw [Nat.add_eq_zero_iff, hzero]
      refine and_congr_right fun _ => ⟨fun hclean a' ha => ?_, fun hclean => hclean a rfl⟩
      cases ha
      exact hclean
  | disable =>
    refine ⟨n, ⟨h.reset, h.ge, h.le, h.peak, fun h => absurd h Bool.false_ne_true⟩, ?_, rfl⟩
    exact (and_iff_left fun a h => by cases h).symm
  | update => exact ⟨n, h, (and_iff_left fun a h => by cases h).symm, rfl⟩

lemma owes_run (c : Clocks) (n₀ : Line → ℕ) (ops : List Device.Op) :
    ∃ n, Owes n₀ n ((Device.probe c n₀).run ops) ∧ (n = 0 ↔ ∀ o ∈ ops, o.Clean c) ∧
      ((Device.probe c n₀).run ops).clocks = c := by
  induction ops using List.reverseRecOn with
  | nil =>
    refine ⟨0, ⟨rfl, fun _ => le_rfl, fun _ => le_rfl, fun l => ?_, fun h => absurd h
      Bool.false_ne_true⟩, iff_of_true rfl fun _ h => absurd h not_mem_nil, rfl⟩
    exact Nat.le_succ (n₀ l)
  | append_singleton ops o ih =>
    obtain ⟨n, howes, hzero, hclocks⟩ := ih
    obtain ⟨n', howes', hzero', hclocks'⟩ := howes.step o
    rw [Device.run, foldl_append]
    refine ⟨n', howes', ?_, hclocks'.trans hclocks⟩
    rw [hzero', hzero, hclocks]
    simp only [mem_append, mem_singleton, or_imp, forall_and, forall_eq]

/-- For every sequence of DRM operations and failures and the removal of the driver, the counts are
as before and were at most one above, exactly if no enable went through and no failed deassert was
counted. -/
theorem counts_restored_iff (c : Clocks) (n₀ : Line → ℕ) (ops : List Device.Op) :
    Restored n₀ ((Device.probe c n₀).run ops).drmRemove ↔
      ∀ a, Device.Op.enable a ∈ ops → ¬ a.Succeeds c ∧ ¬ a.Strands c := by
  obtain ⟨n, howes, hzero, -⟩ := owes_run c n₀ ops
  rw [howes.drmRemove.restored_iff_eq_zero, hzero]
  refine ⟨fun h a ha => h _ ha a rfl, fun h o ho a hoa => ?_⟩
  subst hoa
  exact h a ho

def allOk : Answers := ⟨fun _ => 0, 0, false, 1, 1⟩

/-- After one enable and the removal all clocks and the reset have one use too many, and after a
disable and a second enable two. -/
theorem enable_remove_leaks :
    (((Device.probe ⟨true, true, true, true⟩ fun _ => 0).run [.enable allOk]).drmRemove.lines
      .busDisp).count = 1 ∧
    (((Device.probe ⟨true, true, true, true⟩ fun _ => 0).run
      [.enable allOk, .disable, .enable allOk]).drmRemove.lines .reset).peak = 2 := by
  decide

end Drm
