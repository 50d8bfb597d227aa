import H713.Tvtop.Basic

/-!
# What a failed enable leaves behind

A submodule that is not enabled should hold nothing, but `sunxi_tvtop_clock_enable` only rolls back
the entries before the one that has failed, and no later step rolls back at all.
-/

namespace Tvtop

open Machine List Option

/-! ### What the flags say is held -/

namespace ClkEntry

def held (e : ClkEntry) (x : ℕ) : ℕ :=
  (if e.clkEnabled ∧ e.clk = some x then 1 else 0)
    + (if e.parentClkEnabled ∧ e.parentClk = some x then 1 else 0)

def Idle (e : ClkEntry) : Prop := e.clkEnabled = false ∧ e.parentClkEnabled = false

def WF (e : ClkEntry) : Prop :=
  (e.clkEnabled → e.clk.isSome) ∧ (e.parentClkEnabled → e.parentClk.isSome)

variable {e : ClkEntry}

lemma Idle.wf (h : e.Idle) : e.WF := by simp [WF, h.1, h.2]

lemma Idle.held (h : e.Idle) (x : ℕ) : e.held x = 0 := by simp [ClkEntry.held, h.1, h.2]

lemma idle_of_held (hw : e.WF) (h : ∀ x, e.held x = 0) : e.Idle := by
  constructor
  · by_contra hc
    obtain ⟨c, hc'⟩ := isSome_iff_exists.mp (hw.1 (by simpa using hc))
    have := h c
    simp [ClkEntry.held, hc', hc] at this
  · by_contra hc
    obtain ⟨c, hc'⟩ := isSome_iff_exists.mp (hw.2 (by simpa using hc))
    have := h c
    simp [ClkEntry.held, hc', hc] at this

end ClkEntry

def heldAll : List ClkEntry → ℕ → ℕ
  | [], _      => 0
  | e :: es, x => e.held x + heldAll es x

@[simp] lemma heldAll_append (es es' : List ClkEntry) (x : ℕ) :
    heldAll (es ++ es') x = heldAll es x + heldAll es' x := by
  induction es with
  | nil => simp [heldAll]
  | cons e es ih => simp only [cons_append, heldAll, ih, Nat.add_assoc]

@[simp] lemma heldAll_reverse (es : List ClkEntry) (x : ℕ) :
    heldAll es.reverse x = heldAll es x := by
  induction es with
  | nil => rfl
  | cons e es ih => simp [heldAll, ih, Nat.add_comm]

lemma heldAll_idle {es : List ClkEntry} (h : ∀ e ∈ es, e.Idle) (x : ℕ) : heldAll es x = 0 := by
  induction es with
  | nil => rfl
  | cons e es ih =>
    rw [heldAll, (h e mem_cons_self).held, ih fun e he => h e (mem_cons_of_mem _ he)]

lemma idle_of_heldAll {es : List ClkEntry} (hw : ∀ e ∈ es, e.WF) (h : ∀ x, heldAll es x = 0) :
    ∀ e ∈ es, e.Idle := by
  induction es with
  | nil => simp
  | cons e es ih =>
    have h' : ∀ x, e.held x = 0 ∧ heldAll es x = 0 := fun x => Nat.add_eq_zero_iff.mp (h x)
    simp only [mem_cons, forall_eq_or_imp] at hw ⊢
    exact ⟨ClkEntry.idle_of_held hw.1 fun x => (h' x).1, ih hw.2 fun x => (h' x).2⟩

/-! ### Releasing -/

lemma ClkEntry.release_idle {e : ClkEntry} (hw : e.WF) (f : ℕ → ℕ) : (e.release f).1.Idle := by
  obtain ⟨clk, rate, parent, b, b'⟩ := e
  obtain ⟨hb, hb'⟩ := hw
  cases clk <;> cases parent <;> cases b <;> cases b' <;> simp_all [release, Idle]

lemma ClkEntry.release_clk (e : ClkEntry) (f : ℕ → ℕ) (x : ℕ) :
    (e.release f).2 x = f x - e.held x := by
  obtain ⟨clk, rate, parent, b, b'⟩ := e
  cases clk <;> cases parent <;> cases b <;> cases b' <;>
    simp [release, held, dec_apply, Nat.sub_sub]

lemma releaseAll_idle {es : List ClkEntry} (hw : ∀ e ∈ es, e.WF) (f : ℕ → ℕ) :
    ∀ e ∈ (releaseAll es f).1, e.Idle := by
  induction es generalizing f with
  | nil => simp [releaseAll]
  | cons e es ih =>
    simp only [mem_cons, forall_eq_or_imp, releaseAll] at hw ⊢
    exact ⟨ClkEntry.release_idle hw.1 f, ih hw.2 _⟩

lemma releaseAll_clk (es : List ClkEntry) (f : ℕ → ℕ) (x : ℕ) :
    (releaseAll es f).2 x = f x - heldAll es x := by
  induction es generalizing f with
  | nil => rfl
  | cons e es ih =>
    rw [releaseAll, heldAll]
    simp only [ih, ClkEntry.release_clk, Nat.sub_sub]

/-! ### The clock list -/

/-- The step of an entry that fails. -/
inductive ClkFailure where
  | own
  | parent
  deriving DecidableEq

def ClkEntry.failure (e : ClkEntry) (a : EntryAnswer) : Option ClkFailure :=
  if e.clk = none then none
  else if a.clk ≠ 0 then some .own
  else if e.parentRate ≠ 0 ∧ a.parent ≠ none ∧ a.parentClk ≠ 0 then some .parent
  else none

def clkFailure : List ClkEntry → List EntryAnswer → Option ClkFailure
  | [], _       => none
  | e :: es, as => (e.failure (as.headD ⟨0, none, 0⟩)).or (clkFailure es as.tail)

def ClkOutcome (noClk : Prop) (err : ℕ) (es : List ClkEntry) : Option ClkFailure → Prop
  | none         => err = 0 ∧ ((∀ x, heldAll es x = 0) ↔ noClk)
  | some .own    => err ≠ 0 ∧ ∀ x, heldAll es x = 0
  | some .parent => err ≠ 0 ∧ ¬ ∀ x, heldAll es x = 0

namespace ClkOutcome

variable {noClk noClk' : Prop} {err : ℕ} {es : List ClkEntry}

lemma congr {o : Option ClkFailure} (h : ClkOutcome noClk err es o) (hn : noClk ↔ noClk') :
    ClkOutcome noClk' err es o := by
  rwa [← propext hn]

lemma err_ne {fl : ClkFailure} (h : ClkOutcome noClk err es (some fl)) : err ≠ 0 := by
  cases fl <;> exact h.1

lemma of_some {fl : ClkFailure} {e : ClkEntry} (h : ClkOutcome noClk err [e] (some fl))
    (hes : ∀ x, heldAll es x = e.held x) : ClkOutcome noClk' err es (some fl) := by
  cases fl <;> simpa [ClkOutcome, heldAll, hes] using h

end ClkOutcome

lemma ClkEntry.enable_spec {e : ClkEntry} (h : e.Idle) (a : EntryAnswer) (f : ℕ → ℕ) :
    (e.enable a f).2.1.WF ∧ (∀ x, (e.enable a f).2.2 x = f x + (e.enable a f).2.1.held x) ∧
      ClkOutcome (e.clk = none) (e.enable a f).1 [(e.enable a f).2.1] (e.failure a) := by
  obtain ⟨clk, rate, parent, b, b'⟩ := e
  obtain ⟨rfl, rfl⟩ : b = false ∧ b' = false := h
  cases clk with
  | none =>
    by_cases hr : rate = 0 <;>
      simp [enable, enableOwn, enableParent, failure, ClkOutcome, WF, heldAll, held, hr]
  | some c =>
    by_cases hc : a.clk = 0
    swap
    · simp [enable, enableOwn, failure, ClkOutcome, WF, heldAll, held, hc]
    by_cases hr : rate = 0
    · simp [enable, enableOwn, enableParent, failure, ClkOutcome, WF, heldAll, held,
        inc_apply, hc, hr]
    cases hp : a.parent with
    | none =>
      simp [enable, enableOwn, enableParent, failure, ClkOutcome, WF, heldAll, held,
        inc_apply, hc, hr, hp]
    | some p =>
      by_cases hq : a.parentClk = 0
      · have hen : enable ⟨some c, rate, parent, false, false⟩ a f
            = (0, ⟨some c, rate, some p, true, true⟩, inc (inc f c) p) := by
          simp [enable, enableOwn, enableParent, hc, hr, hp, hq]
        have hfail : failure ⟨some c, rate, parent, false, false⟩ a = none := by
          simp [failure, hc, hq]
        -- the clock itself is held
        have hheld : ∃ x, heldAll [⟨some c, rate, some p, true, true⟩] x ≠ 0 :=
          ⟨c, by simp [heldAll, held]⟩
        rw [hen, hfail]
        exact ⟨by simp [WF], fun x => by simp [inc_apply, held, Nat.add_assoc], rfl,
          by simpa using hheld⟩
      · simp [enable, enableOwn, enableParent, failure, ClkOutcome, WF, heldAll, held,
          inc_apply, hc, hr, hp, hq]

lemma sunxiTvtopClockEnable_spec {base : ℕ → ℕ} {done es : List ClkEntry} {f : ℕ → ℕ}
    (hd : ∀ e ∈ done, e.WF) (he : ∀ e ∈ es, e.Idle) (hf : ∀ x, f x = base x + heldAll done x)
    (as : List EntryAnswer) :
    (∀ e ∈ (sunxiTvtopClockEnable done es as f).2.1, e.WF) ∧
      (∀ x, (sunxiTvtopClockEnable done es as f).2.2 x
        = base x + heldAll (sunxiTvtopClockEnable done es as f).2.1 x) ∧
      ClkOutcome ((∀ x, heldAll done x = 0) ∧ ∀ e ∈ es, e.clk = none)
        (sunxiTvtopClockEnable done es as f).1 (sunxiTvtopClockEnable done es as f).2.1
        (clkFailure es as) := by
  induction es generalizing done f as with
  | nil =>
    refine ⟨by simpa [sunxiTvtopClockEnable] using hd,
      by simpa [sunxiTvtopClockEnable] using hf, ?_⟩
    simp [sunxiTvtopClockEnable, clkFailure, ClkOutcome]
  | cons e es ih =>
    simp only [mem_cons, forall_eq_or_imp] at he
    obtain ⟨hw, hclk, hout⟩ := ClkEntry.enable_spec he.1 (as.headD ⟨0, none, 0⟩) f
    rw [sunxiTvtopClockEnable, clkFailure]
    generalize e.enable (as.headD ⟨0, none, 0⟩) f = r at hw hclk hout ⊢
    obtain ⟨err, e', f'⟩ := r
    dsimp only at hw hclk hout ⊢
    cases hfail : e.failure (as.headD ⟨0, none, 0⟩) with
    | none =>
      rw [hfail] at hout
      obtain ⟨rfl, hnone⟩ := hout
      have hd' : ∀ d ∈ e' :: done, d.WF := by simpa using ⟨hw, hd⟩
      have hf' : ∀ x, f' x = base x + heldAll (e' :: done) x := by
        intro x
        rw [hclk, hf, heldAll]
        omega
      obtain ⟨hw', hclk', hout'⟩ := ih hd' he.2 hf' as.tail
      refine ⟨hw', hclk', hout'.congr ?_⟩
      simp only [heldAll, Nat.add_eq_zero_iff, forall_and, mem_cons, forall_eq_or_imp,
        Nat.add_zero] at hnone ⊢
      rw [hnone]
      tauto
    | some fl =>
      rw [hfail] at hout
      have herr : err ≠ 0 := hout.err_ne
      rw [if_neg herr, some_or]
      -- after the rollback only the failed entry can hold something
      have hheld : ∀ x, heldAll ((releaseAll done f').1.reverse ++ e' :: es) x = e'.held x := by
        intro x
        rw [heldAll_append, heldAll_reverse, heldAll_idle (releaseAll_idle hd f'), heldAll,
          heldAll_idle he.2]
        omega
      refine ⟨?_, ?_, ?_⟩
      · simp only [mem_append, mem_reverse, mem_cons]
        rintro d (hd' | rfl | hd')
        · exact (releaseAll_idle hd f' d hd').wf
        · exact hw
        · exact (he.2 d hd').wf
      · intro x
        rw [hheld, releaseAll_clk, hclk, hf]
        omega
      · exact hout.of_some hheld

/-! ### The steps of an enable -/

def Submodule.held {k : Kind} (s : Submodule k) (x : ℕ) : ℕ :=
  heldAll s.entries x + if s.busClkEnabled ∧ s.busClk = some x then 1 else 0

def Submodule.Idle {k : Kind} (s : Submodule k) : Prop := (∀ e ∈ s.entries, e.Idle) ∧
    s.busClkEnabled = false

lemma Submodule.Idle.held {k : Kind} {s : Submodule k} (h : s.Idle) (x : ℕ) : s.held x = 0 := by
  simp [Submodule.held, heldAll_idle h.1, h.2]

namespace Power

variable {k : Kind}

/-- The clocks are counted as the flags say, which are only set for clocks that there are. -/
structure Sound (base : Counts) (p : Power k) : Prop where
  wf : ∀ e ∈ p.sub.entries, e.WF
  bus : p.sub.busClkEnabled → p.sub.busClk.isSome
  clk : ∀ x, p.counts.clk x = base.clk x + p.sub.held x

variable {base : Counts} {p : Power k}

lemma Sound.idle (h : Sound base p) (hheld : ∀ x, p.sub.held x = 0) : p.sub.Idle := by
  have hsum : ∀ x, heldAll p.sub.entries x = 0 ∧
      (if p.sub.busClkEnabled ∧ p.sub.busClk = some x then 1 else 0) = 0 :=
    fun x => Nat.add_eq_zero_iff.mp (hheld x)
  refine ⟨idle_of_heldAll h.wf fun x => (hsum x).1, ?_⟩
  by_contra hb
  have hb' : p.sub.busClkEnabled = true := by simpa using hb
  obtain ⟨c, hc⟩ := isSome_iff_exists.mp (h.bus hb')
  simpa [hb', hc] using (hsum c).2

lemma Sound.clk_eq_iff (h : Sound base p) :
    p.counts.clk = base.clk ↔ ∀ x, p.sub.held x = 0 := by
  rw [funext_iff]
  refine forall_congr' fun x => ?_
  rw [h.clk x]
  omega

lemma Sound.counts_eq_iff (h : Sound base p) :
    p.counts = base ↔ (∀ x, p.sub.held x = 0) ∧ p.counts.reset = base.reset ∧
      p.counts.pm = base.pm := by
  rw [Counts.ext_iff, h.clk_eq_iff]

lemma Sound.with_counts (h : Sound base p) (reset pm : ℕ) (b : Bool) :
    Sound base ⟨{ p.sub with enabled := b }, { p.counts with reset := reset, pm := pm }⟩ :=
  ⟨h.wf, h.bus, h.clk⟩

/-- The first step of an enable that fails. -/
inductive Failure where
  | clk (fl : ClkFailure)
  | bus
  | reset
  | pm

def failure (s : Submodule k) (a : Answers) : Option Failure :=
  match clkFailure s.entries a.entries with
  | some fl => some (.clk fl)
  | none    =>
    if s.busClk.isSome ∧ a.bus ≠ 0 then some .bus
    else if s.rst ∧ a.reset ≠ 0 then some .reset
    else if s.pmDev ∧ a.pm ≠ 0 then some .pm
    else none

def Harmless (p : Power k) (a : Answers) : Failure → Prop
  | .clk .own    => True
  | .clk .parent => False
  | .bus         => ∀ e ∈ p.sub.entries, e.clk = none
  | .reset       => (∀ e ∈ p.sub.entries, e.clk = none) ∧ p.sub.busClk = none ∧
      a.resetCounted = false
  | .pm          => (∀ e ∈ p.sub.entries, e.clk = none) ∧ p.sub.busClk = none ∧ p.sub.rst = false ∧
      p.counts.pm = 0

/-- Two states that differ in the clocks only. -/
structure SameRest (p q : Power k) : Prop where
  resources : q.sub.toResources = p.sub.toResources
  enabled : q.sub.enabled = p.sub.enabled
  reset : q.counts.reset = p.counts.reset
  pm : q.counts.pm = p.counts.pm

lemma SameRest.trans {p q r : Power k} (h : SameRest p q) (h' : SameRest q r) : SameRest p r where
  resources := h'.resources.trans h.resources
  enabled := h'.enabled.trans h.enabled
  reset := h'.reset.trans h.reset
  pm := h'.pm.trans h.pm

lemma clockEnable_spec (hs : Sound base p) (hi : p.sub.Idle) (a : Answers) :
    ∃ err q, p.clockEnable a = (err, q) ∧ SameRest p q ∧ q.sub.busClkEnabled = false ∧
      Sound base q ∧ ClkOutcome (∀ e ∈ p.sub.entries, e.clk = none) err q.sub.entries
        (clkFailure p.sub.entries a.entries) := by
  have hf : ∀ x, p.counts.clk x = base.clk x + heldAll [] x := by
    intro x
    rw [hs.clk, hi.held, heldAll]
  obtain ⟨hw, hclk, hout⟩ := sunxiTvtopClockEnable_spec (by simp) hi.1 hf a.entries
  refine ⟨_, _, rfl, ⟨rfl, rfl, rfl, rfl⟩, hi.2, ⟨hw, hs.bus, ?_⟩, hout.congr (by simp [heldAll])⟩
  intro x
  simp only [Submodule.held, hi.2, hclk]
  simp

lemma busEnable_spec (hs : Sound base p) (hb : p.sub.busClkEnabled = false) (a : Answers) :
    if p.sub.busClk.isSome ∧ a.bus ≠ 0 then p.busEnable a = (a.bus, p)
    else ∃ q, p.busEnable a = (0, q) ∧ SameRest p q ∧ Sound base q ∧
      ((∀ x, q.sub.held x = 0) ↔ (∀ x, heldAll p.sub.entries x = 0) ∧ p.sub.busClk = none) := by
  cases hc : p.sub.busClk with
  | none =>
    have he : p.busEnable a = (0, p) := by simp [busEnable, hc]
    exact ⟨p, he, ⟨rfl, rfl, rfl, rfl⟩, hs, by simp [Submodule.held, hc]⟩
  | some c =>
    by_cases ha : a.bus = 0
    swap
    · simp [busEnable, hc, hb, ha]
    have he : p.busEnable a
        = (0, ⟨{ p.sub with busClkEnabled := true },
            { p.counts with clk := inc p.counts.clk c }⟩) := by
      simp [busEnable, hc, hb, ha]
    rw [if_neg (by simp [ha])]
    refine ⟨_, he, ⟨rfl, rfl, rfl, rfl⟩, ⟨hs.wf, fun _ => by simp [hc], fun x => ?_⟩, ?_⟩
    · simp [inc_apply, hs.clk, Submodule.held, hb, hc, Nat.add_assoc]
    · -- the bus clock is held now
      refine ⟨fun h => absurd (h c) ?_, fun h => absurd h.2 (by simp)⟩
      simp [Submodule.held, hc]

lemma resetDeassert_of_fail {a : Answers} (h : p.sub.rst ∧ a.reset ≠ 0) :
    p.resetDeassert a = (a.reset,
      { p with counts := { p.counts with reset := p.counts.reset + a.resetCounted.toNat } }) := by
  cases hc : a.resetCounted <;> simp [resetDeassert, h.1, h.2, hc]

lemma resetDeassert_of_ok {a : Answers} (h : ¬ (p.sub.rst ∧ a.reset ≠ 0)) :
    ∃ q, p.resetDeassert a = (0, q) ∧ q.sub = p.sub ∧
      q.counts = { p.counts with reset := p.counts.reset + p.sub.rst.toNat } := by
  cases hr : p.sub.rst
  · exact ⟨p, by simp [resetDeassert, hr], rfl, rfl⟩
  · have ha : a.reset = 0 := by simpa [hr] using h
    exact ⟨{ p with counts := { p.counts with reset := p.counts.reset + 1 } },
      by simp [resetDeassert, hr, ha], rfl, rfl⟩

lemma pmDomainEnable_of_fail {a : Answers} (h : p.sub.pmDev ∧ a.pm ≠ 0) :
    p.tvtopPmDomainEnable a = (a.pm,
      { p with counts := { p.counts with pm := p.counts.pm - 1 } }) := by
  simp [tvtopPmDomainEnable, h.1, h.2]

lemma pmStep_of_ok {a : Answers} (h : ¬ (p.sub.pmDev ∧ a.pm ≠ 0)) {pm : Bool}
    (hpm : p.sub.pmDev → pm) :
    (if pm then p.tvtopPmDomainEnable a else (0, p)) = (0,
      { p with counts := { p.counts with pm := p.counts.pm + p.sub.pmDev.toNat } }) := by
  cases hd : p.sub.pmDev
  · cases pm <;> simp [tvtopPmDomainEnable, hd]
  · have ha : a.pm = 0 := by simpa [hd] using h
    simp [tvtopPmDomainEnable, hd, hpm hd, ha]

/-! ### The invariant -/

/-- The counts are one more than at first for each thing the submodule holds; a submodule that is
not enabled holds nothing. -/
structure Inv (base : Counts) (p : Power k) : Prop where
  sound : Sound base p
  idle : p.sub.enabled = false → p.sub.Idle
  reset : p.counts.reset = base.reset + (p.sub.enabled && p.sub.rst).toNat
  pm : p.counts.pm = base.pm + (p.sub.enabled && p.sub.pmDev).toNat

def Restored (base : Counts) (p : Power k) : Prop := p.sub.enabled = false → p.counts = base

lemma Inv.restored (h : Inv base p) : Restored base p := by
  intro he
  ext1
  · exact h.sound.clk_eq_iff.mpr (h.idle he).held
  · simpa [he] using h.reset
  · simpa [he] using h.pm

lemma Sound.inv (h : Sound base p) (he : p.sub.enabled = false) (hc : p.counts = base) :
    Inv base p where
  sound := h
  idle _ := h.idle (h.clk_eq_iff.mp (congrArg Counts.clk hc))
  reset := by simp [he, hc]
  pm := by simp [he, hc]

def EnableOutcome (base : Counts) (harmless : Failure → Prop) (r : ℕ × Power k) :
    Option Failure → Prop
  | none    => r.1 = 0 ∧ r.2.sub.enabled = true ∧ Inv base r.2
  | some fl => r.1 ≠ 0 ∧ r.2.sub.enabled = false ∧ Sound base r.2 ∧ (r.2.counts = base ↔
      harmless fl)

lemma resetPm_outcome {noClk : Prop} (hs : Sound base p) (hfree : (∀ x, p.sub.held x = 0) ↔ noClk)
    (he : p.sub.enabled = false) (hreset : p.counts.reset = base.reset)
    (hpmc : p.counts.pm = base.pm) {pm : Bool} (hpm : p.sub.pmDev → pm) (a : Answers)
    {harmless : Failure → Prop} (hr : harmless .reset ↔ noClk ∧ a.resetCounted = false)
    (hp : harmless .pm ↔ noClk ∧ p.sub.rst = false ∧ p.counts.pm = 0) :
    EnableOutcome base harmless
      (andThen (p.resetDeassert a) fun p =>
        andThen (if pm then p.tvtopPmDomainEnable a else (0, p)) fun p =>
        (0, { p with sub := { p.sub with enabled := true } }))
      (if p.sub.rst ∧ a.reset ≠ 0 then some .reset
        else if p.sub.pmDev ∧ a.pm ≠ 0 then some .pm else none) := by
  by_cases hrf : p.sub.rst ∧ a.reset ≠ 0
  · rw [if_pos hrf, resetDeassert_of_fail hrf, andThen_of_ne hrf.2]
    have hs' := hs.with_counts (p.counts.reset + a.resetCounted.toNat) p.counts.pm p.sub.enabled
    refine ⟨hrf.2, he, hs', ?_⟩
    rw [hs'.counts_eq_iff, hr, ← hfree, ← hreset, ← hpmc]
    simp [Submodule.held]
  obtain ⟨q, hq, hqs, hqc⟩ := resetDeassert_of_ok hrf
  rw [if_neg hrf, hq, andThen_zero, ← hqs]
  have hsq : Sound base q := ⟨by rw [hqs]; exact hs.wf, by rw [hqs]; exact hs.bus,
    fun x => by rw [hqs, hqc]; exact hs.clk x⟩
  have hqr : q.counts.reset = base.reset + p.sub.rst.toNat := by rw [hqc, hreset]
  have hqp : q.counts.pm = base.pm := by rw [hqc, hpmc]
  rw [← hqs] at hfree hpm he
  by_cases hpf : q.sub.pmDev ∧ a.pm ≠ 0
  · rw [if_pos hpf, if_pos (hpm hpf.1), pmDomainEnable_of_fail hpf, andThen_of_ne hpf.2]
    have hs' := hsq.with_counts q.counts.reset (q.counts.pm - 1) q.sub.enabled
    refine ⟨hpf.2, he, hs', ?_⟩
    rw [hs'.counts_eq_iff, hp, ← hfree, hpmc]
    simp only [Submodule.held, Nat.add_eq_zero_iff, ite_eq_right_iff, Nat.succ_ne_self, imp_false,
      not_and, hqr, Nat.add_eq_left, Bool.toNat_eq_zero, hqp, and_congr_right_iff]
    omega
  · rw [if_neg hpf, pmStep_of_ok hpf hpm, andThen_zero]
    refine ⟨rfl, rfl, hsq.with_counts _ _ _, by simp, ?_, ?_⟩
    · simp [hqr, hqs]
    · simp [hqp]

lemma enableSteps_outcome (h : Inv base p) (he : p.sub.enabled = false) {pm : Bool}
    (hpm : p.sub.pmDev → pm) (a : Answers) :
    EnableOutcome base (p.Harmless a) (p.enableSteps pm a) (failure p.sub a) := by
  have hreset : p.counts.reset = base.reset := congrArg Counts.reset (h.restored he)
  have hpmc : p.counts.pm = base.pm := congrArg Counts.pm (h.restored he)
  obtain ⟨err, q, hclk, hpq, hb, hs, hout⟩ := clockEnable_spec h.sound (h.idle he) a
  have hqr : q.counts.reset = base.reset := hpq.reset.trans hreset
  have hqp : q.counts.pm = base.pm := hpq.pm.trans hpmc
  have hqe : q.sub.enabled = false := hpq.enabled.trans he
  rw [enableSteps, if_neg (by simp [he]), hclk, failure]
  cases hfail : clkFailure p.sub.entries a.entries with
  | some fl =>
    rw [hfail] at hout
    rw [andThen_of_ne hout.err_ne]
    refine ⟨hout.err_ne, hqe, hs, ?_⟩
    rw [hs.counts_eq_iff]
    cases fl <;> simpa [Harmless, Submodule.held, hb, hqr, hqp] using hout.2
  | none =>
    rw [hfail] at hout
    obtain ⟨rfl, hfree⟩ := hout
    have hbus := busEnable_spec hs hb a
    rw [hpq.resources] at hbus
    rw [andThen_zero]
    split_ifs at hbus with hbf
    · rw [hbus, andThen_of_ne hbf.2, if_pos hbf]
      refine ⟨hbf.2, hqe, hs, ?_⟩
      rw [hs.counts_eq_iff]
      simp [Harmless, Submodule.held, hb, hqr, hqp, hfree]
    · obtain ⟨r, hbr, hqr', hs', hfree'⟩ := hbus
      have hpr := hpq.trans hqr'
      rw [hfree] at hfree'
      rw [if_neg hbf, hbr, andThen_zero, ← hpr.resources]
      refine resetPm_outcome hs' hfree' (hpr.enabled.trans he) (hpr.reset.trans hreset)
        (hpr.pm.trans hpmc) (by rwa [hpr.resources]) a ?_ ?_
      · simp [Harmless, and_assoc]
      · simp [Harmless, and_assoc, hpr.resources, hpr.pm]

lemma enableFn_outcome (h : Inv base p) (he : p.sub.enabled = false) (a : Answers) :
    EnableOutcome base (p.Harmless a) (p.enableFn a) (failure p.sub a) := by
  rw [enableFn_eq]
  refine enableSteps_outcome h he (fun hd => ?_) a
  rw [decide_eq_true_eq]
  intro hk
  simp [p.sub.pmDev_tvdisp hk] at hd

lemma enableFn_of_enabled (he : p.sub.enabled = true) (a : Answers) : p.enableFn a = (0, p) := by
  rw [enableFn_eq]
  exact if_pos he

lemma busRelease_clk (s : Submodule k) (f : ℕ → ℕ) (x : ℕ) :
    (busRelease s f).2 x = f x - if s.busClkEnabled ∧ s.busClk = some x then 1 else 0 := by
  cases hc : s.busClk <;> cases hb : s.busClkEnabled <;> simp [busRelease, hc, hb, dec_apply]

lemma busRelease_flag {s : Submodule k} (h : s.busClkEnabled → s.busClk.isSome) (f : ℕ → ℕ) :
    (busRelease s f).1 = false := by
  cases hc : s.busClk <;> cases hb : s.busClkEnabled <;> simp_all [busRelease]

lemma disable_inv (h : Inv base p) : Inv base p.tvtopSubmoduleDisable := by
  cases he : p.sub.enabled
  · simpa [tvtopSubmoduleDisable, he] using h
  have hidle := releaseAll_idle h.sound.wf p.counts.clk
  have hflag := busRelease_flag h.sound.bus (releaseAll p.sub.entries p.counts.clk).2
  have hreset := h.reset
  have hpm := h.pm
  rw [he, Bool.true_and] at hreset hpm
  rw [tvtopSubmoduleDisable, if_neg (by simp [he])]
  refine ⟨⟨fun e he => (hidle e he).wf, by simp [hflag], fun x => ?_⟩, fun _ => ⟨hidle,
    hflag⟩, ?_, ?_⟩
  · have hclk := h.sound.clk x
    rw [Submodule.held] at hclk
    rw [Submodule.Idle.held ⟨hidle, hflag⟩]
    dsimp only
    rw [busRelease_clk, releaseAll_clk]
    omega
  · cases hr : p.sub.rst <;> simp [hr] at hreset ⊢ <;> omega
  · cases hd : p.sub.pmDev <;> simp [hd] at hpm ⊢ <;> omega

lemma disable_enabled (p : Power k) : p.tvtopSubmoduleDisable.sub.enabled = false := by
  cases he : p.sub.enabled <;> simp [tvtopSubmoduleDisable, he]

/-! ### Runs -/

inductive Event where
  | enable (a : Answers)
  | disable

def call (p : Power k) : Event → Power k
  | .enable a => (p.enableFn a).2
  | .disable  => p.tvtopSubmoduleDisable

def step (p : Power k) (ev : Event) : Option (Power k) := some (p.call ev)

def Ok (p : Power k) : Event → Prop
  | .enable a => p.sub.enabled = false → ∀ fl ∈ failure p.sub a, p.Harmless a fl
  | .disable  => True

def start (r : Resources k) (clks : List (Option ℕ × ℕ)) (base : Counts) : Power k :=
  ⟨sunxiTvtopProbe r clks, base⟩

lemma start_inv (r : Resources k) (clks : List (Option ℕ × ℕ)) (base : Counts) :
    Inv base (start r clks base) := by
  have hidle : ∀ e ∈ (sunxiTvtopProbe r clks).entries, e.Idle := by
    intro e he
    obtain ⟨c, -, rfl⟩ := mem_map.mp he
    exact ⟨rfl, rfl⟩
  have hi : (sunxiTvtopProbe r clks).Idle := ⟨hidle, rfl⟩
  refine Sound.inv ⟨fun e he => (hidle e he).wf, by simp [start, sunxiTvtopProbe], fun x =>
    ?_⟩ rfl rfl
  rw [start, hi.held]
  rfl

lemma step_inv (h : Inv base p) {ev : Event} {q : Power k} (hok : Ok p ev)
    (hq : step p ev = some q) :
    Inv base q := by
  cases ev with
  | disable =>
    cases hq
    exact disable_inv h
  | enable a =>
    cases hq
    cases he : p.sub.enabled with
    | true =>
      rw [call, enableFn_of_enabled he]
      exact h
    | false =>
      have hout := enableFn_outcome h he a
      cases hfail : failure p.sub a with
      | none =>
        rw [hfail] at hout
        exact hout.2.2
      | some fl =>
        rw [hfail] at hout
        exact hout.2.2.1.inv hout.2.1 (hout.2.2.2.mpr (hok he fl hfail))

lemma step_not_restored (h : Inv base p) {ev : Event} {q : Power k} (hok : ¬ Ok p ev)
    (hq : step p ev = some q) : ¬ Restored base q := by
  cases ev with
  | disable => exact absurd trivial hok
  | enable a =>
    cases hq
    simp only [Ok, not_forall] at hok
    obtain ⟨he, fl, hfail, hharm⟩ := hok
    have hout := enableFn_outcome h he a
    rw [hfail] at hout
    exact fun hr => hharm (hout.2.2.2.mp (hr hout.2.1))

/-- The counts are restored whenever the submodule is not enabled, in exactly the runs in which
every failure leaves nothing behind. -/
theorem restored_iff (r : Resources k) (clks : List (Option ℕ × ℕ)) (base : Counts)
    (evs : List Event) :
    (∀ bs q, bs <+: evs → run step (start r clks base) bs = some q → Restored base q) ↔
      Guarded step Ok (start r clks base) evs := by
  obtain ⟨t, ht⟩ := exists_run (fun p ev => ⟨p.call ev, rfl⟩) (start r clks base) evs
  exact (guarded_iff_always (fun _ => Inv.restored) (fun _ _ _ h => step_inv h)
    (fun _ _ _ h => step_not_restored h) (start_inv r clks base) ht).symm

/-- A clock of tvcap stays enabled when its parent fails with `-EIO`, and the submodule is not
enabled. -/
theorem parent_failure_leaves_clk :
    (run step (start (k := .tvcap) ⟨some 3, true, true, fun h => Kind.noConfusion h⟩ [(some 1, 600)]
        ⟨fun _ => 0, 0, 0⟩)
      [.enable ⟨[⟨0, some 2, 5⟩], 0, 0, false, 0⟩]).map (fun q => (q.sub.enabled, q.counts.clk 1))
      = some (false, 1) := by
  decide

end Power

end Tvtop
