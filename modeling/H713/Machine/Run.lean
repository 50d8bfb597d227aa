import Mathlib.Data.List.Basic

/-!
# Runs of a machine

A machine is a partial step function, and a run a list of labels. A run is *guarded* by `ok` when
each of its steps meets `ok` in the state it is taken in.
-/

namespace Machine

open List Option

variable {σ ι : Type*}

def run (step : σ → ι → Option σ) : σ → List ι → Option σ
  | s, []      => some s
  | s, a :: as => (step s a).bind fun s' => run step s' as

def Guarded (step : σ → ι → Option σ) (ok : σ → ι → Prop) : σ → List ι → Prop
  | _, []      => True
  | s, a :: as => ok s a ∧ ∀ s', step s a = some s' → Guarded step ok s' as

variable {step : σ → ι → Option σ} {ok : σ → ι → Prop}

@[simp] lemma run_nil (s : σ) : run step s [] = some s := rfl

lemma run_cons (s : σ) (a : ι) (as : List ι) :
    run step s (a :: as) = (step s a).bind fun s' => run step s' as := rfl

lemma run_cons_eq_some {s t : σ} {a : ι} {as : List ι} :
    run step s (a :: as) = some t ↔ ∃ s', step s a = some s' ∧ run step s' as = some t := by
  rw [run_cons, bind_eq_some_iff]

lemma run_append (s : σ) (as bs : List ι) :
    run step s (as ++ bs) = (run step s as).bind fun s' => run step s' bs := by
  induction as generalizing s with
  | nil => rfl
  | cons a as ih =>
    simp only [cons_append, run_cons, bind_assoc]
    congr 1
    funext s'
    exact ih s'

/-! ### Guarded runs -/

lemma Guarded.append_left {s : σ} {as bs : List ι} (h : Guarded step ok s (as ++ bs)) :
    Guarded step ok s as := by
  induction as generalizing s with
  | nil => trivial
  | cons a as ih => exact ⟨h.1, fun s' hs => ih (h.2 s' hs)⟩

lemma Guarded.append_right {s t : σ} {as bs : List ι} (h : Guarded step ok s (as ++ bs))
    (hr : run step s as = some t) : Guarded step ok t bs := by
  induction as generalizing s with
  | nil =>
    cases hr
    exact h
  | cons a as ih =>
    obtain ⟨s', ha, hr'⟩ := run_cons_eq_some.mp hr
    exact ih (h.2 s' ha) hr'

lemma Guarded.append {s : σ} {as bs : List ι} (h : Guarded step ok s as)
    (hbs : ∀ t, run step s as = some t → Guarded step ok t bs) : Guarded step ok s (as ++ bs) := by
  induction as generalizing s with
  | nil => exact hbs s rfl
  | cons a as ih =>
    exact ⟨h.1, fun s' ha => ih (h.2 s' ha) fun t ht => hbs t (run_cons_eq_some.mpr ⟨s', ha, ht⟩)⟩

lemma guarded_of_forall {as : List ι} (h : ∀ a ∈ as, ∀ s, ok s a) (s : σ) :
    Guarded step ok s as := by
  induction as generalizing s with
  | nil => trivial
  | cons a as ih =>
    exact ⟨h a mem_cons_self s,
      fun s' _ => ih (fun b hb => h b (mem_cons_of_mem a hb)) s'⟩

lemma Guarded.and_forall {P : ι → Prop} {s : σ} {as : List ι} (h : Guarded step ok s as)
    (hP : ∀ a ∈ as, P a) : Guarded step (fun s a => ok s a ∧ P a) s as := by
  induction as generalizing s with
  | nil => trivial
  | cons a as ih =>
    exact ⟨⟨h.1, hP a mem_cons_self⟩,
      fun s' ha => ih (h.2 s' ha) fun b hb => hP b (mem_cons_of_mem a hb)⟩

lemma Guarded.last {s t : σ} {as : List ι} {a : ι} (h : Guarded step ok s (as ++ [a]))
    (hr : run step s as = some t) : ok t a := by
  induction as generalizing s with
  | nil =>
    cases hr
    exact h.1
  | cons b as ih =>
    obtain ⟨s', hb, hr'⟩ := run_cons_eq_some.mp hr
    exact ih (h.2 s' hb) hr'

/-- A property that each guarded step keeps holds at the end of every guarded run. -/
theorem Guarded.invariant {I : σ → Prop}
    (hstep : ∀ s a s', I s → ok s a → step s a = some s' → I s') {s t : σ} {as : List ι}
    (hs : I s) (hg : Guarded step ok s as) (hr : run step s as = some t) : I t := by
  induction as generalizing s with
  | nil =>
    cases hr
    exact hs
  | cons a as ih =>
    obtain ⟨s', ha, hr'⟩ := run_cons_eq_some.mp hr
    exact ih (hstep s a s' hs hg.1 ha) (hg.2 s' ha) hr'

/-- When each guarded step is enabled and keeps the invariant, every guarded run goes through to its
end. -/
theorem Guarded.exists_run {I : σ → Prop}
    (hstep : ∀ s a, I s → ok s a → ∃ s', step s a = some s' ∧ I s') {s : σ} {as : List ι}
    (hs : I s) (hg : Guarded step ok s as) : ∃ t, run step s as = some t ∧ I t := by
  induction as generalizing s with
  | nil => exact ⟨s, rfl, hs⟩
  | cons a as ih =>
    obtain ⟨s', ha, hs'⟩ := hstep s a hs hg.1
    obtain ⟨t, ht, hI⟩ := ih hs' (hg.2 s' ha)
    exact ⟨t, run_cons_eq_some.mpr ⟨s', ha, ht⟩, hI⟩

/-- `D n` says that at most `n` steps of one kind are due. When each of these brings the number down
and no other raises it, nothing is due after that many. -/
theorem Guarded.due {I : σ → Prop} {D : ℕ → σ → Prop} {mine : ι → Bool}
    (hstep : ∀ s a s', I s → ok s a → step s a = some s' → I s')
    (hdue : ∀ n s a s', I s → ok s a → step s a = some s' → D n s →
      D (if mine a then n - 1 else n) s')
    {n : ℕ} {s t : σ} {as : List ι} (hs : I s) (hg : Guarded step ok s as)
    (hr : run step s as = some t) (hD : D n s) (hcount : n ≤ as.countP mine) : D 0 t := by
  induction as generalizing n s with
  | nil =>
    cases hr
    rwa [Nat.le_zero.mp hcount] at hD
  | cons a as ih =>
    obtain ⟨s', ha, hr'⟩ := run_cons_eq_some.mp hr
    refine ih (hstep s a s' hs hg.1 ha) (hg.2 s' ha) hr' (hdue n s a s' hs hg.1 ha hD) ?_
    rw [countP_cons] at hcount
    split_ifs at hcount ⊢ <;> omega

lemma guarded_of_invariant {I : σ → Prop}
    (hstep : ∀ s a s', I s → step s a = some s' → I s') (hok : ∀ s a, I s → ok s a) {s : σ}
    (hs : I s) (as : List ι) : Guarded step ok s as := by
  induction as generalizing s with
  | nil => trivial
  | cons a as ih => exact ⟨hok s a hs, fun s' ha => ih (hstep s a s' hs ha)⟩

lemma guarded_true (s : σ) (as : List ι) : Guarded step (fun _ _ => True) s as :=
  guarded_of_invariant (I := fun _ => True) (fun _ _ _ _ _ => trivial) (fun _ _ h => h) trivial as

lemma exists_run (hstep : ∀ s a, ∃ s', step s a = some s') (s : σ) (as : List ι) :
    ∃ t, run step s as = some t := by
  induction as generalizing s with
  | nil => exact ⟨s, rfl⟩
  | cons a as ih =>
    obtain ⟨s', ha⟩ := hstep s a
    obtain ⟨t, ht⟩ := ih s'
    exact ⟨t, run_cons_eq_some.mpr ⟨s', ha, ht⟩⟩

/-! ### Runs that keep their past -/

/-- `step` on a state beside the labels that led to it, for guards that speak of earlier events. -/
def remember (step : σ → ι → Option σ) (s : σ × List ι) (a : ι) : Option (σ × List ι) :=
  (step s.1 a).map (·, s.2 ++ [a])

lemma run_remember (s : σ) (past as : List ι) :
    run (remember step) (s, past) as = (run step s as).map (·, past ++ as) := by
  induction as generalizing s past with
  | nil => simp
  | cons a as ih =>
    rw [run_cons, run_cons, remember]
    cases step s a with
    | none => rfl
    | some s' =>
      rw [map_some, bind_some, ih, bind_some, append_assoc]
      rfl

/-- A property that each step keeps holds at the end of every run. -/
theorem run_invariant {I : σ → Prop} (hstep : ∀ s a s', I s → step s a = some s' → I s')
    {s t : σ} {as : List ι} (hs : I s) (hr : run step s as = some t) : I t :=
  (guarded_true s as).invariant (fun s a s' hI _ ha => hstep s a s' hI ha) hs hr

/-- When the invariant gives `P`, each step that meets `ok` keeps it and each other one leaves `P`,
the runs that stay in `P` are, among those that meet `g`, exactly the ones that meet `ok`. -/
theorem Guarded.iff_always {g : σ → ι → Prop} {I P : σ → Prop} (hP : ∀ s, I s → P s)
    (hok : ∀ s a s', I s → g s a → ok s a → step s a = some s' → I s')
    (hbad : ∀ s a s', I s → g s a → ¬ ok s a → step s a = some s' → ¬ P s') {s t : σ}
    {as : List ι} (hg : Guarded step g s as) (hs : I s) (hr : run step s as = some t) :
    Guarded step ok s as ↔ ∀ bs u, bs <+: as → run step s bs = some u → P u := by
  induction as generalizing s with
  | nil =>
    refine iff_of_true trivial fun bs u hbs hu => ?_
    obtain rfl := prefix_nil.mp hbs
    cases hu
    exact hP s hs
  | cons a as ih =>
    obtain ⟨s', ha, hr'⟩ := run_cons_eq_some.mp hr
    have hnext : ∀ s₁, step s a = some s₁ → s₁ = s' := fun s₁ hb =>
      Option.some.inj (hb.symm.trans ha)
    constructor
    · intro h bs u hbs hu
      cases bs with
      | nil =>
        cases hu
        exact hP s hs
      | cons b bs =>
        obtain ⟨rfl, hpre⟩ := cons_prefix_cons.mp hbs
        obtain ⟨s₁, hb, hu⟩ := run_cons_eq_some.mp hu
        obtain rfl := hnext s₁ hb
        exact (ih (hg.2 _ ha) (hok s b _ hs hg.1 h.1 ha) hr').mp (h.2 _ ha) bs u hpre hu
    · intro h
      have hoka : ok s a := by
        by_contra hno
        exact hbad s a s' hs hg.1 hno ha (h [a] s' ⟨as, rfl⟩ (by rw [run_cons, ha]; rfl))
      refine ⟨hoka, fun s₁ hb => ?_⟩
      obtain rfl := hnext s₁ hb
      refine (ih (hg.2 _ ha) (hok s a _ hs hg.1 hoka ha) hr').mpr fun bs u hbs hu => ?_
      exact h (a :: bs) u ((prefix_cons_inj a).mpr hbs) (run_cons_eq_some.mpr ⟨_, ha, hu⟩)

theorem guarded_iff_always {I P : σ → Prop} (hP : ∀ s, I s → P s)
    (hok : ∀ s a s', I s → ok s a → step s a = some s' → I s')
    (hbad : ∀ s a s', I s → ¬ ok s a → step s a = some s' → ¬ P s') {s t : σ} {as : List ι}
    (hs : I s) (hr : run step s as = some t) :
    Guarded step ok s as ↔ ∀ bs u, bs <+: as → run step s bs = some u → P u :=
  (guarded_true s as).iff_always hP (fun s a s' hI _ => hok s a s' hI)
    (fun s a s' hI _ => hbad s a s' hI) hs hr

/-- When each step keeps the invariant exactly if it meets `ok`, the runs that stay in it are
exactly the guarded ones. -/
theorem guarded_iff_invariant {I : σ → Prop}
    (hstep : ∀ s a s', I s → step s a = some s' → (I s' ↔ ok s a)) {s t : σ} {as : List ι}
    (hs : I s) (hr : run step s as = some t) :
    Guarded step ok s as ↔ ∀ bs u, bs <+: as → run step s bs = some u → I u :=
  guarded_iff_always (fun _ => id) (fun s a s' hI hok ha => (hstep s a s' hI ha).mpr hok)
    (fun s a s' hI hno ha hI' => hno ((hstep s a s' hI ha).mp hI')) hs hr

/-- When each step keeps `I` exactly if it meets `ok`, and `I` is never restored, a run ends in it
exactly if it is guarded. -/
theorem Guarded.iff_end {g : σ → ι → Prop} {I : σ → Prop}
    (hstep : ∀ s a s', g s a → I s → step s a = some s' → (I s' ↔ ok s a))
    (hstay : ∀ s a s', g s a → ¬ I s → step s a = some s' → ¬ I s') {s t : σ} {as : List ι}
    (hg : Guarded step g s as) (hs : I s) (hr : run step s as = some t) :
    Guarded step ok s as ↔ I t := by
  induction as generalizing s with
  | nil =>
    cases hr
    exact iff_of_true trivial hs
  | cons a as ih =>
    obtain ⟨s', ha, hr'⟩ := run_cons_eq_some.mp hr
    have hoka := hstep s a s' hg.1 hs ha
    by_cases hI : I s'
    · rw [← ih (hg.2 s' ha) hI hr']
      refine ⟨fun h => h.2 s' ha, fun h => ⟨hoka.mp hI, fun s₁ hb => ?_⟩⟩
      rwa [Option.some.inj (hb.symm.trans ha)]
    · refine iff_of_false (fun h => hI (hoka.mpr h.1)) ?_
      exact (hg.2 s' ha).invariant (fun s a s' hn hgs => hstay s a s' hgs hn) hI hr'

instance Guarded.decidable [∀ s a, Decidable (ok s a)] :
    ∀ (s : σ) (as : List ι), Decidable (Guarded step ok s as)
  | _, []      => .isTrue trivial
  | s, a :: as =>
    match hs : step s a with
    | none    => decidable_of_iff (ok s a) ⟨fun h => ⟨h, by simp [hs]⟩, fun h => h.1⟩
    | some s' =>
      have := Guarded.decidable s' as
      decidable_of_iff (ok s a ∧ Guarded step ok s' as)
        ⟨fun h => ⟨h.1, fun _ ht => Option.some.inj (hs.symm.trans ht) ▸ h.2⟩,
          fun h => ⟨h.1, h.2 s' hs⟩⟩

/-! ### Refinement -/

/-- When each guarded step of an abstract machine is matched by the same step, so is every guarded
run. `R n` relates the states with `n` steps to go. -/
theorem Guarded.exists_simulation {τ : Type*} {astep : τ → ι → Option τ} {aok : τ → ι → Prop}
    {R : ℕ → τ → σ → Prop}
    (hstep : ∀ n t s a, R (n + 1) t s → aok t a →
      ∃ t' s', astep t a = some t' ∧ step s a = some s' ∧ R n t' s')
    {t : τ} {s : σ} {as : List ι} (hR : R as.length t s) (hg : Guarded astep aok t as) :
    ∃ t' s', run astep t as = some t' ∧ run step s as = some s' ∧ R 0 t' s' := by
  induction as generalizing t s with
  | nil => exact ⟨t, s, rfl, rfl, hR⟩
  | cons a as ih =>
    obtain ⟨t₁, s₁, ht, hs, hR₁⟩ := hstep _ t s a hR hg.1
    obtain ⟨t', s', ht', hs', hR'⟩ := ih hR₁ (hg.2 t₁ ht)
    exact ⟨t', s', run_cons_eq_some.mpr ⟨t₁, ht, ht'⟩, run_cons_eq_some.mpr ⟨s₁, hs, hs'⟩, hR'⟩

end Machine
