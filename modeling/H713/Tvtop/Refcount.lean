import H713.Tvtop.Resources
import H713.Machine.Word

/-!
# Users of the submodules

`sunxi_tvtop_clk_get` counts a user before it enables the submodule and does not take the count back
when that fails. Beside the driver there is a ledger of the gets that have returned 0 and have not
been put.
-/

namespace Tvtop

open Machine Function

/-- The `refcount` fields, of type `int`, and the submodules. -/
structure Device where
  power : ∀ k, Power k
  refcount : Kind → ℤ

namespace Device

def countUp (n : ℤ) : ℤ := i32 (ofInt32 (n + 1))

variable (d : Device) (k : Kind)

def take (a : Answers) : ℕ × Device :=
  let d := { d with refcount := Function.update d.refcount k (countUp (d.refcount k)) }
  if d.refcount k = 1 then
    let r := (d.power k).enableFn a
    (r.1, { d with power := Function.update d.power k r.2 })
  else (0, d)

def sunxiTvtopClkGet (a : Kind → Answers) : ℕ × Device :=
  let r := d.take k (a k)
  if k = .tvdisp ∧ r.2.refcount k = 1 then
    let r' := r.2.take .tvcap (a .tvcap)
    (if r.1 = 0 then r'.1 else r.1, r'.2)
  else r

def drop : ℕ × Device :=
  if d.refcount k = 0 then (1, d)
  else
    let d := { d with refcount := Function.update d.refcount k (d.refcount k - 1) }
    if d.refcount k = 0 then
      (0, { d with power := Function.update d.power k (d.power k).tvtopSubmoduleDisable })
    else (0, d)

def sunxiTvtopClkPut : ℕ × Device :=
  let r := d.drop k
  if k = .tvdisp ∧ r.1 = 0 ∧ r.2.refcount k = 0 then (0, (r.2.drop .tvcap).2) else r

end Device

/-- The driver and, for each submodule, how many gets have returned 0 and have not been put. -/
structure Users where
  dev : Device
  held : Kind → ℕ

namespace Users

inductive Event where
  | get (k : Kind) (a : Kind → Answers)
  | put (k : Kind)

variable (s : Users)

def call : Event → Users
  | .get k a =>
    let r := s.dev.sunxiTvtopClkGet k a
    ⟨r.2, if r.1 = 0 then Function.update s.held k (s.held k + 1) else s.held⟩
  | .put k   =>
    let r := s.dev.sunxiTvtopClkPut k
    ⟨r.2, if r.1 = 0 then Function.update s.held k (s.held k - 1) else s.held⟩

def step (ev : Event) : Option Users := some (s.call ev)

def Counted : Prop :=
  ∀ k, s.dev.refcount k
    = s.held k + if k = .tvcap ∧ 0 < s.dev.refcount .tvdisp then 1 else 0

def Served (k : Kind) (a : Kind → Answers) : Prop :=
  (s.dev.sunxiTvtopClkGet k a).1 = 0 →
    ((s.dev.sunxiTvtopClkGet k a).2.power k).sub.enabled = true ∧
      (k = .tvdisp → ((s.dev.sunxiTvtopClkGet k a).2.power .tvcap).sub.enabled = true)

def Takes (d : Device) (k : Kind) (a : Answers) : Prop :=
  d.refcount k ≠ 2147483647 ∧ (d.refcount k = 0 → Power.failure (d.power k).sub a = none)

def Ok : Event → Prop
  | .get k a => Takes s.dev k (a k) ∧
      (k = .tvdisp → s.dev.refcount .tvdisp = 0 → Takes s.dev .tvcap (a .tvcap))
  | .put k   => k = .tvcap → s.held .tvcap = 0 → s.dev.refcount .tvcap = 0

def start (r : ∀ k, Resources k) (clks : Kind → List (Option ℕ × ℕ)) (base : Kind → Counts) :
    Users :=
  ⟨⟨fun k => Power.start (r k) (clks k) (base k), fun _ => 0⟩, fun _ => 0⟩

/-! ### One submodule -/

end Users

namespace Device

lemma countUp_of_lt {n : ℤ} (h : 0 ≤ n) (h' : n < 2147483647) : countUp n = n + 1 := by
  simp only [countUp, i32, ofInt32, u32]
  omega

lemma countUp_max : countUp 2147483647 = -2147483648 := by decide

lemma countUp_eq_one {n : ℤ} (h : 0 ≤ n) (h' : n ≤ 2147483647) : countUp n = 1 ↔ n = 0 := by
  simp only [countUp, i32, ofInt32, u32]
  omega

/-- `d'` differs from `d` in one submodule only, which is now counted `n` times. -/
structure Moves (d d' : Device) (k : Kind) (n : ℤ) : Prop where
  refcount : d'.refcount = Function.update d.refcount k n
  power : ∀ u, u ≠ k → d'.power u = d.power u

/-- The submodule is sound, and enabled exactly when it is counted. -/
structure LiveAt (base : Counts) (d : Device) (k : Kind) : Prop where
  inv : Power.Inv base (d.power k)
  enabled : (d.power k).sub.enabled = true ↔ d.refcount k ≠ 0
  nonneg : 0 ≤ d.refcount k
  le : d.refcount k ≤ 2147483647

variable {base : Counts} {d d' : Device} {k u : Kind} {n : ℤ}

lemma Moves.self (h : Moves d d' k n) : d'.refcount k = n := by
  rw [h.refcount, update_self]

lemma Moves.other (h : Moves d d' k n) (hu : u ≠ k) : d'.refcount u = d.refcount u := by
  rw [h.refcount, update_of_ne hu]

lemma Moves.liveAt (h : Moves d d' k n) (hu : u ≠ k) (hl : LiveAt base d u) : LiveAt base d' u := by
  constructor
  · rw [h.power u hu]
    exact hl.inv
  · rw [h.power u hu, h.other hu]
    exact hl.enabled
  · rw [h.other hu]
    exact hl.nonneg
  · rw [h.other hu]
    exact hl.le

lemma Moves.liveAt_all {base : Kind → Counts} (h : Moves d d' k n) (hk : LiveAt (base k) d' k)
    (hl : ∀ u, LiveAt (base u) d u) (u : Kind) : LiveAt (base u) d' u := by
  by_cases hu : u = k
  · rw [hu]
    exact hk
  · exact h.liveAt hu (hl u)

lemma take_moves (d : Device) (k : Kind) (a : Answers) :
    Moves d (d.take k a).2 k (countUp (d.refcount k)) := by
  rw [take]
  split_ifs
  · exact ⟨rfl, fun u hu => update_of_ne hu _ _⟩
  · exact ⟨rfl, fun _ _ => rfl⟩

lemma LiveAt.disabled (h : LiveAt base d k) (h0 : d.refcount k = 0) :
    (d.power k).sub.enabled = false := by
  rw [← Bool.not_eq_true, h.enabled]
  exact fun hne => hne h0

lemma take_first {a : Answers} (h : countUp (d.refcount k) = 1) :
    (d.take k a).1 = ((d.power k).enableFn a).1 ∧
      (d.take k a).2.power k = ((d.power k).enableFn a).2 := by
  simp [take, h]

lemma take_later {a : Answers} (h : countUp (d.refcount k) ≠ 1) :
    (d.take k a).1 = 0 ∧ (d.take k a).2.power k = d.power k := by
  simp [take, h]

lemma take_ok (h : LiveAt base d k) {a : Answers} (ht : Users.Takes d k a) :
    (d.take k a).1 = 0 ∧ LiveAt base (d.take k a).2 k ∧
      Moves d (d.take k a).2 k (d.refcount k + 1) := by
  have hn := h.nonneg
  have hlt : d.refcount k < 2147483647 := by
    have := h.le
    have := ht.1
    omega
  have hup : countUp (d.refcount k) = d.refcount k + 1 := countUp_of_lt hn hlt
  have hm := take_moves d k a
  rw [hup] at hm
  suffices hk : (d.take k a).1 = 0 ∧ Power.Inv base ((d.take k a).2.power k) ∧
      ((d.take k a).2.power k).sub.enabled = true by
    refine ⟨hk.1, ⟨hk.2.1, ?_, ?_, ?_⟩, hm⟩
    · rw [hm.self]
      exact iff_of_true hk.2.2 (by omega)
    · rw [hm.self]; omega
    · rw [hm.self]; omega
  by_cases h0 : d.refcount k = 0
  · -- the first user: the submodule is enabled
    obtain ⟨hret, hpow⟩ := take_first (a := a) (hup.trans (by omega))
    have hout := Power.enableFn_outcome h.inv (h.disabled h0) a
    rw [ht.2 h0] at hout
    rw [hret, hpow]
    exact ⟨hout.1, hout.2.2, hout.2.1⟩
  · obtain ⟨hret, hpow⟩ := take_later (a := a) (by omega : countUp (d.refcount k) ≠ 1)
    rw [hret, hpow]
    exact ⟨rfl, h.inv, h.enabled.mpr h0⟩

lemma take_fail (h : LiveAt base d k) {a : Answers} (h0 : d.refcount k = 0)
    (hf : Power.failure (d.power k).sub a ≠ none) :
    (d.take k a).1 ≠ 0 ∧ Moves d (d.take k a).2 k 1 := by
  have hup : countUp (d.refcount k) = 1 := by rw [h0]; rfl
  have hm := take_moves d k a
  rw [hup] at hm
  obtain ⟨fl, hfl⟩ := Option.ne_none_iff_exists'.mp hf
  have hout := Power.enableFn_outcome h.inv (h.disabled h0) a
  rw [hfl] at hout
  rw [(take_first hup).1]
  exact ⟨hout.1, hm⟩

lemma take_bad (h : LiveAt base d k) {a : Answers} (ht : ¬ Users.Takes d k a) :
    (d.refcount k = 2147483647 ∧ Moves d (d.take k a).2 k (-2147483648)) ∨
      (d.refcount k = 0 ∧ (d.take k a).1 ≠ 0 ∧ Moves d (d.take k a).2 k 1) := by
  by_cases hmax : d.refcount k = 2147483647
  · have hm := take_moves d k a
    rw [hmax, countUp_max] at hm
    exact .inl ⟨hmax, hm⟩
  · have hf : ¬ (d.refcount k = 0 → Power.failure (d.power k).sub a = none) := fun h' =>
      ht ⟨hmax, h'⟩
    obtain ⟨h0, hf⟩ := Classical.not_imp.mp hf
    exact .inr ⟨h0, take_fail h h0 hf⟩

lemma get_eq_take (h : LiveAt base d k) {a : Kind → Answers} (hk : ¬ (k = .tvdisp ∧
    d.refcount k = 0)) :
    d.sunxiTvtopClkGet k a = d.take k (a k) := by
  refine if_neg fun h' => hk ⟨h'.1, ?_⟩
  rw [(take_moves d k (a k)).self, countUp_eq_one h.nonneg h.le] at h'
  exact h'.2

lemma get_tvdisp (a : Kind → Answers) (h0 : d.refcount .tvdisp = 0) :
    d.sunxiTvtopClkGet .tvdisp a
      = (if (d.take .tvdisp (a .tvdisp)).1 = 0
          then ((d.take .tvdisp (a .tvdisp)).2.take .tvcap (a .tvcap)).1
          else (d.take .tvdisp (a .tvdisp)).1,
        ((d.take .tvdisp (a .tvdisp)).2.take .tvcap (a .tvcap)).2) := by
  refine if_pos ⟨rfl, ?_⟩
  rw [(take_moves d .tvdisp (a .tvdisp)).self, h0]
  rfl

lemma drop_of_zero (h0 : d.refcount k = 0) : d.drop k = (1, d) := if_pos h0

lemma drop_ok (h : LiveAt base d k) (h0 : d.refcount k ≠ 0) :
    (d.drop k).1 = 0 ∧ LiveAt base (d.drop k).2 k ∧ Moves d (d.drop k).2 k (d.refcount k - 1) := by
  have hn := h.nonneg
  have hl := h.le
  have hdrop : (d.drop k).1 = 0 ∧ Moves d (d.drop k).2 k (d.refcount k - 1) := by
    rw [drop, if_neg h0]
    dsimp only
    split_ifs
    · exact ⟨rfl, rfl, fun u hu => update_of_ne hu _ _⟩
    · exact ⟨rfl, rfl, fun _ _ => rfl⟩
  have hpower : (d.drop k).2.power k
      = if d.refcount k = 1 then (d.power k).tvtopSubmoduleDisable else d.power k := by
    rw [drop, if_neg h0]
    by_cases h1 : d.refcount k = 1
    · simp [h1]
    · have : d.refcount k - 1 ≠ 0 := by omega
      simp [h1, this]
  refine ⟨hdrop.1, ⟨?_, ?_, ?_, ?_⟩, hdrop.2⟩
  · rw [hpower]
    split_ifs
    · exact Power.disable_inv h.inv
    · exact h.inv
  · rw [hpower, hdrop.2.self]
    split_ifs with h1
    · simp [Power.disable_enabled, h1]
    · exact iff_of_true (h.enabled.mpr h0) (by omega)
  · rw [hdrop.2.self]; omega
  · rw [hdrop.2.self]; omega

end Device

namespace Users

/-! ### The invariant of the ledger -/

/-- The counts are those of the ledger, and each submodule is enabled exactly when it is counted. -/
structure Inv (base : Kind → Counts) (s : Users) : Prop where
  live : ∀ k, s.dev.LiveAt (base k) k
  counted : Counted s

variable {base : Kind → Counts} {s : Users} {k : Kind} {a : Kind → Answers}

lemma Counted.tvdisp (h : Counted s) : s.dev.refcount .tvdisp = s.held .tvdisp := by
  simpa using h .tvdisp

lemma Counted.tvfe (h : Counted s) : s.dev.refcount .tvfe = s.held .tvfe := by
  simpa using h .tvfe

lemma Counted.tvcap (h : Counted s) :
    s.dev.refcount .tvcap = s.held .tvcap + if 0 < s.dev.refcount .tvdisp then 1 else 0 := by
  simpa using h .tvcap

/-! ### Gets -/

lemma get_ok (h : Inv base s) (hok : Ok s (.get k a)) :
    (s.dev.sunxiTvtopClkGet k a).1 = 0 ∧
      (∀ u, (s.dev.sunxiTvtopClkGet k a).2.LiveAt (base u) u) ∧
      ∀ u, (s.dev.sunxiTvtopClkGet k a).2.refcount u = s.dev.refcount u
        + (if u = k then 1 else 0)
        + if u = .tvcap ∧ k = .tvdisp ∧ s.dev.refcount .tvdisp = 0 then 1 else 0 := by
  obtain ⟨hret, hlive, hm⟩ := Device.take_ok (h.live k) hok.1
  have hlive' := hm.liveAt_all hlive h.live
  by_cases hk : k = .tvdisp ∧ s.dev.refcount k = 0
  swap
  · rw [Device.get_eq_take (h.live k) hk]
    refine ⟨hret, hlive', fun u => ?_⟩
    rw [hm.refcount, update_apply]
    have : ¬ (u = .tvcap ∧ k = .tvdisp ∧ s.dev.refcount .tvdisp = 0) := by
      rintro ⟨-, rfl, h0⟩
      exact hk ⟨rfl, h0⟩
    split_ifs with hu
    · rw [hu]
      omega
    · omega
  obtain ⟨rfl, h0⟩ := hk
  -- tvcap is as it was before
  have htake : Takes (s.dev.take .tvdisp (a .tvdisp)).2 .tvcap (a .tvcap) := by
    have := hok.2 rfl h0
    rwa [Takes, hm.other (by decide), hm.power _ (by decide)]
  obtain ⟨hret', hlive'', hm'⟩ := Device.take_ok (hlive' .tvcap) htake
  rw [Device.get_tvdisp a h0, if_pos hret]
  refine ⟨hret', hm'.liveAt_all hlive'' hlive', fun u => ?_⟩
  rw [hm'.refcount, update_apply, hm.other (by decide : Kind.tvcap ≠ .tvdisp), hm.refcount,
    update_apply, h0]
  cases u <;> simp [h0]

lemma Counted.nonneg (h : Counted s) (k : Kind) : 0 ≤ s.dev.refcount k := by
  rw [h k]
  split_ifs <;> omega

lemma not_counted_of_failed (h : Counted s) (h0 : s.dev.refcount k = 0)
    (hret : (s.dev.sunxiTvtopClkGet k a).1 ≠ 0)
    (h1 : (s.dev.sunxiTvtopClkGet k a).2.refcount k = 1)
    (hdisp : k = .tvcap →
      (s.dev.sunxiTvtopClkGet k a).2.refcount .tvdisp = s.dev.refcount .tvdisp) :
    ¬ Counted (s.call (.get k a)) := by
  intro hc
  have hk := h k
  have hk' := hc k
  simp only [call, hret, if_false, h1] at hk'
  rw [h0] at hk
  by_cases hcap : k = .tvcap
  · rw [hdisp hcap] at hk'
    omega
  · simp only [hcap, false_and, if_false] at hk hk'
    omega

lemma get_bad (h : Inv base s) (hok : ¬ Ok s (.get k a)) : ¬ Counted (s.call (.get k a)) := by
  by_cases hk : k = .tvdisp ∧ s.dev.refcount k = 0
  · obtain ⟨rfl, h0⟩ := hk
    have hget := Device.get_tvdisp a h0
    have hm := Device.take_moves s.dev .tvdisp (a .tvdisp)
    have hm' := Device.take_moves (s.dev.take .tvdisp (a .tvdisp)).2 .tvcap (a .tvcap)
    have h1 : (s.dev.sunxiTvtopClkGet .tvdisp a).2.refcount .tvdisp = 1 := by
      rw [hget, hm'.other (by decide), hm.self, h0]
      rfl
    -- a failure of either of the two enables is returned
    by_cases ht : Takes s.dev .tvdisp (a .tvdisp)
    · obtain ⟨hret, hlive, hm⟩ := Device.take_ok (h.live _) ht
      have hlive' := hm.liveAt_all hlive h.live
      have htcap : ¬ Takes (s.dev.take .tvdisp (a .tvdisp)).2 .tvcap (a .tvcap) := by
        rw [Takes, hm.other (by decide), hm.power _ (by decide)]
        exact fun h' => hok ⟨ht, fun _ _ => h'⟩
      obtain ⟨-, hmax⟩ | ⟨-, hret', -⟩ := Device.take_bad (hlive' .tvcap) htcap
      · intro hc
        have := hc.nonneg .tvcap
        simp only [call, hget, hmax.self] at this
        omega
      · refine not_counted_of_failed h.counted h0 ?_ h1 (by simp)
        rwa [hget, if_pos hret]
    · obtain ⟨hmax, -⟩ | ⟨-, hret, -⟩ := Device.take_bad (h.live _) ht
      · omega
      · refine not_counted_of_failed h.counted h0 ?_ h1 (by simp)
        rwa [hget, if_neg hret]
  · have hget := Device.get_eq_take (a := a) (h.live k) hk
    have ht : ¬ Takes s.dev k (a k) := fun ht => hok ⟨ht, fun hk' h0 => absurd ⟨hk', hk' ▸ h0⟩ hk⟩
    obtain ⟨-, hm⟩ | ⟨h0, hret, hm⟩ := Device.take_bad (h.live k) ht
    · intro hc
      have := hc.nonneg k
      simp only [call, hget, hm.self] at this
      omega
    · refine not_counted_of_failed h.counted h0 (by rwa [hget]) (by rw [hget,
        hm.self]) fun hcap => ?_
      rw [hget, hm.other (by rw [hcap]; decide)]

/-! ### Puts -/

lemma put_counted (h : Inv base s) (h0 : s.dev.refcount k ≠ 0) :
    (s.dev.sunxiTvtopClkPut k).1 = 0 ∧
      (∀ u, (s.dev.sunxiTvtopClkPut k).2.LiveAt (base u) u) ∧
      ∀ u, (s.dev.sunxiTvtopClkPut k).2.refcount u = s.dev.refcount u
        - (if u = k then 1 else 0)
        - if u = .tvcap ∧ k = .tvdisp ∧ s.dev.refcount .tvdisp = 1 then 1 else 0 := by
  obtain ⟨hret, hlive, hm⟩ := Device.drop_ok (h.live k) h0
  have hlive' := hm.liveAt_all hlive h.live
  by_cases hk : k = .tvdisp ∧ s.dev.refcount k = 1
  swap
  · have hput : s.dev.sunxiTvtopClkPut k = s.dev.drop k := by
      refine if_neg fun h' => hk ⟨h'.1, ?_⟩
      have := hm.self.symm.trans h'.2.2
      omega
    rw [hput]
    refine ⟨hret, hlive', fun u => ?_⟩
    rw [hm.refcount, update_apply]
    have : ¬ (u = .tvcap ∧ k = .tvdisp ∧ s.dev.refcount .tvdisp = 1) := by
      rintro ⟨-, rfl, h1⟩
      exact hk ⟨rfl, h1⟩
    split_ifs with hu
    · rw [hu]
      omega
    · omega
  obtain ⟨rfl, h1⟩ := hk
  have hput : s.dev.sunxiTvtopClkPut .tvdisp = (0, ((s.dev.drop .tvdisp).2.drop .tvcap).2) :=
    if_pos ⟨rfl, hret, by rw [hm.self, h1]; rfl⟩
  -- tvdisp still has its reference on tvcap
  have hcap : (s.dev.drop .tvdisp).2.refcount .tvcap ≠ 0 := by
    have := h.counted.tvcap
    rw [h1, if_pos (by decide)] at this
    rw [hm.other (by decide)]
    omega
  obtain ⟨-, hlive'', hm'⟩ := Device.drop_ok (hlive' .tvcap) hcap
  rw [hput]
  refine ⟨rfl, hm'.liveAt_all hlive'' hlive', fun u => ?_⟩
  rw [hm'.refcount, update_apply, hm.other (by decide : Kind.tvcap ≠ .tvdisp), hm.refcount,
    update_apply, h1]
  cases u <;> simp [h1]

lemma put_uncounted (h0 : s.dev.refcount k = 0) : s.call (.put k) = s := by
  have hput : s.dev.sunxiTvtopClkPut k = (1, s.dev) := by
    rw [Device.sunxiTvtopClkPut, Device.drop_of_zero h0]
    exact if_neg (by simp)
  simp [call, hput]

lemma put_inv (h : Inv base s) (hok : Ok s (.put k)) : Inv base (s.call (.put k)) := by
  by_cases h0 : s.dev.refcount k = 0
  · rwa [put_uncounted h0]
  obtain ⟨hret, hlive, hcount⟩ := put_counted h h0
  refine ⟨hlive, fun u => ?_⟩
  have hcap := h.counted.tvcap
  have hdisp := h.counted.tvdisp
  have hfe := h.counted.tvfe
  have hok' : k = .tvcap → s.held .tvcap ≠ 0 := fun hk hheld => h0 (hk ▸ hok hk hheld)
  simp only [call, hret, if_true, hcount, update_apply]
  cases k <;> cases u <;> simp at hok' ⊢ <;> grind

lemma put_bad (h : Inv base s) (hok : ¬ Ok s (.put k)) : ¬ Counted (s.call (.put k)) := by
  simp only [Ok, Classical.not_imp] at hok
  obtain ⟨rfl, hheld, h0⟩ := hok
  obtain ⟨hret, -, hcount⟩ := put_counted h h0
  intro hc
  have hcap := h.counted.tvcap
  have hcap' := hc.tvcap
  simp only [call, hret, if_true, hcount, update_self, hheld] at hcap'
  rw [hheld] at hcap
  simp only [reduceCtorEq, false_and, and_false, ↓reduceIte, Int.sub_zero, Nat.zero_le,
    Nat.sub_eq_zero_of_le, Int.cast_ofNat_Int, and_self, Int.zero_add] at hcap'
  grind

/-! ### Runs -/

lemma step_inv (h : Inv base s) {ev : Event} {t : Users} (hok : Ok s ev) (ht : step s ev = some t) :
    Inv base t := by
  cases ht
  cases ev with
  | put k => exact put_inv h hok
  | get k a =>
    obtain ⟨hret, hlive, hcount⟩ := get_ok h hok
    refine ⟨hlive, fun u => ?_⟩
    have hcap := h.counted.tvcap
    have hdisp := h.counted.tvdisp
    have hfe := h.counted.tvfe
    simp only [call, hret, if_true, hcount, update_apply]
    cases k <;> cases u <;> simp <;> grind

lemma step_bad (h : Inv base s) {ev : Event} {t : Users} (hok : ¬ Ok s ev)
    (ht : step s ev = some t) : ¬ Counted t := by
  cases ht
  cases ev with
  | put k => exact put_bad h hok
  | get k a => exact get_bad h hok

lemma get_served (h : Inv base s) (hok : Ok s (.get k a)) : Served s k a := by
  intro _
  obtain ⟨-, hlive, hcount⟩ := get_ok h hok
  have hn := fun u => (h.live u).nonneg
  constructor
  · rw [(hlive k).enabled, hcount, if_pos rfl]
    have := hn k
    split_ifs <;> omega
  · rintro rfl
    rw [(hlive .tvcap).enabled, hcount]
    -- if it is not taken now, it was taken before
    have hcap := h.counted.tvcap
    have := hn .tvdisp
    by_cases h0 : s.dev.refcount .tvdisp = 0
    · simp only [h0]
      simp only [reduceCtorEq, ↓reduceIte, Int.add_zero, and_self, ne_eq]
      omega
    · rw [if_pos (by omega)] at hcap
      simp only [reduceCtorEq, ↓reduceIte, Int.add_zero, h0, and_false, ne_eq]
      omega

lemma start_inv (r : ∀ k, Resources k) (clks : Kind → List (Option ℕ × ℕ)) (base : Kind → Counts) :
    Inv base (start r clks base) where
  live k := ⟨Power.start_inv _ _ _, by simp [start, Power.start, sunxiTvtopProbe], by simp [start],
    by simp [start]⟩
  counted := by simp [Counted, start]

/-- Every get that returns 0 has the hardware enabled and the counts are right, in exactly the runs
that meet the condition. -/
theorem refcount_iff (r : ∀ k, Resources k) (clks : Kind → List (Option ℕ × ℕ))
    (base : Kind → Counts) (evs : List Event) :
    ((∀ bs s, bs <+: evs → run step (start r clks base) bs = some s → Counted s) ∧
      ∀ bs k a s, bs ++ [.get k a] <+: evs → run step (start r clks base) bs = some s →
        Served s k a) ↔
      Guarded step Ok (start r clks base) evs := by
  have hstart := start_inv r clks base
  have hstep : ∀ s ev, ∃ t, step s ev = some t := fun s ev => ⟨s.call ev, rfl⟩
  obtain ⟨t, ht⟩ := exists_run hstep (start r clks base) evs
  have hiff : Guarded step Ok (start r clks base) evs ↔ _ :=
    guarded_iff_always (fun _ => Inv.counted) (fun _ _ _ h => step_inv h)
      (fun _ _ _ h => step_bad h) hstart ht
  refine ⟨fun h => hiff.mpr h.1, fun hg => ⟨hiff.mp hg, ?_⟩⟩
  rintro bs k a s ⟨cs, rfl⟩ hs
  have hg' := hg.append_left
  have hinv : Inv base s := hg'.append_left.invariant (fun _ _ _ h => step_inv h) hstart hs
  exact get_served hinv (hg'.last hs)

/-- The first get of tvfe fails in the reset with `-EIO`; the second one returns 0, and tvfe is not
enabled. -/
theorem get_after_failure :
    (run step (start (fun _ => ⟨none, true, false, fun _ => rfl⟩) (fun _ => []) fun _ =>
        ⟨fun _ => 0, 0, 0⟩)
      [.get .tvfe fun _ => ⟨[], 0, 5, false, 0⟩]).map (fun s =>
        let r := s.dev.sunxiTvtopClkGet .tvfe fun _ => ⟨[], 0, 0, false, 0⟩
        (r.1, r.2.refcount .tvfe, (r.2.power .tvfe).sub.enabled))
      = some (0, 2, false) := by
  decide

end Users

end Tvtop
