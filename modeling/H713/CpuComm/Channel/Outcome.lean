import H713.CpuComm.Channel.Install
import H713.CpuComm.Routine.Locked
import H713.CpuComm.Routine.Map

/-!
# What the results of the installers say

The result of `RemoveRoutine` is read from the slot after the successor has been moved there.
`CPUComm_InstallRoutine` registers the routine before it asks for a channel, and leaves it in the
table when there is none.
-/

namespace CpuComm

open Machine Option

/-! ### The result of a removal -/

namespace Table

variable {t t' : Table} {d : RoutineDesc} {c i : ℕ} {r : ℤ}

def EntryAt (t : Table) (d : RoutineDesc) (i : ℕ) : Prop := t.compId i ≠ 0 ∧ t.compId i = d.compId

def Own (d e : RoutineDesc) : Prop := d.name = e.name ∧ d.pid = e.pid ∧ e.cpu = getCurCPUID

instance (d e : RoutineDesc) : Decidable (Own d e) := inferInstanceAs (Decidable (_ ∧ _ ∧ _))

/-- The chains are in order, and every entry has one of the two CPUs. -/
structure WellFormed (t : Table) : Prop where
  ok : t.Ok
  cpu : ∀ i, t.compId i ≠ 0 → (t.desc i).cpu ≤ 1

/-- The result tells what was removed. -/
structure RemoveExact (t : Table) (d : RoutineDesc) (r : ℤ) : Prop where
  own : r = 0 ↔ ∃ i, t.EntryAt d i ∧ Own d (t.desc i)
  other : r = 1 ↔ ∃ i, t.EntryAt d i ∧ ¬ Own d (t.desc i)
  absent : r = -1 ↔ ∀ i, ¬ t.EntryAt d i

def TellsOwn (t : Table) (d : RoutineDesc) : Prop :=
  t.count ≤ rtMaxIndex ∧ (d.compId = 0 → ∀ i ∈ t.bucket d.compId, t.compId i ≠ 0) ∧
    ∀ i, t.EntryAt d i → (Own d (t.successor i) ↔ Own d (t.desc i))

lemma RemoveExact.cases (h : t.RemoveExact d r) : r = 0 ∨ r = 1 ∨ r = -1 := by
  by_cases hno : ∀ i, ¬ t.EntryAt d i
  · exact .inr (.inr (h.absent.mpr hno))
  · obtain ⟨i, hi⟩ := not_forall_not.mp hno
    by_cases hown : Own d (t.desc i)
    · exact .inl (h.own.mpr ⟨i, hi, hown⟩)
    · exact .inr (.inl (h.other.mpr ⟨i, hi, hown⟩))

lemma removeExact_absent (h : ∀ i, ¬ t.EntryAt d i) : t.RemoveExact d r ↔ r = -1 := by
  constructor
  · exact fun hr => hr.absent.mpr h
  · rintro rfl
    refine ⟨iff_of_false (by decide) ?_, iff_of_false (by decide) ?_, iff_of_true rfl h⟩
    · exact fun ⟨i, hi, _⟩ => h i hi
    · exact fun ⟨i, hi, _⟩ => h i hi

lemma removeExact_found (hi : t.EntryAt d i) (huniq : ∀ j, t.EntryAt d j → j = i) {P : Prop}
    [Decidable P] : t.RemoveExact d (if P then 0 else 1) ↔ (P ↔ Own d (t.desc i)) := by
  have hown : (∃ j, t.EntryAt d j ∧ Own d (t.desc j)) ↔ Own d (t.desc i) :=
    ⟨fun ⟨j, hj, h⟩ => huniq j hj ▸ h, fun h => ⟨i, hi, h⟩⟩
  have hother : (∃ j, t.EntryAt d j ∧ ¬ Own d (t.desc j)) ↔ ¬ Own d (t.desc i) :=
    ⟨fun ⟨j, hj, h⟩ => huniq j hj ▸ h, fun h => ⟨i, hi, h⟩⟩
  have hsome : ¬ ∀ j, ¬ t.EntryAt d j := fun h => h i hi
  constructor
  · intro h
    rw [← hown, ← h.own]
    by_cases hp : P <;> simp [hp]
  · intro h
    refine ⟨?_, ?_, iff_of_false ?_ hsome⟩
    · rw [hown, ← h]
      by_cases hp : P <;> simp [hp]
    · rw [hother, ← h]
      by_cases hp : P <;> simp [hp]
    · by_cases hp : P <;> simp [hp]

lemma removeAt_result (t : Table) (d : RoutineDesc) (i : ℕ) :
    (t.removeAt d i).2 = if (t.desc i).cpu > 1 then -14 else
      if Own d (t.successor i) then 0 else 1 := by
  simp only [removeAt, apply_ite Prod.snd, removeResult_unlink]
  rfl

lemma WellFormed.removeRoutine (h : t.WellFormed) (d : RoutineDesc) :
    ∃ t' r, t.removeRoutine d = some (t', r) ∧ (t.RemoveExact d r ↔ t.TellsOwn d) := by
  rw [Table.removeRoutine]
  by_cases hc : t.count > rtMaxIndex
  · rw [if_pos hc]
    refine ⟨t, -22, rfl, iff_of_false (fun hr => ?_) fun ht => absurd ht.1 (by omega)⟩
    rcases hr.cases with h0 | h0 | h0 <;> cases h0
  · obtain ⟨l, hl⟩ := h.ok.chain _ (hashIdx_lt d.compId)
    have hn : l.length < walkFuel := lt_of_le_of_lt (h.ok.links.length_chain hl) (by decide)
    have hbucket := h.ok.bucket_eq hl
    rw [if_neg hc, removeChecked, walk_bumpVersion]
    rcases walk_chain h.ok.links hl hn with ⟨i, hi, hic, hw⟩ | ⟨hall, hw⟩
    · refine ⟨(t.bumpVersion.removeAt d i).1, (t.bumpVersion.removeAt d i).2, by rw [hw]; rfl, ?_⟩
      rw [removeAt_result, desc_bumpVersion,
        show t.bumpVersion.successor i = t.successor i from rfl]
      by_cases hd : d.compId = 0
      · -- a free slot is taken for the entry
        refine iff_of_false (fun hr => ?_) fun ht => ?_
        · rw [removeExact_absent fun j hj => hj.1 (hj.2.trans hd)] at hr
          split_ifs at hr
          cases hr
        · exact ht.2.1 hd i (hbucket ▸ hi) (hic.trans hd)
      · have hi0 : t.compId i ≠ 0 := fun h0 => hd (hic.symm.trans h0)
        have hat : t.EntryAt d i := ⟨hi0, hic⟩
        have huniq : ∀ j, t.EntryAt d j → j = i := fun j hj =>
          h.ok.unique j i hj.1 (hj.2.trans hic.symm)
        rw [if_neg (not_lt.mpr (h.cpu i hi0)), removeExact_found hat huniq]
        refine ⟨fun heq => ⟨not_lt.mp hc, fun h0 => absurd h0 hd, fun j hj => ?_⟩,
          fun ht => ht.2.2 i hat⟩
        rw [huniq j hj]
        exact heq
    · have hno : ∀ i, ¬ t.EntryAt d i := fun i hi => h.ok.not_registered hl hall hi.1 hi.2
      refine ⟨_, _, by rw [hw]; rfl, ?_⟩
      rw [removeExact_absent hno]
      refine iff_of_true rfl ⟨not_lt.mp hc, fun h0 i hi => ?_, fun i hi => absurd hi (hno i)⟩
      rw [← h0]
      exact hall i (hbucket ▸ hi)

end Table

namespace Installation

open Table ChannelPool

def RemovesOwn (s : Installation) (d : RoutineDesc) (p : ChannelPool) : Prop :=
  ((∃ i, s.table.EntryAt d i ∧ Own d (s.table.desc i)) →
    p = (s.pool.commRemoveChannel d.compId d.pid).1) ∧
  ((¬ ∃ i, s.table.EntryAt d i ∧ Own d (s.table.desc i)) → p = s.pool)

/-- Both calls return, and the result of `RemoveRoutine` tells what was removed and the channel is
removed by it, exactly if the successor of the entry gives the same answer as the entry. -/
theorem unInstall_exact_iff (s : Installation) (d : RoutineDesc) (h : s.table.WellFormed) :
    ∃ t' r s' r', s.table.removeRoutine d = some (t', r) ∧ s.unInstallRoutine d = some (s', r') ∧
      (s.table.RemoveExact d r ∧ s.RemovesOwn d s'.pool ↔ s.table.TellsOwn d) := by
  obtain ⟨t', r, hr, hiff⟩ := h.removeRoutine d
  by_cases h0 : r = 0
  · refine ⟨t', r, ⟨t', (s.pool.commRemoveChannel d.compId d.pid).1⟩, 0, hr, ?_, ?_⟩
    · simp only [unInstallRoutine, hr, map_some, if_pos h0]
    · rw [← hiff, and_iff_left_iff_imp]
      exact fun hexact => ⟨fun _ => rfl, fun hno => absurd (hexact.own.mp h0) hno⟩
  · refine ⟨t', r, ⟨t', s.pool⟩, if r < 0 then r else 0, hr, ?_, ?_⟩
    · simp only [unInstallRoutine, hr, map_some, if_neg h0]
    · rw [← hiff, and_iff_left_iff_imp]
      exact fun hexact => ⟨fun hown => absurd (hexact.own.mpr hown) h0, fun _ => rfl⟩

def ownRoutine : RoutineDesc := ⟨3, 0, 1000, 1, fun _ => 0, (0, 0)⟩

def otherRoutine : RoutineDesc := ⟨4, 0, 2000, 1025, fun _ => 0, (0, 0)⟩

def twoRoutines : List RoutineOp :=
  [.add ⟨ownRoutine, by decide⟩, .add ⟨otherRoutine, by decide⟩]

theorem unInstall_exact_iff_two :
    ∃ s : Installation, s.table.WellFormed ∧
      ∃ t' r s' r', s.table.removeRoutine otherRoutine = some (t', r) ∧
        s.unInstallRoutine otherRoutine = some (s', r') ∧
        (s.table.RemoveExact otherRoutine r ∧ s.RemovesOwn otherRoutine s'.pool ↔
          s.table.TellsOwn otherRoutine) := by
  have hok : Guarded Registry.step Registry.SlotFree Registry.zeroed twoRoutines := by
    decide +kernel
  obtain ⟨s, -, hs⟩ := hok.exists_run (fun s op h hs => h.step op hs) (Registry.Inv.init _)
  have hwf : s.table.WellFormed := ⟨hs.ok, hs.cpu⟩
  exact ⟨⟨s.table, channelPoolInit 0⟩, hwf, unInstall_exact_iff _ _ hwf⟩

/-- The caller's own routine is removed. The result is `1`, and the channel stays. -/
theorem unInstall_misses_own :
    (((run step fresh [.install ownRoutine, .install otherRoutine]).bind fun s =>
        s.table.removeRoutine ownRoutine).map Prod.snd = some 1) ∧
      ((run step fresh [.install ownRoutine, .install otherRoutine, .unInstall ownRoutine]).map
        fun s => (s.table.findRoutineEx 1, s.pool.commQueryChannel (queryKey 1 1000))) =
        some (some none, some 0) := by
  decide +kernel

end Installation

/-! ### An installation that fails -/

namespace Table

variable {t t' : Table} {d : RoutineDesc} {c i n : ℕ} {r : ℤ}

def Registers (t : Table) (d : RoutineDesc) : Prop :=
  t.count ≤ rtMaxIndex ∧ t.findRoutineEx d.compId = some none ∧ t.AddClean d ∧
    (t.HasEnd d ∨ t.overflowSlot ≠ none)

lemma findRoutineEx_congr (h : t'.entry = t.entry) (hc : t'.count = t.count) (c : ℕ) :
    t'.findRoutineEx c = t.findRoutineEx c := by
  simp only [findRoutineEx, walk_congr h, hc, desc, h]

lemma addOverflow_registers (hclean : ∀ o ∈ t.overflowSlot, t.next o = -1) (p : ℤ) :
    t.overflowSlot ≠ none ∧ (t.addOverflow d p).2 = 0 ∧ (t.addOverflow d p).1.count = t.count + 1 ∨
      t.overflowSlot = none ∧ (t.addOverflow d p).2 ≠ 0 ∧ (t.addOverflow d p).1.entry = t.entry ∧
        (t.addOverflow d p).1.count = t.count := by
  rw [addOverflow]
  cases ho : t.overflowSlot with
  | none => exact .inr ⟨rfl, by simp, rfl, rfl⟩
  | some o =>
    have hn : ¬ t.next o ≠ -1 := not_not.mpr (hclean o ho)
    refine .inl ⟨by simp, ?_⟩
    simp only [if_neg hn]
    split_ifs
    · exact ⟨rfl, rfl⟩
    · exact ⟨rfl, rfl⟩

lemma addOverflow_not_clean (h : ¬ ∀ o ∈ t.overflowSlot, t.next o = -1) (p : ℤ) :
    t.addOverflow d p = (t, -22) := by
  push Not at h
  obtain ⟨o, ho, hn⟩ := h
  rw [addOverflow, mem_def.mp ho]
  exact if_pos hn

lemma addNew_registers (h : t.addNew d = some (t', r)) :
    (t.AddClean d ∧ (t.HasEnd d ∨ t.overflowSlot ≠ none)) ∧ r = 0 ∧ t'.count = t.count + 1 ∨
      ¬ (t.AddClean d ∧ (t.HasEnd d ∨ t.overflowSlot ≠ none)) ∧ r ≠ 0 ∧ t'.entry = t.entry ∧
        t'.count = t.count := by
  rw [addNew] at h
  split_ifs at h with h0
  · cases h
    have hend : t.HasEnd d := ⟨_, .here _, h0⟩
    have hstop : ¬ t.GoesOn 0 (hashIdx d.compId) := fun h => h.1 h0.1
    refine .inl ⟨⟨⟨fun j hj hc => ?_, .inl hend⟩, .inl hend⟩, rfl, rfl⟩
    rw [(seeks_of_not hstop).mp hj] at hc
    exact absurd h0.1 hc
  · obtain ⟨w, hw, hx⟩ := map_eq_some_iff.mp h
    obtain ⟨hclean, hend⟩ := addWalk_clean hw
    rcases w with e | ⟨prev, cur⟩
    · cases hx
      have hno : ¬ t.AddClean d := fun h => absurd (hclean.mp h.1) (by simp [Except.toBool])
      exact .inr ⟨fun h => hno h.1, by rw [addWalk_error hw]; decide, rfl, rfl⟩
    · have hall := hclean.mpr rfl
      have hend' : t.HasEnd d ↔ 0 ≤ cur ∧ t.next cur.toNat = -1 := hend prev cur rfl
      simp only at hx
      split_ifs at hx with hc
      · cases hx
        exact .inl ⟨⟨⟨hall, .inl (hend'.mpr hc)⟩, .inl (hend'.mpr hc)⟩, rfl, rfl⟩
      · have hno : ¬ t.HasEnd d := fun h => hc (hend'.mp h)
        by_cases hov : ∀ o ∈ t.overflowSlot, t.next o = -1
        · have hcases := addOverflow_registers (d := d) hov prev
          rw [hx] at hcases
          rcases hcases with ⟨ho, hres⟩ | ⟨ho, hres⟩
          · exact .inl ⟨⟨⟨hall, .inr hov⟩, .inr ho⟩, hres⟩
          · exact .inr ⟨fun h => h.2.elim hno fun hne => hne ho, hres⟩
        · rw [addOverflow_not_clean hov] at hx
          cases hx
          exact .inr ⟨fun h => hov (h.1.2.resolve_left hno), by decide, rfl, rfl⟩

lemma addInRoutine_registers (h : t.addInRoutine d = some (t', r)) :
    t.Registers d ∧ r = 0 ∧ t'.count = t.count + 1 ∨
      ¬ t.Registers d ∧ t'.entry = t.entry ∧ t'.count = t.count := by
  rw [addInRoutine] at h
  split_ifs at h with hc
  · cases h
    exact .inr ⟨fun h => absurd h.1 (by omega), rfl, rfl⟩
  · obtain ⟨f, hf, h⟩ := bind_eq_some_iff.mp h
    cases f with
    | some e =>
      cases h
      exact .inr ⟨fun h => absurd (hf.symm.trans h.2.1) (by simp), rfl, rfl⟩
    | none =>
      have hclean : t.bumpVersion.AddClean d ↔ t.AddClean d := addClean_bumpVersion t d
      have hend : t.bumpVersion.HasEnd d ↔ t.HasEnd d := by
        simp only [HasEnd, seeks_bumpVersion]
        rfl
      rcases addNew_registers h with ⟨⟨ha, hb⟩, hres⟩ | ⟨hno, -, hres⟩
      · exact .inl ⟨⟨not_lt.mp hc, hf, hclean.mp ha, hb.imp_left hend.mp⟩, hres⟩
      · exact .inr ⟨fun h => hno ⟨hclean.mpr h.2.2.1, h.2.2.2.imp_left hend.mpr⟩, hres⟩

end Table

namespace ChannelPool

def NoChannelFor (p : ChannelPool) (compId cpu : ℕ) : Prop :=
  p.slotsOf (queryKey compId cpu) = ∅ ∧ p.slotsOf 0 = ∅

lemma ensureChannel_fails_iff (p : ChannelPool) (c u : ℕ) :
    ((p.ensureChannel c u).2 ≠ 0 ↔ p.NoChannelFor c u) ∧
      ((p.ensureChannel c u).2 ≠ 0 → (p.ensureChannel c u).1 = p) := by
  rcases he : p.ensureChannel c u with ⟨p', r⟩
  obtain ⟨rfl, rfl, hk⟩ | ⟨rfl, -, i, hi, hfree, -⟩ | ⟨hr, rfl, hfull⟩ := ensureChannel_cases he
  · exact ⟨iff_of_false (fun h => h rfl) fun h => hk.ne_empty h.1, fun _ => rfl⟩
  · refine ⟨iff_of_false (fun h => h rfl) fun h => ?_, fun h => absurd rfl h⟩
    exact Finset.notMem_empty i (h.2 ▸ mem_slotsOf.mpr ⟨hi, hfree⟩)
  · refine ⟨iff_of_true hr ⟨?_, hfull⟩, fun _ => rfl⟩
    by_contra hne
    rw [ensureChannel_of_nonempty (Finset.nonempty_iff_ne_empty.mpr hne)] at he
    exact hr (Prod.mk.inj he).2.symm

end ChannelPool

namespace Installation

open Table ChannelPool

/-- The findable routines, the routine count and the channel pool are the same. -/
structure Same (s s' : Installation) : Prop where
  find : ∀ c, s'.table.findRoutineEx c = s.table.findRoutineEx c
  count : s'.table.count = s.table.count
  pool : s'.pool = s.pool

/-- An installation that returns non-zero has changed nothing, exactly unless it registers a new
routine and there is no channel for it. -/
theorem install_fails_same_iff {s s' : Installation} {d : RoutineDesc} {r : ℤ}
    (h : s.installRoutine d = some (s', r)) :
    (r ≠ 0 → s.Same s') ↔ ¬ (s.table.Registers d ∧ s.pool.NoChannelFor d.compId d.pid) := by
  obtain ⟨⟨t', ret⟩, ha, hx⟩ := map_eq_some_iff.mp h
  obtain ⟨hfails, hpool⟩ := ensureChannel_fails_iff s.pool d.compId d.pid
  rcases addInRoutine_registers ha with ⟨hreg, rfl, hcount⟩ | ⟨hreg, hentry, hcount⟩
  · simp only [ne_eq, not_true_eq_false, if_false] at hx
    obtain ⟨rfl, rfl⟩ := Prod.mk.inj hx
    rw [not_and, ← hfails]
    constructor
    · intro hsame _ hno
      have hc := (hsame hno).count
      simp only at hc
      omega
    · exact fun hno hr => absurd hr (hno hreg)
  · have hsame : ∀ p, p = s.pool → s.Same ⟨t', p⟩ := fun p hp =>
      ⟨findRoutineEx_congr hentry hcount, hcount, hp⟩
    refine iff_of_true (fun hr => ?_) fun hno => hreg hno.1
    simp only at hx
    split_ifs at hx with h0
    · obtain ⟨rfl, rfl⟩ := Prod.mk.inj hx
      exact hsame s.pool rfl
    · obtain ⟨rfl, rfl⟩ := Prod.mk.inj hx
      exact hsame _ (hpool hr)

def nthRoutine (n : ℕ) : RoutineDesc := ⟨3, 0, 1000 + n, n, fun _ => 0, (0, 0)⟩

/-- With all channels taken, a process installs a routine that another one has registered. It gets
no channel, and nothing has changed. -/
theorem install_fails_same_iff_registered :
    ∃ s s' r, run step fresh ((List.range' 1 32).map fun n => .install (nthRoutine n)) = some s ∧
      s.installRoutine { nthRoutine 1 with pid := 2000 } = some (s', r) ∧ r = -12 ∧
      s.pool.NoChannelFor 1 2000 ∧ s.Same s' := by
  have hrun : ((run step fresh ((List.range' 1 32).map fun n => .install (nthRoutine n))).bind
      fun s => (s.installRoutine { nthRoutine 1 with pid := 2000 }).map fun x =>
        (x.2, (s.table.findRoutineEx 1).map Option.isSome, (s.pool.ensureChannel 1 2000).2)) =
      some (-12, some true, -12) := by
    decide +kernel
  obtain ⟨s, hs, hx⟩ := bind_eq_some_iff.mp hrun
  obtain ⟨⟨s', r⟩, h, hr⟩ := map_eq_some_iff.mp hx
  simp only [Prod.mk.injEq] at hr
  obtain ⟨rfl, hfound, hchannel⟩ := hr
  have hreg : ¬ s.table.Registers { nthRoutine 1 with pid := 2000 } := by
    rintro ⟨-, hno, -⟩
    change s.table.findRoutineEx 1 = some none at hno
    simp [hno] at hfound
  have hsame := (install_fails_same_iff h).mpr (fun hboth => hreg hboth.1) (by decide)
  have hnone := (ensureChannel_fails_iff s.pool 1 2000).1.mp (by rw [hchannel]; decide)
  exact ⟨s, s', -12, hs, h, rfl, hnone, hsame⟩

/-- The thirty-third routine has no channel. Its installation fails, and it is in the table. -/
theorem install_fails_registered :
    ((run step fresh ((List.range' 1 32).map fun n => .install (nthRoutine n))).bind fun s =>
        (s.installRoutine (nthRoutine 33)).map fun x =>
          (x.2, (s.table.findRoutineEx 33).map Option.isSome, s.table.count,
            (x.1.table.findRoutineEx 33).map Option.isSome, x.1.table.count)) =
      some (-12, some false, 32, some true, 33) := by
  decide +kernel

end Installation

end CpuComm
