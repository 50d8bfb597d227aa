import H713.CpuComm.Routine.Remove
import Mathlib.Data.Finmap

/-!
# The routine table as a finite map

Calls of `AddInRoutine` and `RemoveRoutine` in any order, next to the finite map of the routines
that are registered.
-/

namespace CpuComm

open Machine Function

namespace Table

def Unlinked (t : Table) (d : RoutineDesc) : Prop :=
  (∀ i ∈ t.bucket d.compId, t.compId i ≠ d.compId ∧ t.compId i ≠ 0) →
    ∀ o ∈ t.overflowSlot, ∀ i < rtMaxIndex + 1, t.next i ≠ o

instance (t : Table) (d : RoutineDesc) : Decidable (t.Unlinked d) :=
  inferInstanceAs (Decidable (_ → ∀ o ∈ t.overflowSlot, _))

variable {t t' : Table} {d : RoutineDesc} {c i : ℕ} {r : ℤ} {l : List ℕ}

def Within (t : Table) : Prop := ∀ i, rtMaxIndex < i → t.next i = -1

lemma Adds.within (h : t.Ok) (hw : t.Within) (ha : Adds t d t' r) : t'.Within := by
  intro i hi
  cases ha with
  | present => exact hw i hi
  | fill _ _ _ _ _ hn | full _ hn | corrupt _ _ _ hn => exact hn ▸ hw i hi
  | @link _ p o _ hl _ _ hp _ _ _ hn =>
    have hip : i ≠ p := by
      rintro rfl
      simp only [rtMaxIndex] at hi
      rcases List.mem_cons.mp hp with rfl | hp
      · have := hashIdx_lt d.compId
        omega
      · have := h.links.mem_chain hl hp
        omega
    rw [hn, update_of_ne hip]
    exact hw i hi

lemma Removes.within (hw : t.Within) (hr : Removes t c t') : t'.Within := by
  intro k hk
  cases hr with
  | absent _ _ hn | last _ _ _ hn => exact hn ▸ hw k hk
  | @middle i j _ _ hij _ _ _ hn =>
    have hki : k ≠ i := by
      rintro rfl
      have := hw k hk
      omega
    rcases eq_or_ne k j with rfl | hkj
    · rw [hn, update_self]
    · rw [hn, update_of_ne hkj, update_of_ne hki]
      exact hw k hk

lemma Adds.linkedOnce (h : t.Ok) (hw : t.Within) (ho : t.LinkedOnce) (hs : t.Unlinked d)
    (ha : Adds t d t' r) : t'.LinkedOnce := by
  cases ha with
  | present => exact ho
  | fill _ _ _ _ _ hn | full _ hn | corrupt _ _ _ hn => exact fun j k => hn ▸ ho j k
  | @link _ p o _ hl hnew hocc _ _ hov _ hn =>
    have hunlinked : ∀ j, t.next j ≠ o := by
      intro j
      by_cases hj : j < rtMaxIndex + 1
      · rw [Unlinked, h.bucket_eq hl] at hs
        exact hs (fun k hk => ⟨hnew k hk, hocc k hk⟩) o hov j hj
      · rw [hw j (by omega)]
        omega
    intro j k hj hjk
    rw [hn] at hj hjk
    rcases eq_or_ne j p with rfl | hjp <;> rcases eq_or_ne k j with rfl | hkj
    · rfl
    · rw [update_self, update_of_ne hkj] at hjk
      exact absurd hjk.symm (hunlinked k)
    · rfl
    · rw [update_of_ne hjp] at hj hjk
      rcases eq_or_ne k p with rfl | hkp
      · rw [update_self] at hjk
        exact absurd hjk (hunlinked j)
      · rw [update_of_ne hkp] at hjk
        exact ho j k hj hjk

end Table

/-! ### The registered routines -/

def Routine : Type := { d : RoutineDesc // d.compId ≠ 0 ∧ d.cpu ≤ 1 }

inductive RoutineOp
  | add (d : Routine)
  | remove (d : Routine)

/-- The table, and the map of the registered routines. -/
structure Registry where
  table : Table
  routines : Finmap fun _ : ℕ => RoutineDesc

namespace Registry

def init (stale : ℕ → RoutineDesc) : Registry := ⟨Table.init stale, ∅⟩

def register (m : Finmap fun _ : ℕ => RoutineDesc) (d : RoutineDesc) (r : ℤ) :
    Finmap fun _ : ℕ => RoutineDesc :=
  if r = 0 ∧ d.compId ∉ m then m.insert d.compId d else m

def step (s : Registry) : RoutineOp → Option Registry
  | .add d => (s.table.addInRoutine d.1).map fun a => ⟨a.1, register s.routines d.1 a.2⟩
  | .remove d => (s.table.removeRoutine d.1).map fun a => ⟨a.1, s.routines.erase d.1.compId⟩

def SlotFree (s : Registry) : RoutineOp → Prop
  | .add d => s.table.HasRoom d.1 ∧ s.table.Unlinked d.1
  | .remove _ => True

instance (s : Registry) : ∀ op, Decidable (s.SlotFree op)
  | .add d => inferInstanceAs (Decidable (s.table.HasRoom d.1 ∧ s.table.Unlinked d.1))
  | .remove _ => .isTrue trivial

/-- The table holds the registered routines. -/
structure Inv (s : Registry) : Prop where
  ok : s.table.Ok
  once : s.table.LinkedOnce
  within : s.table.Within
  cpu : ∀ i, s.table.compId i ≠ 0 → (s.table.desc i).cpu ≤ 1
  holds : ∀ c, c ≠ 0 → ∀ e,
    s.routines.lookup c = some e ↔ (∃ k, s.table.desc k = e) ∧ e.compId = c
  count : s.table.count = s.routines.keys.card
  room : s.table.count ≤ rtMaxIndex

variable {s : Registry} {c : ℕ} {d : RoutineDesc}

lemma Inv.init (stale : ℕ → RoutineDesc) : (init stale).Inv where
  ok := .init stale
  once _ _ h := absurd h (by decide : ¬ (0 : ℤ) ≤ -1)
  within _ _ := rfl
  cpu i h := absurd (rfl : (Table.init stale).compId i = 0) h
  holds c hc e := by
    have hno : ¬ ((∃ k, (Table.init stale).desc k = e) ∧ e.compId = c) := by
      rintro ⟨⟨k, rfl⟩, hk⟩
      exact hc hk.symm
    simpa [Registry.init] using hno
  count := rfl
  room := (by decide : (0 : ℤ) ≤ rtMaxIndex)

lemma Inv.notMem_iff (h : s.Inv) (hd : d.compId ≠ 0) :
    d.compId ∉ s.routines ↔ s.table.New d := by
  rw [Finmap.mem_iff]
  constructor
  · intro hn k hk
    exact hn ⟨s.table.desc k, (h.holds _ hd _).mpr ⟨⟨k, rfl⟩, hk⟩⟩
  · rintro hn ⟨e, he⟩
    obtain ⟨⟨k, rfl⟩, hk⟩ := (h.holds _ hd _).mp he
    exact hn k hk

lemma keys_insert {m : Finmap fun _ : ℕ => RoutineDesc} (hc : c ∉ m) :
    (m.insert c d).keys.card = m.keys.card + 1 := by
  have hk : (m.insert c d).keys = insert c m.keys := by
    ext a
    simp [Finmap.mem_keys, Finmap.mem_insert]
  rw [hk, Finset.card_insert_of_notMem (by rwa [Finmap.mem_keys])]

lemma Inv.lookup_register {t' : Table} {r : ℤ} (h : s.Inv) (hd : d.compId ≠ 0)
    (ha : Table.Adds s.table d t' r) (hc : c ≠ 0) (e : RoutineDesc) :
    (register s.routines d r).lookup c = some e ↔ (∃ k, t'.desc k = e) ∧ e.compId = c := by
  have hiff : (∃ k, t'.desc k = e) ∧ e.compId = c ↔
      ((∃ k, s.table.desc k = e) ∧ e.compId = c) ∨
        (e = d ∧ r = 0 ∧ s.table.New d) ∧ e.compId = c := by
    constructor
    · rintro ⟨hk, rfl⟩
      exact ((ha.desc_iff h.ok hd hc).mp hk).imp (⟨·, rfl⟩) (⟨·, rfl⟩)
    · rintro (⟨hk, rfl⟩ | ⟨hk, rfl⟩)
      · exact ⟨(ha.desc_iff h.ok hd hc).mpr (.inl hk), rfl⟩
      · exact ⟨(ha.desc_iff h.ok hd hc).mpr (.inr hk), rfl⟩
  rw [hiff, ← h.holds c hc e]
  by_cases hn : r = 0 ∧ d.compId ∉ s.routines
  · have hnew := (h.notMem_iff hd).mp hn.2
    rw [register, if_pos hn]
    rcases eq_or_ne c d.compId with rfl | hcd
    · rw [Finmap.lookup_insert, Finmap.lookup_eq_none.mpr hn.2]
      constructor
      · rintro ⟨⟩
        exact .inr ⟨⟨rfl, hn.1, hnew⟩, rfl⟩
      · rintro (hno | ⟨⟨rfl, -⟩, -⟩)
        · cases hno
        · rfl
    · rw [Finmap.lookup_insert_of_ne _ hcd]
      refine ⟨.inl, fun hk => hk.resolve_right ?_⟩
      rintro ⟨⟨rfl, -⟩, hec⟩
      exact hcd hec.symm
  · rw [register, if_neg hn]
    refine ⟨.inl, fun hk => hk.resolve_right ?_⟩
    rintro ⟨⟨-, hr, hnew⟩, -⟩
    exact hn ⟨hr, (h.notMem_iff hd).mpr hnew⟩

lemma Inv.add (h : s.Inv) (d : Routine) (hs : s.SlotFree (.add d)) :
    ∃ s', s.step (.add d) = some s' ∧ s'.Inv := by
  obtain ⟨d, hd0, hdcpu⟩ := d
  obtain ⟨t', r, ha, hadd⟩ := Table.addInRoutine_adds h.ok h.room d
  refine ⟨⟨t', register s.routines d r⟩, by simp only [step, ha]; rfl, ?_⟩
  refine ⟨hadd.ok h.ok, hadd.linkedOnce h.ok h.within h.once hs.2, hadd.within h.ok h.within,
    fun i hi => ?_, fun c hc e => h.lookup_register hd0 hadd hc e, ?_,
    hadd.count_le_max h.ok h.room hs.1⟩
  · rcases (hadd.desc_iff h.ok hd0 hi).mp ⟨i, rfl⟩ with ⟨k, hk⟩ | ⟨heq, -⟩
    · have hcpu := h.cpu k
      rw [Table.compId, hk] at hcpu
      exact hcpu hi
    · rw [heq]
      exact hdcpu
  · change t'.count = ((register s.routines d r).keys.card : ℤ)
    rw [register]
    rcases hadd.count_eq h.ok hd0 with ⟨hn, hk⟩ | ⟨hn, hk⟩ <;> rw [← h.notMem_iff hd0] at hn
    · rw [if_pos hn, keys_insert hn.2, hk, h.count]
      rfl
    · rw [if_neg hn, hk, h.count]

lemma Inv.remove (h : s.Inv) (d : Routine) : ∃ s', s.step (.remove d) = some s' ∧ s'.Inv := by
  obtain ⟨d, hd0, -⟩ := d
  obtain ⟨t', r, hr, hrem⟩ := Table.removeRoutine_removes h.ok h.room h.cpu hd0
  refine ⟨⟨t', s.routines.erase d.compId⟩, by simp only [step, hr]; rfl, ?_⟩
  have hdesc := fun {e : RoutineDesc} (he : e.compId ≠ 0) => hrem.desc_iff h.ok hd0 he
  have hcount : t'.count = ((s.routines.erase d.compId).keys.card : ℤ) := by
    rw [Finmap.keys_erase]
    rcases hrem.count_eq with ⟨hn, hk⟩ | ⟨⟨k, hkc⟩, hk⟩
    · rw [Finset.erase_eq_of_notMem, hk, h.count]
      rw [Finmap.mem_keys]
      exact (h.notMem_iff hd0).mpr hn
    · have hmem : d.compId ∈ s.routines.keys := by
        rw [Finmap.mem_keys, ← not_not (a := d.compId ∈ s.routines), h.notMem_iff hd0]
        exact fun hn => hn k hkc
      have hpos := Finset.card_pos.mpr ⟨_, hmem⟩
      rw [Finset.card_erase_of_mem hmem, hk, h.count]
      omega
  have hle : t'.count ≤ s.table.count := by
    rcases hrem.count_eq with ⟨-, hk⟩ | ⟨-, hk⟩ <;> omega
  refine ⟨hrem.ok h.ok h.once, hrem.linkedOnce h.once, hrem.within h.within, fun i hi => ?_,
    fun c hc e => ?_, hcount, hle.trans h.room⟩
  · obtain ⟨⟨k, hk⟩, -⟩ := (hdesc hi).mp ⟨i, rfl⟩
    have hcpu := h.cpu k
    rw [Table.compId, hk] at hcpu
    exact hcpu hi
  · change (s.routines.erase d.compId).lookup c = some e ↔ (∃ k, t'.desc k = e) ∧ e.compId = c
    rcases eq_or_ne c d.compId with rfl | hcd
    · rw [Finmap.lookup_erase]
      constructor
      · intro hnone
        cases hnone
      · rintro ⟨hk, hec⟩
        exact absurd hec ((hdesc (hec ▸ hc)).mp hk).2
    · rw [Finmap.lookup_erase_ne hcd, h.holds c hc e]
      constructor
      · rintro ⟨hk, rfl⟩
        exact ⟨(hdesc hc).mpr ⟨hk, hcd⟩, rfl⟩
      · rintro ⟨hk, rfl⟩
        exact ⟨((hdesc hc).mp hk).1, rfl⟩

lemma Inv.step (h : s.Inv) (op : RoutineOp) (hs : s.SlotFree op) :
    ∃ s', s.step op = some s' ∧ s'.Inv := by
  cases op with
  | add d => exact h.add d hs
  | remove d => exact h.remove d

lemma Inv.find_eq (h : s.Inv) (hc : c ≠ 0) :
    s.table.findRoutineEx c = some (s.routines.lookup c) := by
  obtain ⟨o, ho⟩ := h.ok.exists_find h.room c
  rw [ho]
  congr 1
  refine Option.ext fun e => ?_
  rw [h.holds c hc e]
  constructor
  · intro he
    obtain ⟨k, hk⟩ := (h.ok.find_eq_some_iff h.room hc).mp (ho.trans (congrArg some he))
    exact ⟨⟨k, hk.1⟩, hk.2⟩
  · rintro ⟨⟨k, hk⟩, hec⟩
    exact Option.some.inj (ho.symm.trans ((h.ok.find_eq_some_iff h.room hc).mpr ⟨k, hk, hec⟩))

/-- When no call takes an overflow slot that is still linked, or fills the table, every sequence of
calls returns, and look-ups find exactly the registered routines, which are counted. -/
theorem routine_table_refines_map (stale : ℕ → RoutineDesc) {ops : List RoutineOp}
    (hok : Guarded Registry.step SlotFree (init stale) ops) :
    ∃ s, run Registry.step (init stale) ops = some s ∧
      (∀ c, c ≠ 0 → s.table.findRoutineEx c = some (s.routines.lookup c)) ∧
      s.table.count = s.routines.keys.card := by
  obtain ⟨s, hr, h⟩ := hok.exists_run (fun s op h hs => h.step op hs) (Inv.init stale)
  exact ⟨s, hr, fun c hc => h.find_eq hc, h.count⟩

def routine (c : ℕ) (hc : c ≠ 0) : Routine := ⟨⟨0, 0, 0, c, fun _ => 0, (0, 0)⟩, hc, Nat.zero_le 1⟩

def zeroed : Registry := init fun _ => ⟨0, 0, 0, 0, fun _ => 0, (0, 0)⟩

def reRegister : List RoutineOp :=
  [.add (routine 1 (by decide)), .add (routine 1025 (by decide)),
    .remove (routine 1025 (by decide)), .add (routine 1025 (by decide))]

theorem routine_table_refines_map_again :
    Guarded Registry.step SlotFree zeroed reRegister ∧
      ∃ s, run Registry.step zeroed reRegister = some s ∧
        (∀ c, c ≠ 0 → s.table.findRoutineEx c = some (s.routines.lookup c)) ∧
        s.table.count = s.routines.keys.card := by
  have hok : Guarded Registry.step SlotFree zeroed reRegister := by decide +kernel
  exact ⟨hok, routine_table_refines_map _ hok⟩

def removeBesideChain : List RoutineOp :=
  [.add (routine 1 (by decide)), .add (routine 1025 (by decide)),
    .remove (routine 1025 (by decide)), .add (routine 2 (by decide)),
    .add (routine 1026 (by decide)), .remove (routine 1 (by decide))]

theorem routine_lost_on_remove :
    ∃ s, run Registry.step zeroed removeBesideChain = some s ∧ 1026 ∈ s.routines ∧
      s.table.findRoutineEx 1026 = some none := by
  have h : (run Registry.step zeroed removeBesideChain).map
      (fun s => ((s.routines.lookup 1026).isSome, s.table.findRoutineEx 1026)) =
        some (true, some none) := by decide +kernel
  obtain ⟨s, hs, heq⟩ := Option.map_eq_some_iff.mp h
  obtain ⟨hm, hf⟩ := Prod.mk.inj heq
  exact ⟨s, hs, Finmap.lookup_isSome.mp hm, hf⟩

end Registry

end CpuComm
