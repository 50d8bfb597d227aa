import H713.CpuComm.Routine.Chains

/-!
# The lock and the version of the routine table

`AddInRoutine` and `RemoveRoutine` change the table under spinlock 2 and count its version up before
and after. Here each return path comes with what it does to the lock and the version.
-/

namespace CpuComm

open Machine Option

/-- What a return path does to spinlock 2 and to the version counter. -/
inductive LockEvent
  | spinLock
  | bump
  | spinUnLock
deriving DecidableEq

namespace Table

variable {t : Table} {d : RoutineDesc} {c i j n : ℕ} {p : ℤ}

/-! ### The calls with their events -/

def addOverflowLocked (t : Table) (d : RoutineDesc) (prev : ℤ) : (Table × ℤ) × List LockEvent :=
  match t.overflowSlot with
  | none => ((t.bumpVersion, -2), [.bump, .spinUnLock])
  | some o =>
    if t.next o ≠ -1 then ((t, -22), [.spinUnLock])
    else if 0 ≤ prev then
      ((((t.place o d).setNext prev.toNat o).bumpVersion, 0), [.bump, .spinUnLock])
    else (((t.place o d).bumpVersion, 0), [.bump, .spinUnLock])

def addNewLocked (t : Table) (d : RoutineDesc) : Option ((Table × ℤ) × List LockEvent) :=
  let h := hashIdx d.compId
  if t.compId h = 0 ∧ t.next h = -1 then
    some (((t.place h d).bumpVersion, 0), [.bump, .spinUnLock])
  else (t.addWalk walkFuel (-1) h).map fun
    | .error e => ((t, e), [.spinUnLock])
    | .ok (prev, cur) =>
      if 0 ≤ cur ∧ t.next cur.toNat = -1 then
        (((t.place cur.toNat d).bumpVersion, 0), [.bump, .spinUnLock])
      else t.addOverflowLocked d prev

def addInRoutineLocked (t : Table) (d : RoutineDesc) : Option ((Table × ℤ) × List LockEvent) :=
  if t.count > rtMaxIndex then some ((t, -22), [])
  else (t.findRoutineEx d.compId).bind fun
    | some _ => some ((t, 0), [])
    | none => (t.bumpVersion.addNewLocked d).map fun x => (x.1, [.spinLock, .bump] ++ x.2)

def removeAtLocked (t : Table) (d : RoutineDesc) (cur : ℕ) : (Table × ℤ) × List LockEvent :=
  if (t.desc cur).cpu > 1 then ((t, -14), [])
  else
    let t := t.unlink cur
    (({ t with count := t.count - 1 }.bumpVersion, t.removeResult d cur), [.bump, .spinUnLock])

def removeCheckedLocked (t : Table) (d : RoutineDesc) : Option ((Table × ℤ) × List LockEvent) :=
  (t.walk d.compId walkFuel (hashIdx d.compId)).map fun
    | .absent => ((t.bumpVersion, -1), [.bump, .spinUnLock])
    | .outOfRange => ((t, -14), [])
    | .found cur => t.removeAtLocked d cur

def removeRoutineLocked (t : Table) (d : RoutineDesc) : Option ((Table × ℤ) × List LockEvent) :=
  if t.count > rtMaxIndex then some ((t, -22), [])
  else (t.bumpVersion.removeCheckedLocked d).map fun x => (x.1, [.spinLock, .bump] ++ x.2)

/-! ### The events go with the calls -/

lemma addOverflowLocked_fst (t : Table) (d : RoutineDesc) (p : ℤ) :
    (t.addOverflowLocked d p).1 = t.addOverflow d p := by
  rw [addOverflowLocked, addOverflow]
  cases t.overflowSlot with
  | none => rfl
  | some o => simp only [apply_ite Prod.fst]

lemma addNewLocked_fst (t : Table) (d : RoutineDesc) :
    (t.addNewLocked d).map Prod.fst = t.addNew d := by
  simp only [addNewLocked, addNew, apply_ite (Option.map Prod.fst), map_some, map_map]
  congr 2
  funext w
  rcases w with e | ⟨prev, cur⟩
  · rfl
  · simp only [Function.comp_apply, apply_ite Prod.fst, addOverflowLocked_fst]

/-- Without the events, a call does what the model of the table says. -/
theorem addInRoutineLocked_fst (t : Table) (d : RoutineDesc) :
    (t.addInRoutineLocked d).map Prod.fst = t.addInRoutine d := by
  rw [addInRoutineLocked, addInRoutine, apply_ite (Option.map Prod.fst), map_some]
  congr 1
  rcases t.findRoutineEx d.compId with _ | _ | e
  · rfl
  · rw [bind_some, bind_some, map_map, ← addNewLocked_fst]
    rfl
  · rfl

theorem removeRoutineLocked_fst (t : Table) (d : RoutineDesc) :
    (t.removeRoutineLocked d).map Prod.fst = t.removeRoutine d := by
  simp only [removeRoutineLocked, removeRoutine, removeCheckedLocked, removeChecked,
    apply_ite (Option.map Prod.fst), map_some, map_map]
  congr 2
  funext w
  cases w with
  | absent | outOfRange => rfl
  | found k =>
    simp only [Function.comp_apply, removeAtLocked, removeAt, apply_ite Prod.fst]

/-! ### The slots of a walk -/

/-- The walk for component id `c` from slot `i` comes to slot `j`. -/
inductive Seeks (t : Table) (c : ℕ) : ℕ → ℕ → Prop
  | here (i : ℕ) : Seeks t c i i
  | next {i j : ℕ} : t.compId i ≠ c → 0 ≤ t.next i → t.next i ≤ rtMaxIndex →
      Seeks t c (t.next i).toNat j → Seeks t c i j

def GoesOn (t : Table) (c i : ℕ) : Prop := t.compId i ≠ c ∧ 0 ≤ t.next i ∧ t.next i ≤ rtMaxIndex

lemma seeks_iff : t.Seeks c i j ↔ j = i ∨ t.GoesOn c i ∧ t.Seeks c (t.next i).toNat j := by
  constructor
  · rintro (_ | ⟨hc, h0, hle, hs⟩)
    · exact .inl rfl
    · exact .inr ⟨⟨hc, h0, hle⟩, hs⟩
  · rintro (rfl | ⟨⟨hc, h0, hle⟩, hs⟩)
    · exact .here j
    · exact .next hc h0 hle hs

lemma seeks_of_not (h : ¬ t.GoesOn c i) : t.Seeks c i j ↔ j = i := by
  rw [seeks_iff, or_iff_left fun hs => h hs.1]

lemma forall_seeks {P : ℕ → Prop} (h : t.GoesOn c i) :
    (∀ j, t.Seeks c i j → P j) ↔ P i ∧ ∀ j, t.Seeks c (t.next i).toNat j → P j := by
  simp only [seeks_iff (i := i), h, true_and, or_imp, forall_and, forall_eq]

lemma exists_seeks {P : ℕ → Prop} (h : t.GoesOn c i) :
    (∃ j, t.Seeks c i j ∧ P j) ↔ P i ∨ ∃ j, t.Seeks c (t.next i).toNat j ∧ P j := by
  simp only [seeks_iff (i := i), h, true_and, or_and_right, exists_or, exists_eq_left]

def RemoveClean (t : Table) (d : RoutineDesc) : Prop :=
  ∀ j, t.Seeks d.compId (hashIdx d.compId) j →
    if t.compId j = d.compId then (t.desc j).cpu ≤ 1 else t.next j ≤ rtMaxIndex

def HasEnd (t : Table) (d : RoutineDesc) : Prop :=
  ∃ j, t.Seeks 0 (hashIdx d.compId) j ∧ t.compId j = 0 ∧ t.next j = -1

def AddClean (t : Table) (d : RoutineDesc) : Prop :=
  (∀ j, t.Seeks 0 (hashIdx d.compId) j → t.compId j ≠ 0 →
    (t.desc j).cpu ≤ 1 ∧ t.next j ≤ rtMaxIndex) ∧
  (t.HasEnd d ∨ ∀ o ∈ t.overflowSlot, t.next o = -1)

lemma seeks_bumpVersion : t.bumpVersion.Seeks c i j ↔ t.Seeks c i j := by
  constructor
  · intro h
    induction h with
    | here i => exact .here i
    | next hc h0 hle _ ih => exact .next hc h0 hle ih
  · intro h
    induction h with
    | here i => exact .here i
    | next hc h0 hle _ ih => exact .next hc h0 hle ih

lemma removeClean_bumpVersion (t : Table) (d : RoutineDesc) :
    t.bumpVersion.RemoveClean d ↔ t.RemoveClean d := by
  simp only [RemoveClean, seeks_bumpVersion]
  rfl

lemma addClean_bumpVersion (t : Table) (d : RoutineDesc) :
    t.bumpVersion.AddClean d ↔ t.AddClean d := by
  simp only [AddClean, HasEnd, seeks_bumpVersion]
  rfl

def CleanWalk (t : Table) : Walk → Prop
  | .found k => (t.desc k).cpu ≤ 1
  | .absent => True
  | .outOfRange => False

lemma walk_clean {w : Walk} (hw : t.walk c n i = some w) :
    (∀ j, t.Seeks c i j → if t.compId j = c then (t.desc j).cpu ≤ 1 else t.next j ≤ rtMaxIndex) ↔
      t.CleanWalk w := by
  induction n generalizing i with
  | zero => cases hw
  | succ n ih =>
    rw [walk] at hw
    split_ifs at hw with hc hneg hmax
    · obtain rfl := Option.some.inj hw
      simp only [seeks_of_not (fun h : t.GoesOn c i => h.1 hc), forall_eq, if_pos hc, CleanWalk]
    · obtain rfl := Option.some.inj hw
      simp only [seeks_of_not (fun h : t.GoesOn c i => absurd h.2.1 (by omega)),
        forall_eq, if_neg hc,
        CleanWalk, iff_true]
      omega
    · obtain rfl := Option.some.inj hw
      simp only [seeks_of_not (fun h : t.GoesOn c i => absurd h.2.2 (by omega)),
        forall_eq, if_neg hc,
        CleanWalk, iff_false]
      omega
    · have hgo : t.GoesOn c i := ⟨hc, by omega, by omega⟩
      rw [← ih hw, forall_seeks hgo, if_neg hc, and_iff_right (by omega)]

lemma addWalk_clean {w : Except ℤ (ℤ × ℤ)} (hw : t.addWalk n p i = some w) :
    ((∀ j, t.Seeks 0 i j → t.compId j ≠ 0 → (t.desc j).cpu ≤ 1 ∧ t.next j ≤ rtMaxIndex) ↔
        w.toBool) ∧
      ∀ prev cur, w = .ok (prev, cur) →
        ((∃ j, t.Seeks 0 i j ∧ t.compId j = 0 ∧ t.next j = -1) ↔
          0 ≤ cur ∧ t.next cur.toNat = -1) := by
  induction n generalizing p i with
  | zero => cases hw
  | succ n ih =>
    rw [addWalk] at hw
    split_ifs at hw with hc hcpu hneg hmax
    · obtain rfl := Option.some.inj hw
      simp only [seeks_of_not (fun h : t.GoesOn 0 i => h.1 hc), forall_eq, exists_eq_left, hc]
      simp [Except.toBool]
    · obtain rfl := Option.some.inj hw
      refine ⟨⟨fun h => absurd (h i (.here i) hc).1 (by omega), fun h => by cases h⟩,
        fun _ _ h => by cases h⟩
    · obtain rfl := Option.some.inj hw
      simp only [seeks_of_not (fun h : t.GoesOn 0 i => absurd h.2.1 (by omega)), forall_eq,
        exists_eq_left]
      refine ⟨⟨fun _ => rfl, fun _ _ => ⟨by omega, by omega⟩⟩, ?_⟩
      intro prev cur he
      cases he
      exact ⟨fun h => absurd h.1 hc, fun h => absurd h.1 (by omega)⟩
    · obtain rfl := Option.some.inj hw
      refine ⟨⟨fun h => absurd (h i (.here i) hc).2 (by omega), fun h => by cases h⟩,
        fun _ _ h => by cases h⟩
    · have hgo : t.GoesOn 0 i := ⟨hc, by omega, by omega⟩
      obtain ⟨ih₁, ih₂⟩ := ih hw
      constructor
      · rw [← ih₁, forall_seeks hgo, and_iff_right fun _ => ⟨by omega, by omega⟩]
      · intro prev cur he
        rw [← ih₂ prev cur he, exists_seeks hgo, or_iff_right fun h => hc h.1]

/-! ### Balanced returns -/

/-- The lock is released once, and the version is counted up twice. -/
structure Balanced (t : Table) (x : (Table × ℤ) × List LockEvent) : Prop where
  released : x.2.count .spinUnLock = 1
  bumps : x.2.count .bump = 2
  version : x.1.1.version = u32 (t.version + 2)

lemma version_unlink (t : Table) (k : ℕ) : (t.unlink k).version = t.version := by
  simp only [unlink, apply_ite Table.version]
  exact ite_self _

lemma balanced_iff {x : (Table × ℤ) × List LockEvent}
    (h : x.2 = [.bump, .spinUnLock] ∧ x.1.1.version = u32 (t.bumpVersion.version + 1) ∨
      x.2 = [.spinUnLock] ∨ x.2 = []) :
    Balanced t (x.1, [.spinLock, .bump] ++ x.2) ↔ x.2 = [.bump, .spinUnLock] := by
  constructor
  · intro hb
    have hbumps := hb.bumps
    rcases h with ⟨he, -⟩ | he | he
    · exact he
    · simp [he] at hbumps
    · simp [he] at hbumps
  · intro he
    have hv : x.1.1.version = u32 (t.bumpVersion.version + 1) := by
      rcases h with ⟨-, hv⟩ | he' | he'
      · exact hv
      · simp [he] at he'
      · simp [he] at he'
    refine ⟨by simp [he], by simp [he], ?_⟩
    rw [hv]
    simp only [bumpVersion, u32]
    omega

lemma addOverflowLocked_events (t : Table) (d : RoutineDesc) (p : ℤ) :
    (∀ o ∈ t.overflowSlot, t.next o = -1) ∧ (t.addOverflowLocked d p).2 = [.bump, .spinUnLock] ∧
        (t.addOverflowLocked d p).1.1.version = u32 (t.version + 1) ∨
      (¬ ∀ o ∈ t.overflowSlot, t.next o = -1) ∧ (t.addOverflowLocked d p).2 = [.spinUnLock] := by
  rw [addOverflowLocked]
  cases t.overflowSlot with
  | none => exact .inl ⟨fun _ h => (by cases h), rfl, rfl⟩
  | some o =>
    simp only [mem_def, Option.some.injEq, forall_eq']
    split_ifs with hn hp
    · exact .inr ⟨hn, rfl⟩
    · exact .inl ⟨not_not.mp hn, rfl, rfl⟩
    · exact .inl ⟨not_not.mp hn, rfl, rfl⟩

lemma addNewLocked_events {x : (Table × ℤ) × List LockEvent} (hx : t.addNewLocked d = some x) :
    t.AddClean d ∧ x.2 = [.bump, .spinUnLock] ∧ x.1.1.version = u32 (t.version + 1) ∨
      ¬ t.AddClean d ∧ x.2 = [.spinUnLock] := by
  rw [addNewLocked] at hx
  split_ifs at hx with h0
  · -- the primary slot is free, and the walk would stop there
    obtain rfl := Option.some.inj hx
    have hstop : ¬ t.GoesOn 0 (hashIdx d.compId) := fun h => h.1 h0.1
    refine .inl ⟨⟨fun j hj hc => ?_, .inl ⟨_, .here _, h0⟩⟩, rfl, rfl⟩
    rw [(seeks_of_not hstop).mp hj] at hc
    exact absurd h0.1 hc
  · obtain ⟨w, hw, rfl⟩ := map_eq_some_iff.mp hx
    obtain ⟨hclean, hend⟩ := addWalk_clean hw
    rcases w with e | ⟨prev, cur⟩
    · exact .inr ⟨fun h => absurd (hclean.mp h.1) (by simp [Except.toBool]), rfl⟩
    · have hall := hclean.mpr rfl
      have hend' : t.HasEnd d ↔ 0 ≤ cur ∧ t.next cur.toNat = -1 := hend prev cur rfl
      simp only
      split_ifs with hc
      · exact .inl ⟨⟨hall, .inl (hend'.mpr hc)⟩, rfl, rfl⟩
      · have hno : ¬ t.HasEnd d := fun h => hc (hend'.mp h)
        rcases addOverflowLocked_events t d prev with ⟨ho, hev⟩ | ⟨ho, hev⟩
        · exact .inl ⟨⟨hall, .inr ho⟩, hev⟩
        · exact .inr ⟨fun h => ho (h.2.resolve_left hno), hev⟩

lemma removeCheckedLocked_events {x : (Table × ℤ) × List LockEvent}
    (hx : t.removeCheckedLocked d = some x) :
    t.RemoveClean d ∧ x.2 = [.bump, .spinUnLock] ∧ x.1.1.version = u32 (t.version + 1) ∨
      ¬ t.RemoveClean d ∧ x.2 = [] := by
  obtain ⟨w, hw, rfl⟩ := map_eq_some_iff.mp hx
  have hclean : t.RemoveClean d ↔ t.CleanWalk w := walk_clean hw
  cases w with
  | absent => exact .inl ⟨hclean.mpr trivial, rfl, rfl⟩
  | outOfRange => exact .inr ⟨hclean.mp, rfl⟩
  | found k =>
    simp only [removeAtLocked]
    split_ifs with hcpu
    · exact .inr ⟨fun h => absurd (hclean.mp h) (not_le.mpr hcpu), rfl⟩
    · refine .inl ⟨hclean.mpr (not_lt.mp hcpu), rfl, ?_⟩
      rw [← version_unlink t k]
      rfl

/-- A return path of `AddInRoutine` or `RemoveRoutine` that took the lock is balanced exactly if the
slots of its walk are clean. -/
theorem locked_balanced_iff (t : Table) (d : RoutineDesc) :
    (∀ x, t.addInRoutineLocked d = some x → .spinLock ∈ x.2 → (Balanced t x ↔ t.AddClean d)) ∧
      ∀ x, t.removeRoutineLocked d = some x → .spinLock ∈ x.2 →
        (Balanced t x ↔ t.RemoveClean d) := by
  constructor
  · intro x hx hl
    rw [addInRoutineLocked] at hx
    split_ifs at hx
    · obtain rfl := Option.some.inj hx
      cases hl
    · obtain ⟨f, -, hx⟩ := bind_eq_some_iff.mp hx
      cases f with
      | some e =>
        obtain rfl := Option.some.inj hx
        cases hl
      | none =>
        obtain ⟨y, hy, rfl⟩ := map_eq_some_iff.mp hx
        have hclean : t.bumpVersion.AddClean d ↔ t.AddClean d := addClean_bumpVersion t d
        rcases addNewLocked_events hy with ⟨hc, he, hv⟩ | ⟨hc, he⟩
        · rw [balanced_iff (.inl ⟨he, hv⟩), ← hclean]
          exact iff_of_true he hc
        · rw [balanced_iff (.inr (.inl he)), ← hclean]
          exact iff_of_false (by simp [he]) hc
  · intro x hx hl
    rw [removeRoutineLocked] at hx
    split_ifs at hx
    · obtain rfl := Option.some.inj hx
      cases hl
    · obtain ⟨y, hy, rfl⟩ := map_eq_some_iff.mp hx
      have hclean : t.bumpVersion.RemoveClean d ↔ t.RemoveClean d := removeClean_bumpVersion t d
      rcases removeCheckedLocked_events hy with ⟨hc, he, hv⟩ | ⟨hc, he⟩
      · rw [balanced_iff (.inl ⟨he, hv⟩), ← hclean]
        exact iff_of_true he hc
      · rw [balanced_iff (.inr (.inr he)), ← hclean]
        exact iff_of_false (by simp [he]) hc

def cpuDesc (cpu compId : ℕ) : RoutineDesc := ⟨0, cpu, 0, compId, fun _ => 0, (0, 0)⟩

def oneRoutine (cpu : ℕ) (next : ℤ) : Table :=
  ((init fun _ => cpuDesc 0 0).place 1 (cpuDesc cpu 1)).setNext 1 next

/-- A second routine for slot `1`, registered and removed. -/
theorem locked_balanced_iff_one :
    (∃ x, (oneRoutine 0 (-1)).addInRoutine (cpuDesc 0 1025) = some x.1 ∧ .spinLock ∈ x.2 ∧
      (Balanced (oneRoutine 0 (-1)) x ↔ (oneRoutine 0 (-1)).AddClean (cpuDesc 0 1025))) ∧
    ∃ x, (oneRoutine 0 (-1)).removeRoutine (cpuDesc 0 1025) = some x.1 ∧ .spinLock ∈ x.2 ∧
      (Balanced (oneRoutine 0 (-1)) x ↔ (oneRoutine 0 (-1)).RemoveClean (cpuDesc 0 1025)) := by
  have hadd : ((oneRoutine 0 (-1)).addInRoutineLocked (cpuDesc 0 1025)).map Prod.snd =
      some [.spinLock, .bump, .bump, .spinUnLock] := by decide +kernel
  have hrem : ((oneRoutine 0 (-1)).removeRoutineLocked (cpuDesc 0 1025)).map Prod.snd =
      some [.spinLock, .bump, .bump, .spinUnLock] := by decide +kernel
  obtain ⟨x, hx, hex⟩ := map_eq_some_iff.mp hadd
  obtain ⟨y, hy, hey⟩ := map_eq_some_iff.mp hrem
  have hlx : .spinLock ∈ x.2 := hex ▸ List.mem_cons_self
  have hly : .spinLock ∈ y.2 := hey ▸ List.mem_cons_self
  refine ⟨⟨x, ?_, hlx, (locked_balanced_iff _ _).1 x hx hlx⟩,
    ⟨y, ?_, hly, (locked_balanced_iff _ _).2 y hy hly⟩⟩
  · rw [← addInRoutineLocked_fst, hx, map_some]
  · rw [← removeRoutineLocked_fst, hy, map_some]

/-- With a CPU number of `2` in the table, a registration behind it counts the version up once, and
its removal keeps the lock. So does a removal that follows a link behind the table. -/
theorem locked_not_balanced :
    ((oneRoutine 2 (-1)).addInRoutineLocked (cpuDesc 0 1025)).map (fun x => (x.1.2, x.2)) =
        some (-22, [.spinLock, .bump, .spinUnLock]) ∧
      ((oneRoutine 2 (-1)).removeRoutineLocked (cpuDesc 2 1)).map (fun x => (x.1.2, x.2)) =
        some (-14, [.spinLock, .bump]) ∧
      ((oneRoutine 0 5000).removeRoutineLocked (cpuDesc 0 1025)).map (fun x => (x.1.2, x.2)) =
        some (-14, [.spinLock, .bump]) := by
  decide +kernel

end Table

end CpuComm
