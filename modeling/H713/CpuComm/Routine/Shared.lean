import H713.CpuComm.Init.Properties
import H713.CpuComm.Routine.Copy

/-!
# The routine table in shared memory

The calls on the table as stores to the shared memory, in the region from the version counter at
`+30144` to the end of the last slot at `+147656`. They do to `tableAt`, the table of the fields,
what the calls on the table do.
-/

namespace CpuComm

open Machine Machine.Bytes Function Option

namespace ShMem

variable (E : ShMem)

def rtEntry (i : ℕ) : ℕ := E.shMemAddrBase + 30152 + 96 * i

def tableAt (m : Bytes) : Table where
  version := m.rd32 (E.shMemAddrBase + 30144)
  count := i32 (m.rd32 (E.shMemAddrBase + 30148))
  entry i := rtEntryOf (m.suffix (E.rtEntry i))

/-! ### The calls -/

def rtSetNext (m : Bytes) (i : ℕ) (n : ℤ) : Bytes := m.wr32 (E.rtEntry i + 92) (ofInt32 n)

def rtClearCompId (m : Bytes) (i : ℕ) : Bytes := m.wr32 (E.rtEntry i + 8) 0

def rtBumpVersion (m : Bytes) : Bytes :=
  m.wr32 (E.shMemAddrBase + 30144) (u32 (m.rd32 (E.shMemAddrBase + 30144) + 1))

def rtIncCount (m : Bytes) : Bytes :=
  m.wr32 (E.shMemAddrBase + 30148) (u32 (m.rd32 (E.shMemAddrBase + 30148) + 1))

def rtDecCount (m : Bytes) : Bytes :=
  m.wr32 (E.shMemAddrBase + 30148) (sub32 (m.rd32 (E.shMemAddrBase + 30148)) 1)

def rtPlace (m : Bytes) (i : ℕ) (d : Bytes) : Bytes :=
  E.rtIncCount (E.rtSetNext (m.copy (E.rtEntry i) d 0 96) i (-1))

def rtAddOverflow (m d : Bytes) (prev : ℤ) : Bytes × ℤ :=
  match (E.tableAt m).overflowSlot with
  | none => (E.rtBumpVersion m, -2)
  | some o =>
    if (E.tableAt m).next o ≠ -1 then (m, -22)
    else if 0 ≤ prev then
      (E.rtBumpVersion (E.rtSetNext (E.rtPlace m o d) prev.toNat o), 0)
    else (E.rtBumpVersion (E.rtPlace m o d), 0)

def rtAddNew (m d : Bytes) : Option (Bytes × ℤ) :=
  let h := Table.hashIdx (d.rd32 8)
  if (E.tableAt m).compId h = 0 ∧ (E.tableAt m).next h = -1 then
    some (E.rtBumpVersion (E.rtPlace m h d), 0)
  else ((E.tableAt m).addWalk Table.walkFuel (-1) h).map fun
    | .error e => (m, e)
    | .ok (prev, cur) =>
      if 0 ≤ cur ∧ (E.tableAt m).next cur.toNat = -1 then
        (E.rtBumpVersion (E.rtPlace m cur.toNat d), 0)
      else E.rtAddOverflow m d prev

def Magic (m : Bytes) : Prop :=
  m.rd32 (E.shMemAddrBase + 144) = 0xDEADBEEF ∧ m.rd32 (E.shMemAddrBase + 30136) = 0xDEADBEEF

instance (m : Bytes) : Decidable (E.Magic m) := inferInstanceAs (Decidable (_ ∧ _))

def addInRoutine (m d : Bytes) : Option (Bytes × ℤ) :=
  if ¬ E.Magic m then some (m, -22)
  else if (E.tableAt m).count > rtMaxIndex then some (m, -22)
  else ((E.tableAt m).findRoutineEx (d.rd32 8)).bind fun
    | some _ => some (m, 0)
    | none => E.rtAddNew (E.rtBumpVersion m) d

def rtUnlink (m : Bytes) (cur : ℕ) : Bytes :=
  let m := E.rtClearCompId m cur
  let n := (E.tableAt m).next cur
  if 0 ≤ n ∧ n ≤ rtMaxIndex then
    let m := m.copy (E.rtEntry cur) m (E.rtEntry n.toNat) 96
    let m := E.rtSetNext m cur ((E.tableAt m).next n.toNat)
    E.rtSetNext (E.rtClearCompId m n.toNat) n.toNat (-1)
  else m

def rtRemoveAt (m d : Bytes) (cur : ℕ) : Bytes × ℤ :=
  if ((E.tableAt m).desc cur).cpu > 1 then (m, -14)
  else
    let m := E.rtDecCount (E.rtUnlink m cur)
    (E.rtBumpVersion m, (E.tableAt m).removeResult (descOfBytes d) cur)

def rtRemoveChecked (m d : Bytes) : Option (Bytes × ℤ) :=
  ((E.tableAt m).walk (d.rd32 8) Table.walkFuel (Table.hashIdx (d.rd32 8))).map fun
    | .absent => (E.rtBumpVersion m, -1)
    | .outOfRange => (m, -14)
    | .found cur => E.rtRemoveAt m d cur

def removeRoutine (m d : Bytes) : Option (Bytes × ℤ) :=
  if ¬ E.Magic m then some (m, -22)
  else if (E.tableAt m).count > rtMaxIndex then some (m, -22)
  else E.rtRemoveChecked (E.rtBumpVersion m) d

/-! ### The table of the fields -/

variable {E} {m m' d e : Bytes} {i : ℕ} {n r : ℤ}

lemma compId_tableAt (m : Bytes) (i : ℕ) :
    (E.tableAt m).compId i = m.rd32 (E.rtEntry i + 8) := rfl

lemma next_tableAt (m : Bytes) (i : ℕ) :
    (E.tableAt m).next i = i32 (m.rd32 (E.rtEntry i + 92)) := rfl

lemma rtEntryOf_of_keeps (h : Keeps 0 96 d e) : rtEntryOf e = rtEntryOf d := by
  simp only [rtEntryOf, descOfBytes, RtEntry.mk.injEq, RoutineDesc.mk.injEq]
  refine ⟨⟨h.rd16 (by omega) (by omega), h.rd16 (by omega) (by omega), h.rd32 (by omega) (by omega),
    h.rd32 (by omega) (by omega), ?_, Prod.ext (h.rd32 (by omega) (by omega))
      (h.rd32 (by omega) (by omega))⟩, congrArg i32 (h.rd32 (by omega) (by omega))⟩
  funext k
  exact h.rd32 (by omega) (by omega)

lemma tableAt_of_slot (h : SameOff (E.rtEntry i) (E.rtEntry i + 96) m m') :
    E.tableAt m' = (E.tableAt m).setEntry i (rtEntryOf (m'.suffix (E.rtEntry i))) := by
  simp only [tableAt, Table.setEntry, Table.mk.injEq]
  refine ⟨h.rd32 (.inl ?_), congrArg i32 (h.rd32 (.inl ?_)), funext fun j => ?_⟩
  · rw [rtEntry]
    omega
  · rw [rtEntry]
    omega
  · rcases eq_or_ne j i with rfl | hij
    · rw [update_self]
    · rw [update_of_ne hij]
      refine rtEntryOf_of_keeps fun x _ hx => h _ ?_
      simp only [rtEntry]
      omega

lemma entry_of_head
    (h : SameOff (E.shMemAddrBase + 30144) (E.shMemAddrBase + 30152) m m') :
    (E.tableAt m').entry = (E.tableAt m).entry := by
  refine funext fun j => rtEntryOf_of_keeps fun x _ _ => h _ (.inr ?_)
  rw [rtEntry]
  omega

lemma tableAt_rtSetNext (m : Bytes) (i : ℕ) (hn : -2147483648 ≤ n) (hn' : n < 2147483648) :
    E.tableAt (E.rtSetNext m i n) = (E.tableAt m).setNext i n := by
  have hslot : SameOff (E.rtEntry i) (E.rtEntry i + 96) m (E.rtSetNext m i n) :=
    (SameOff.refl _ _ m).wr32 (by omega)
  rw [tableAt_of_slot hslot, rtSetNext, suffix_wr32, ByteTable.rtEntryOf_wr92 _ hn hn']
  rfl

lemma tableAt_copy (m src : Bytes) (i b : ℕ) :
    E.tableAt (m.copy (E.rtEntry i) src b 96) =
      (E.tableAt m).setEntry i (rtEntryOf (src.suffix b)) := by
  rw [tableAt_of_slot (sameOff_copy m _ _ _ _), rtEntryOf_of_keeps (keeps_suffix_copy m _ src b 96)]

lemma tableAt_rtBumpVersion (m : Bytes) :
    E.tableAt (E.rtBumpVersion m) = (E.tableAt m).bumpVersion := by
  have hstore := sameOff_wr32 m (E.shMemAddrBase + 30144)
    (u32 (m.rd32 (E.shMemAddrBase + 30144) + 1))
  have hentry := entry_of_head (E := E) (hstore.mono le_rfl (by omega))
  simp only [tableAt, Table.bumpVersion, Table.mk.injEq] at hentry ⊢
  refine ⟨?_, congrArg i32 (hstore.rd32 (by omega)), hentry⟩
  rw [rtBumpVersion, rd32_wr32_self]
  exact Nat.mod_mod _ _

lemma tableAt_count_store (m : Bytes) (v : ℕ) :
    E.tableAt (m.wr32 (E.shMemAddrBase + 30148) v) = { E.tableAt m with count := i32 v } := by
  have hstore := sameOff_wr32 m (E.shMemAddrBase + 30148) v
  have hentry := entry_of_head (E := E) (hstore.mono (by omega) (by omega))
  simp only [tableAt, Table.mk.injEq] at hentry ⊢
  refine ⟨hstore.rd32 (by omega), ?_, hentry⟩
  rw [rd32_wr32_self, i32_u32]

lemma tableAt_rtIncCount (hm : (E.tableAt m).count < 2147483647) :
    E.tableAt (E.rtIncCount m) = { E.tableAt m with count := (E.tableAt m).count + 1 } := by
  have hcount : i32 (u32 (m.rd32 (E.shMemAddrBase + 30148) + 1)) = (E.tableAt m).count + 1 := by
    simp only [tableAt, i32, u32] at hm ⊢
    omega
  rw [rtIncCount, tableAt_count_store, hcount]

lemma tableAt_rtPlace (d : Bytes) (i : ℕ) (hm : (E.tableAt m).count < 2147483647) :
    E.tableAt (E.rtPlace m i d) = (E.tableAt m).place i (descOfBytes d) := by
  have hnext : E.tableAt (E.rtSetNext (m.copy (E.rtEntry i) d 0 96) i (-1)) =
      (E.tableAt m).setEntry i ⟨descOfBytes d, -1⟩ := by
    rw [tableAt_rtSetNext _ _ (by omega) (by omega), tableAt_copy, suffix_zero]
    simp only [Table.setNext, Table.setEntry, update_self, update_idem]
    rfl
  rw [rtPlace, tableAt_rtIncCount (by rw [hnext]; exact hm), hnext]
  rfl

/-! ### The region of the table -/

def InTable (E : ShMem) (m m' : Bytes) : Prop :=
  SameOff (E.shMemAddrBase + 30144) (E.shMemAddrBase + 147656) m m'

lemma InTable.refl (m : Bytes) : E.InTable m m := SameOff.refl _ _ m

lemma InTable.trans {m'' : Bytes} (h : E.InTable m m') (h' : E.InTable m' m'') : E.InTable m m'' :=
  SameOff.trans h h'

lemma inTable_of_slot (hi : i ≤ 1223) (h : SameOff (E.rtEntry i) (E.rtEntry i + 96) m m') :
    E.InTable m m' := by
  refine h.mono ?_ ?_
  · rw [rtEntry]
    omega
  · rw [rtEntry]
    omega

lemma inTable_rtSetNext (hi : i ≤ 1223) (m : Bytes) (n : ℤ) : E.InTable m (E.rtSetNext m i n) :=
  inTable_of_slot hi ((SameOff.refl _ _ m).wr32 (by omega))

lemma inTable_rtClearCompId (hi : i ≤ 1223) (m : Bytes) : E.InTable m (E.rtClearCompId m i) :=
  inTable_of_slot hi ((SameOff.refl _ _ m).wr32 (by omega))

lemma inTable_rtBumpVersion (m : Bytes) : E.InTable m (E.rtBumpVersion m) :=
  (SameOff.refl _ _ m).wr32 (by omega)

lemma inTable_rtPlace (hi : i ≤ 1223) (m d : Bytes) : E.InTable m (E.rtPlace m i d) :=
  ((inTable_of_slot hi (sameOff_copy m _ _ _ _)).trans (inTable_rtSetNext hi _ _)).wr32 (by omega)

lemma inTable_rtUnlink (hi : i ≤ 1223) (m : Bytes) : E.InTable m (E.rtUnlink m i) := by
  simp only [rtUnlink]
  split_ifs with hn
  · have hlt : ((E.tableAt (E.rtClearCompId m i)).next i).toNat ≤ 1223 := by
      simp only [rtMaxIndex] at hn
      omega
    exact ((((inTable_rtClearCompId hi m).trans (inTable_of_slot hi (sameOff_copy _ _ _ _ _))).trans
      (inTable_rtSetNext hi _ _)).trans (inTable_rtClearCompId hlt _)).trans
      (inTable_rtSetNext hlt _ _)
  · exact inTable_rtClearCompId hi m

end ShMem

namespace Table

variable {t : Table}

lemma walk_found_le {c n i j : ℕ} (hi : i ≤ 1223) (h : t.walk c n i = some (.found j)) :
    j ≤ 1223 := by
  induction n generalizing i with
  | zero => cases h
  | succ n ih =>
    rw [walk] at h
    split_ifs at h with _ _ hmax
    · cases h
      exact hi
    · cases h
    · cases h
    · simp only [rtMaxIndex] at hmax
      exact ih (by omega) h

lemma addWalk_ok_le {n i : ℕ} {p prev cur : ℤ} (hp : p ≤ 1223) (hi : i ≤ 1223)
    (h : t.addWalk n p i = some (.ok (prev, cur))) : prev ≤ 1223 ∧ cur ≤ 1223 := by
  induction n generalizing p i with
  | zero => cases h
  | succ n ih =>
    rw [addWalk] at h
    split_ifs at h with _ _ hneg hmax
    · cases h
      omega
    · cases h
    · cases h
      omega
    · cases h
    · simp only [rtMaxIndex] at hmax
      exact ih (by omega) (by omega) h

end Table

namespace ShMem

variable {E : ShMem} {m m' d : Bytes} {r : ℤ}

lemma inTable_rtAddOverflow (m d : Bytes) {prev : ℤ} (hprev : prev ≤ 1223) :
    E.InTable m (E.rtAddOverflow m d prev).1 := by
  rw [rtAddOverflow]
  cases ho : (E.tableAt m).overflowSlot with
  | none => exact inTable_rtBumpVersion m
  | some o =>
    have hplace := inTable_rtPlace (E := E) (Nat.lt_succ_iff.mp (Table.of_overflowSlot ho).2.2) m d
    simp only
    split_ifs
    · exact .refl m
    · exact (hplace.trans (inTable_rtSetNext (by omega) _ _)).trans (inTable_rtBumpVersion _)
    · exact hplace.trans (inTable_rtBumpVersion _)

lemma inTable_rtAddNew (h : E.rtAddNew m d = some (m', r)) : E.InTable m m' := by
  have hhash := Table.hashIdx_lt (d.rd32 8)
  rw [rtAddNew] at h
  split_ifs at h
  · cases h
    exact (inTable_rtPlace (by omega) m d).trans (inTable_rtBumpVersion _)
  · obtain ⟨w, hw, hx⟩ := map_eq_some_iff.mp h
    rcases w with e | ⟨prev, cur⟩
    · cases hx
      exact .refl m
    · obtain ⟨hprev, hcur⟩ := Table.addWalk_ok_le (by omega) (by omega) hw
      simp only at hx
      split_ifs at hx
      · cases hx
        exact (inTable_rtPlace (by omega) m d).trans (inTable_rtBumpVersion _)
      · have hover := inTable_rtAddOverflow (E := E) m d hprev
        rwa [hx] at hover

lemma inTable_addInRoutine (h : E.addInRoutine m d = some (m', r)) : E.InTable m m' := by
  rw [addInRoutine] at h
  split_ifs at h
  · cases h
    exact .refl m
  · obtain ⟨f, -, h⟩ := bind_eq_some_iff.mp h
    cases f with
    | some e =>
      cases h
      exact .refl m
    | none => exact (inTable_rtBumpVersion m).trans (inTable_rtAddNew h)
  · cases h
    exact .refl m

lemma inTable_removeRoutine (h : E.removeRoutine m d = some (m', r)) : E.InTable m m' := by
  have hhash := Table.hashIdx_lt (d.rd32 8)
  rw [removeRoutine] at h
  split_ifs at h
  · cases h
    exact .refl m
  · obtain ⟨w, hw, hx⟩ := map_eq_some_iff.mp h
    refine (inTable_rtBumpVersion m).trans ?_
    cases w with
    | absent =>
      cases hx
      exact inTable_rtBumpVersion _
    | outOfRange =>
      cases hx
      exact .refl _
    | found cur =>
      have hcur := Table.walk_found_le (by omega) hw
      simp only [rtRemoveAt] at hx
      split_ifs at hx
      · cases hx
        exact .refl _
      · cases hx
        exact ((inTable_rtUnlink hcur _).wr32 (by omega)).trans (inTable_rtBumpVersion _)
  · cases h
    exact .refl m

end ShMem

end CpuComm
