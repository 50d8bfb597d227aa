import H713.CpuComm.Routine.Map
import H713.Machine.Bytes

/-!
# The copy of a routine

`FindRoutineEx` copies an entry into the buffer of its caller field by field, without the words at
`+76` and `+88`. Here the slots of the table have all their bytes, and `toTable` is the table of the
fields.
-/

namespace CpuComm

open Machine Function Option

/-! ### Entries by bytes -/

def descOfBytes (e : Bytes) : RoutineDesc where
  name := e.rd16 0
  cpu := e.rd16 2
  pid := e.rd32 4
  compId := e.rd32 8
  data k := e.rd32 (12 + 4 * k)
  callbacks := (e.rd32 80, e.rd32 84)

def rtEntryOf (e : Bytes) : RtEntry := ⟨descOfBytes e, i32 (e.rd32 92)⟩

/-- The routine table with the 96 bytes of each slot. -/
structure ByteTable where
  version : ℕ
  count : ℤ
  entry : ℕ → Bytes

namespace ByteTable

def toTable (t : ByteTable) : Table := ⟨t.version, t.count, fun i => rtEntryOf (t.entry i)⟩

def setEntry (t : ByteTable) (i : ℕ) (e : Bytes) : ByteTable :=
  { t with entry := Function.update t.entry i e }

def setNext (t : ByteTable) (i : ℕ) (n : ℤ) : ByteTable :=
  t.setEntry i ((t.entry i).wr32 92 (ofInt32 n))

def clearCompId (t : ByteTable) (i : ℕ) : ByteTable := t.setEntry i ((t.entry i).wr32 8 0)

def bumpVersion (t : ByteTable) : ByteTable := { t with version := u32 (t.version + 1) }

def place (t : ByteTable) (i : ℕ) (d : Bytes) : ByteTable :=
  { (t.setEntry i d).setNext i (-1) with count := t.count + 1 }

variable (stale : ℕ → Bytes)

def init : ByteTable where
  version := 0
  count := 0
  entry i := ((stale i).wr32 8 0).wr32 92 (ofInt32 (-1))

/-! ### The calls -/

def copyOut (e buf : Bytes) : Bytes :=
  let buf := buf.wr16 0 (e.rd16 0)
  let buf := buf.wr32 8 (e.rd32 8)
  let buf := buf.wr16 2 (e.rd16 2)
  let buf := (buf.wr32 80 (e.rd32 80)).wr32 84 (e.rd32 84)
  let buf := buf.wr32 4 (e.rd32 4)
  buf.copy 12 e 12 64

def findRoutineEx (t : ByteTable) (c : ℕ) (buf : Bytes) : Option (Option Bytes) :=
  if t.count > rtMaxIndex then some none
  else (t.toTable.walk c Table.walkFuel (Table.hashIdx c)).map fun
    | .found i => some (copyOut (t.entry i) buf)
    | _ => none

def addOverflow (t : ByteTable) (d : Bytes) (prev : ℤ) : ByteTable × ℤ :=
  match t.toTable.overflowSlot with
  | none => (t.bumpVersion, -2)
  | some o =>
    if t.toTable.next o ≠ -1 then (t, -22)
    else if 0 ≤ prev then (((t.place o d).setNext prev.toNat o).bumpVersion, 0)
    else ((t.place o d).bumpVersion, 0)

def addNew (t : ByteTable) (d : Bytes) : Option (ByteTable × ℤ) :=
  let h := Table.hashIdx (d.rd32 8)
  if t.toTable.compId h = 0 ∧ t.toTable.next h = -1 then some ((t.place h d).bumpVersion, 0)
  else (t.toTable.addWalk Table.walkFuel (-1) h).map fun
    | .error e => (t, e)
    | .ok (prev, cur) =>
      if 0 ≤ cur ∧ t.toTable.next cur.toNat = -1 then ((t.place cur.toNat d).bumpVersion, 0)
      else t.addOverflow d prev

def addInRoutine (t : ByteTable) (d : Bytes) : Option (ByteTable × ℤ) :=
  if t.count > rtMaxIndex then some (t, -22)
  else (t.toTable.findRoutineEx (d.rd32 8)).bind fun
    | some _ => some (t, 0)
    | none => t.bumpVersion.addNew d

def unlink (t : ByteTable) (cur : ℕ) : ByteTable :=
  let t₁ := t.clearCompId cur
  let n := t₁.toTable.next cur
  if 0 ≤ n ∧ n ≤ rtMaxIndex then
    let t₂ := t₁.setEntry cur (t₁.entry n.toNat)
    let t₃ := t₂.setNext cur (t₂.toTable.next n.toNat)
    (t₃.clearCompId n.toNat).setNext n.toNat (-1)
  else t₁

def removeAt (t : ByteTable) (d : Bytes) (cur : ℕ) : ByteTable × ℤ :=
  if (t.toTable.desc cur).cpu > 1 then (t, -14)
  else
    let t := t.unlink cur
    ({ t with count := t.count - 1 }.bumpVersion, t.toTable.removeResult (descOfBytes d) cur)

def removeChecked (t : ByteTable) (d : Bytes) : Option (ByteTable × ℤ) :=
  (t.toTable.walk (d.rd32 8) Table.walkFuel (Table.hashIdx (d.rd32 8))).map fun
    | .absent => (t.bumpVersion, -1)
    | .outOfRange => (t, -14)
    | .found cur => t.removeAt d cur

def removeRoutine (t : ByteTable) (d : Bytes) : Option (ByteTable × ℤ) :=
  if t.count > rtMaxIndex then some (t, -22) else t.bumpVersion.removeChecked d

/-! ### The table of the fields -/

variable {t t' : ByteTable} {d e buf : Bytes} {c i j k : ℕ} {n r : ℤ}

lemma rtEntryOf_wr92 (e : Bytes) {n : ℤ} (hn : -2147483648 ≤ n) (hn' : n < 2147483648) :
    rtEntryOf (e.wr32 92 (ofInt32 n)) = { rtEntryOf e with next := n } := by
  have h := Bytes.sameOff_wr32 e 92 (ofInt32 n)
  have hnext : i32 (u32 (ofInt32 n)) = n := by
    simp only [i32, u32, ofInt32]
    omega
  simp only [rtEntryOf, descOfBytes, Bytes.rd32_wr32_self, hnext, RtEntry.mk.injEq, and_true,
    RoutineDesc.mk.injEq]
  refine ⟨h.rd16 (by omega), h.rd16 (by omega), h.rd32 (by omega), h.rd32 (by omega), ?_,
    Prod.ext (h.rd32 (by omega)) (h.rd32 (by omega))⟩
  funext k
  exact h.rd32 (by omega)

lemma rtEntryOf_wr8 (e : Bytes) :
    rtEntryOf (e.wr32 8 0) = { rtEntryOf e with desc := { descOfBytes e with compId := 0 } } := by
  have h := Bytes.sameOff_wr32 e 8 0
  simp only [rtEntryOf, descOfBytes, Bytes.rd32_wr32_self, RtEntry.mk.injEq, RoutineDesc.mk.injEq]
  refine ⟨⟨h.rd16 (by omega), h.rd16 (by omega), h.rd32 (by omega), rfl, ?_,
    Prod.ext (h.rd32 (by omega)) (h.rd32 (by omega))⟩, congrArg i32 (h.rd32 (by omega))⟩
  funext k
  exact h.rd32 (by omega)

lemma next_range (t : ByteTable) (i : ℕ) :
    -2147483648 ≤ t.toTable.next i ∧ t.toTable.next i < 2147483648 := by
  simp only [toTable, Table.next, rtEntryOf, i32, u32]
  omega

@[simp] lemma toTable_setEntry (t : ByteTable) (i : ℕ) (e : Bytes) :
    (t.setEntry i e).toTable = t.toTable.setEntry i (rtEntryOf e) := by
  simp only [toTable, setEntry, Table.setEntry, Table.mk.injEq, true_and]
  funext j
  by_cases hj : j = i <;> simp [hj]

lemma toTable_setNext (t : ByteTable) (i : ℕ) (hn : -2147483648 ≤ n) (hn' : n < 2147483648) :
    (t.setNext i n).toTable = t.toTable.setNext i n := by
  rw [setNext, toTable_setEntry, rtEntryOf_wr92 _ hn hn']
  rfl

@[simp] lemma toTable_clearCompId (t : ByteTable) (i : ℕ) :
    (t.clearCompId i).toTable = t.toTable.clearCompId i := by
  rw [clearCompId, toTable_setEntry, rtEntryOf_wr8]
  rfl

@[simp] lemma toTable_bumpVersion (t : ByteTable) : t.bumpVersion.toTable = t.toTable.bumpVersion :=
  rfl

@[simp] lemma toTable_place (t : ByteTable) (i : ℕ) (d : Bytes) :
    (t.place i d).toTable = t.toTable.place i (descOfBytes d) := by
  have h := toTable_setNext (t.setEntry i d) i (n := -1) (by omega) (by omega)
  have hentry := congrArg Table.entry h
  simp only [place, Table.place, toTable, Table.mk.injEq]
  refine ⟨rfl, trivial, hentry.trans ?_⟩
  simp only [toTable_setEntry, Table.setNext, Table.setEntry, update_self,
    update_idem]
  rfl

lemma toTable_init :
    (init stale).toTable = Table.init fun i => descOfBytes (stale i) := by
  simp only [toTable, init, Table.init, Table.mk.injEq, true_and]
  funext i
  rw [rtEntryOf_wr92 _ (by omega) (by omega), rtEntryOf_wr8]

def fields (x : ByteTable × ℤ) : Table × ℤ := (x.1.toTable, x.2)

@[simp] lemma fields_mk (t : ByteTable) (r : ℤ) : fields (t, r) = (t.toTable, r) := rfl

lemma fields_addOverflow (t : ByteTable) (d : Bytes) (n : ℤ) :
    fields (t.addOverflow d n) = t.toTable.addOverflow (descOfBytes d) n := by
  rw [addOverflow, Table.addOverflow]
  cases ho : t.toTable.overflowSlot with
  | none => rfl
  | some o =>
    have hlt := (Table.of_overflowSlot ho).2.2
    simp only [apply_ite fields, fields_mk, toTable_bumpVersion, toTable_place,
      toTable_setNext (t.place o d) n.toNat (n := o) (by omega) (by omega)]

lemma fields_addNew (t : ByteTable) (d : Bytes) :
    (t.addNew d).map fields = t.toTable.addNew (descOfBytes d) := by
  simp only [addNew, Table.addNew, apply_ite (Option.map fields), map_some, map_map,
    fields_mk, toTable_bumpVersion, toTable_place]
  congr 2
  funext w
  rcases w with e | ⟨prev, cur⟩
  · rfl
  · simp only [comp_apply, apply_ite fields, fields_addOverflow, fields_mk,
      toTable_bumpVersion, toTable_place]

lemma fields_addInRoutine (t : ByteTable) (d : Bytes) :
    (t.addInRoutine d).map fields = t.toTable.addInRoutine (descOfBytes d) := by
  rw [addInRoutine, Table.addInRoutine, apply_ite (Option.map fields)]
  congr 1
  change ((t.toTable.findRoutineEx (d.rd32 8)).bind _).map fields =
    (t.toTable.findRoutineEx (d.rd32 8)).bind _
  rcases t.toTable.findRoutineEx (d.rd32 8) with _ | _ | e
  · rfl
  · exact fields_addNew t.bumpVersion d
  · rfl

lemma toTable_unlink (t : ByteTable) (i : ℕ) : (t.unlink i).toTable = t.toTable.unlink i := by
  simp only [unlink, Table.unlink, ← toTable_clearCompId]
  generalize t.clearCompId i = t₁
  split_ifs
  · have hn := next_range (t₁.setEntry i (t₁.entry (t₁.toTable.next i).toNat))
      (t₁.toTable.next i).toNat
    rw [toTable_setNext _ _ (by omega) (by omega), toTable_clearCompId,
      toTable_setNext _ _ hn.1 hn.2,
      toTable_setEntry]
    rfl
  · rfl

lemma fields_removeRoutine (t : ByteTable) (d : Bytes) :
    (t.removeRoutine d).map fields = t.toTable.removeRoutine (descOfBytes d) := by
  simp only [removeRoutine, Table.removeRoutine, removeChecked, Table.removeChecked,
    apply_ite (Option.map fields), map_some, map_map]
  congr 2
  funext w
  cases w with
  | absent | outOfRange => rfl
  | found k =>
    simp only [comp_apply, removeAt, Table.removeAt, apply_ite fields, fields_mk,
      ← toTable_bumpVersion, ← toTable_unlink]
    rfl

/-! ### The bytes of an entry stay together -/

def Holds (t : ByteTable) (i : ℕ) (d : Bytes) : Prop := Bytes.Keeps 0 92 d (t.entry i)

lemma Holds.compId_eq (h : t.Holds i d) : t.toTable.compId i = d.rd32 8 :=
  Bytes.Keeps.rd32 h (by omega) (by omega)

lemma holds_setEntry_of_ne (h : i ≠ j) : (t.setEntry j e).Holds i d ↔ t.Holds i d := by
  simp only [Holds, setEntry, update_of_ne h]

lemma holds_setEntry_self : (t.setEntry i e).Holds i d ↔ Bytes.Keeps 0 92 d e := by
  simp only [Holds, setEntry, update_self]

lemma holds_setNext : (t.setNext j n).Holds i d ↔ t.Holds i d := by
  rcases eq_or_ne i j with rfl | hij
  · have hsame := Bytes.sameOff_wr32 (t.entry i) 92 (ofInt32 n)
    rw [setNext, holds_setEntry_self, Holds]
    refine forall_congr' fun x => forall_congr' fun _ => forall_congr' fun hx => ?_
    rw [hsame x (.inl hx)]
  · rw [setNext, holds_setEntry_of_ne hij]

lemma holds_clearCompId_of_ne (h : i ≠ j) : (t.clearCompId j).Holds i d ↔ t.Holds i d :=
  holds_setEntry_of_ne h

lemma holds_place_of_ne (h : i ≠ j) : (t.place j e).Holds i d ↔ t.Holds i d :=
  holds_setNext.trans (holds_setEntry_of_ne h)

lemma holds_place_self (t : ByteTable) (i : ℕ) (d : Bytes) : (t.place i d).Holds i d :=
  holds_setNext.mpr (holds_setEntry_self.mpr fun _ _ _ => rfl)

def Wrote (t : ByteTable) (d : Bytes) (t' : ByteTable) : Prop :=
  ∃ j, t.toTable.compId j = 0 ∧ t'.Holds j d ∧ ∀ i e, i ≠ j → t.Holds i e → t'.Holds i e

lemma wrote_place (hj : t.toTable.compId j = 0) : t.Wrote d (t.place j d) :=
  ⟨j, hj, holds_place_self t j d, fun _ _ hi h => (holds_place_of_ne hi).mpr h⟩

lemma Wrote.setNext (h : t.Wrote d t') : t.Wrote d (t'.setNext i n) := by
  obtain ⟨j, hj, hd, hkeep⟩ := h
  exact ⟨j, hj, holds_setNext.mpr hd, fun k e hk he => holds_setNext.mpr (hkeep k e hk he)⟩

lemma addOverflow_wrote (t : ByteTable) (d : Bytes) (n : ℤ) :
    (t.addOverflow d n).2 = 0 ∧ t.Wrote d (t.addOverflow d n).1 ∨
      (t.addOverflow d n).2 ≠ 0 ∧ (t.addOverflow d n).1.entry = t.entry := by
  rw [addOverflow]
  cases ho : t.toTable.overflowSlot with
  | none => exact .inr ⟨by simp, rfl⟩
  | some o =>
    have hfree := (Table.of_overflowSlot ho).1
    simp only
    split_ifs
    · exact .inr ⟨by simp, rfl⟩
    · exact .inl ⟨rfl, (wrote_place hfree).setNext⟩
    · exact .inl ⟨rfl, wrote_place hfree⟩

lemma addNew_wrote (h : t.addNew d = some (t', r)) :
    r = 0 ∧ t.Wrote d t' ∨ r ≠ 0 ∧ t'.entry = t.entry := by
  rw [addNew] at h
  split_ifs at h with h0
  · cases h
    exact .inl ⟨rfl, wrote_place h0.1⟩
  · obtain ⟨w, hw, hx⟩ := map_eq_some_iff.mp h
    rcases w with e | ⟨prev, cur⟩
    · cases hx
      rw [Table.addWalk_error hw]
      exact .inr ⟨by decide, rfl⟩
    · simp only at hx
      split_ifs at hx with hc
      · cases hx
        exact .inl ⟨rfl, wrote_place (Table.addWalk_free hw hc.1)⟩
      · have := addOverflow_wrote t d prev
        rwa [hx] at this

lemma addInRoutine_wrote (h : t.addInRoutine d = some (t', r)) :
    t.toTable.findRoutineEx (d.rd32 8) = some none ∧ r = 0 ∧ t.Wrote d t' ∨
      (r = 0 → t.toTable.findRoutineEx (d.rd32 8) ≠ some none) ∧ t'.entry = t.entry := by
  rw [addInRoutine] at h
  split_ifs at h with hc
  · cases h
    exact .inr ⟨fun h0 => absurd h0 (by decide), rfl⟩
  · obtain ⟨f, hf, h⟩ := bind_eq_some_iff.mp h
    cases f with
    | some e =>
      cases h
      exact .inr ⟨fun _ => by simp [hf], rfl⟩
    | none =>
      rcases addNew_wrote h with ⟨h0, hw⟩ | ⟨h0, he⟩
      · exact .inl ⟨hf, h0, hw⟩
      · exact .inr ⟨fun h => absurd h h0, he⟩

lemma Holds.addInRoutine (h : t.Holds i e) (he : e.rd32 8 ≠ 0)
    (ha : t.addInRoutine d = some (t', r)) : t'.Holds i e := by
  rcases addInRoutine_wrote ha with ⟨-, -, j, hj, -, hkeep⟩ | ⟨-, heq⟩
  · refine hkeep i e ?_ h
    rintro rfl
    exact he (h.compId_eq.symm.trans hj)
  · rwa [Holds, heq]

lemma Holds.unlink (h : t.Holds i e) (hne : i ≠ j) : ∃ k, (t.unlink j).Holds k e := by
  have h₁ : (t.clearCompId j).Holds i e := (holds_clearCompId_of_ne hne).mpr h
  rw [ByteTable.unlink]
  generalize t.clearCompId j = t₁ at *
  split_ifs
  · by_cases hi : i = (t₁.toTable.next j).toNat
    · refine ⟨j, ?_⟩
      rw [← hi, holds_setNext, holds_clearCompId_of_ne hne.symm, holds_setNext, holds_setEntry_self]
      exact h₁
    · refine ⟨i, ?_⟩
      rwa [holds_setNext, holds_clearCompId_of_ne hi, holds_setNext, holds_setEntry_of_ne hne]
  · exact ⟨i, h₁⟩

lemma Holds.removeRoutine (h : t.Holds i e) (hne : d.rd32 8 ≠ e.rd32 8)
    (hr : t.removeRoutine d = some (t', r)) : ∃ k, t'.Holds k e := by
  rw [ByteTable.removeRoutine] at hr
  split_ifs at hr
  · cases hr
    exact ⟨i, h⟩
  · obtain ⟨w, hw, hx⟩ := map_eq_some_iff.mp hr
    cases w with
    | absent | outOfRange =>
      cases hx
      exact ⟨i, h⟩
    | found cur =>
      have hcur : i ≠ cur := by
        rintro rfl
        exact hne ((Table.walk_found hw).symm.trans h.compId_eq)
      simp only [removeAt] at hx
      split_ifs at hx
      · cases hx
        exact ⟨i, h⟩
      · cases hx
        exact Holds.unlink (t := t.bumpVersion) h hcur

/-! ### Calls in any order -/

inductive Op
  | add (d : Bytes)
  | remove (d : Bytes)

def Op.desc : Op → Bytes
  | .add d | .remove d => d

def step (t : ByteTable) : Op → Option ByteTable
  | .add d => (t.addInRoutine d).map Prod.fst
  | .remove d => (t.removeRoutine d).map Prod.fst

def Ok (t : ByteTable) : Op → Prop
  | .add d => (d.rd32 8 ≠ 0 ∧ d.rd16 2 ≤ 1) ∧ t.toTable.HasRoom (descOfBytes d) ∧
      t.toTable.Unlinked (descOfBytes d)
  | .remove d => d.rd32 8 ≠ 0 ∧ d.rd16 2 ≤ 1

instance (t : ByteTable) : ∀ op, Decidable (t.Ok op)
  | .add _ => inferInstanceAs (Decidable (_ ∧ _))
  | .remove _ => inferInstanceAs (Decidable (_ ∧ _))

def Sound (t : ByteTable) : Prop := ∃ m, (⟨t.toTable, m⟩ : Registry).Inv

lemma sound_init : (init stale).Sound :=
  ⟨∅, toTable_init stale ▸ Registry.Inv.init _⟩

lemma Sound.add (h : t.Sound) (hok : t.Ok (.add d)) :
    ∃ t' r, t.addInRoutine d = some (t', r) ∧ t'.Sound := by
  obtain ⟨m, h⟩ := h
  obtain ⟨s', hs, h'⟩ := h.add ⟨descOfBytes d, hok.1⟩ hok.2
  obtain ⟨a, ha, rfl⟩ := map_eq_some_iff.mp hs
  rw [← fields_addInRoutine] at ha
  obtain ⟨⟨t', r⟩, ht, rfl⟩ := map_eq_some_iff.mp ha
  exact ⟨t', r, ht, _, h'⟩

lemma Sound.remove (h : t.Sound) (hok : t.Ok (.remove d)) :
    ∃ t' r, t.removeRoutine d = some (t', r) ∧ t'.Sound := by
  obtain ⟨m, h⟩ := h
  obtain ⟨s', hs, h'⟩ := h.remove ⟨descOfBytes d, hok⟩
  obtain ⟨a, ha, rfl⟩ := map_eq_some_iff.mp hs
  rw [← fields_removeRoutine] at ha
  obtain ⟨⟨t', r⟩, ht, rfl⟩ := map_eq_some_iff.mp ha
  exact ⟨t', r, ht, _, h'⟩

lemma Sound.step (h : t.Sound) (op : Op) (hok : t.Ok op) : ∃ t', t.step op = some t' ∧
    t'.Sound := by
  cases op with
  | add d =>
    obtain ⟨t', r, ha, h'⟩ := h.add hok
    exact ⟨t', by rw [ByteTable.step, ha]; rfl, h'⟩
  | remove d =>
    obtain ⟨t', r, ha, h'⟩ := h.remove hok
    exact ⟨t', by rw [ByteTable.step, ha]; rfl, h'⟩

lemma exists_holds_step {op : Op} (h : t.Holds i e) (he : e.rd32 8 ≠ 0)
    (hne : op.desc.rd32 8 ≠ e.rd32 8) (hs : t.step op = some t') : ∃ k, t'.Holds k e := by
  cases op with
  | add d =>
    obtain ⟨⟨t'', r⟩, ha, rfl⟩ := map_eq_some_iff.mp hs
    exact ⟨i, h.addInRoutine he ha⟩
  | remove d =>
    obtain ⟨⟨t'', r⟩, hr, rfl⟩ := map_eq_some_iff.mp hs
    exact h.removeRoutine hne hr

/-! ### The copy -/

def LeftOut (k : ℕ) : Prop := 76 ≤ k ∧ k < 80 ∨ 88 ≤ k ∧ k < 92

instance (k : ℕ) : Decidable (LeftOut k) := inferInstanceAs (Decidable (_ ∨ _))

lemma byte_copyOut (e buf : Bytes) (hk : k < 92) :
    (copyOut e buf).byte k = if LeftOut k then buf.byte k else e.byte k := by
  simp only [copyOut, Bytes.wr16_rd16, Bytes.wr32_rd32, Bytes.copy]
  by_cases hl : LeftOut k
  · rw [if_pos hl]
    rw [LeftOut] at hl
    repeat rw [if_neg (by omega)]
  · rw [if_neg hl]
    rw [LeftOut] at hl
    split_ifs
    all_goals first | exact congrArg e.byte (by omega) | omega

lemma rd16_copyOut (e buf : Bytes) : (copyOut e buf).rd16 2 = e.rd16 2 := by
  simp [Bytes.rd16, Bytes.rd8, byte_copyOut, LeftOut]

/-- The word at `+88` is what the buffer held. -/
lemma rd32_copyOut (e buf : Bytes) : (copyOut e buf).rd32 88 = buf.rd32 88 := by
  simp [Bytes.rd32, Bytes.rd16, Bytes.rd8, byte_copyOut, LeftOut]

lemma Sound.find (h : t.Sound) (hi : t.Holds i d) (hd : d.rd32 8 ≠ 0) (buf : Bytes) :
    ∃ e, Bytes.Keeps 0 92 d e ∧ t.findRoutineEx (d.rd32 8) buf = some (some (copyOut e buf)) := by
  obtain ⟨m, h⟩ := h
  have hroom : ¬ t.count > rtMaxIndex := not_lt.mpr h.room
  obtain ⟨l, hl⟩ := h.ok.chain _ (Table.hashIdx_lt (d.rd32 8))
  have hlen : l.length < Table.walkFuel :=
    lt_of_le_of_lt (h.ok.links.length_chain hl) (by decide)
  have hic := hi.compId_eq
  rcases Table.walk_chain h.ok.links hl hlen with ⟨j, -, hjc, hw⟩ | ⟨hall, -⟩
  · obtain rfl := h.ok.unique i j (by rwa [hic]) (hic.trans hjc.symm)
    exact ⟨t.entry i, hi, by rw [findRoutineEx, if_neg hroom, hw]; rfl⟩
  · exact absurd hic (h.ok.not_registered hl hall (by rwa [hic]))

/-- A registered descriptor stays in the table under calls for other ids that meet their condition.
A look-up then gives its bytes exactly if the buffer had those that are not copied. -/
theorem find_copies_iff (stale : ℕ → Bytes) {as bs : List Op} {d : Bytes} {t : ByteTable}
    (hok : Guarded step Ok (init stale) (as ++ .add d :: bs))
    (hr : run step (init stale) as = some t)
    (hnew : t.toTable.findRoutineEx (d.rd32 8) = some none)
    (hadd : (t.addInRoutine d).map Prod.snd = some 0)
    (hother : ∀ op ∈ bs, op.desc.rd32 8 ≠ d.rd32 8) (buf : Bytes) :
    ∃ t' out, run step (init stale) (as ++ .add d :: bs) = some t' ∧
      t'.findRoutineEx (d.rd32 8) buf = some (some out) ∧
      ((∀ k < 92, out.byte k = d.byte k) ↔ ∀ k, LeftOut k → buf.byte k = d.byte k) := by
  have hsound : t.Sound :=
    hok.append_left.invariant (I := Sound) (fun s op s' hs ho he => by
      obtain ⟨s₁, he₁, hs₁⟩ := hs.step op ho
      exact Option.some.inj (he₁.symm.trans he) ▸ hs₁) (sound_init stale) hr
  obtain ⟨hok₁, hok₂⟩ := hok.append_right hr
  have hd : d.rd32 8 ≠ 0 := hok₁.1.1
  obtain ⟨t₁, r, ha, hsound₁⟩ := hsound.add hok₁
  have hstep : t.step (.add d) = some t₁ := by rw [step, ha]; rfl
  obtain ⟨i, hi⟩ : ∃ i, t₁.Holds i d := by
    rw [ha] at hadd
    rcases addInRoutine_wrote ha with ⟨-, -, j, -, hj, -⟩ | ⟨hno, -⟩
    · exact ⟨j, hj⟩
    · exact absurd hnew (hno (Option.some.inj hadd))
  obtain ⟨t', hr', hsound', j, hj⟩ := ((hok₂ t₁ hstep).and_forall hother).exists_run
    (I := fun t => t.Sound ∧ ∃ i, t.Holds i d) (fun s op hs ho => by
      obtain ⟨s', he, hs'⟩ := hs.1.step op ho.1
      obtain ⟨k, hk⟩ := hs.2
      exact ⟨s', he, hs', exists_holds_step hk hd ho.2 he⟩) ⟨hsound₁, i, hi⟩
  obtain ⟨e, he, hf⟩ := hsound'.find hj hd buf
  refine ⟨t', copyOut e buf, ?_, hf, ?_⟩
  · rw [run_append, hr, bind_some, run_cons, hstep, bind_some, hr']
  · constructor
    · intro hall k hk
      have hlt : k < 92 := by
        rcases hk with hk | hk <;> omega
      rw [← hall k hlt, byte_copyOut e buf hlt, if_pos hk]
    · intro hbuf k hk
      rw [byte_copyOut e buf hk]
      split_ifs with hl
      · exact hbuf k hl
      · exact he k (Nat.zero_le k) hk

def callbackDesc (compId callback : ℕ) : Bytes :=
  (((⟨fun _ => 0⟩ : Bytes).wr32 4 1000).wr32 8 compId).wr32 88 callback

/-- A table with one routine. -/
def lone (d : Bytes) : ByteTable :=
  ((init fun _ => ⟨fun _ => 0⟩).place (Table.hashIdx (d.rd32 8)) d).bumpVersion

lemma lone_ends (d buf : Bytes) (c : ℕ) : (lone d).findRoutineEx c buf ≠ none := by
  have hnext (i : ℕ) : (lone d).toTable.next i < 0 := by
    have hminus : i32 (u32 (ofInt32 (-1))) = -1 := by decide
    simp only [lone, bumpVersion, place, setNext, setEntry, toTable, Table.next, rtEntryOf, init]
    by_cases hi : i = Table.hashIdx (d.rd32 8)
    · simp [hi, Bytes.rd32_wr32_self, hminus]
    · simp [update_of_ne hi, Bytes.rd32_wr32_self, hminus]
  rw [findRoutineEx]
  split_ifs
  · simp
  · rw [Table.walkFuel, Table.walk]
    split_ifs
    · simp
    · simp
    · exact absurd (hnext _) ‹_›
    · exact absurd (hnext _) ‹_›

/-- Two routines of one chain. The first one is removed, so that the second moves into its slot. -/
theorem find_copies_iff_moved :
    ∃ t' out, run step (init fun _ => ⟨fun _ => 0⟩)
        ([.add (callbackDesc 1 7)] ++ .add (callbackDesc 1025 3221225472) ::
          [.remove (callbackDesc 1 7)]) = some t' ∧
      t'.findRoutineEx ((callbackDesc 1025 3221225472).rd32 8) ⟨fun _ => 85⟩ = some (some out) ∧
      ((∀ k < 92, out.byte k = (callbackDesc 1025 3221225472).byte k) ↔
        ∀ k, LeftOut k → (⟨fun _ => 85⟩ : Bytes).byte k =
            (callbackDesc 1025 3221225472).byte k) := by
  obtain ⟨t, ht⟩ : ∃ t, run step (init fun _ => ⟨fun _ => 0⟩) [.add (callbackDesc 1 7)] = some t :=
    ⟨_, rfl⟩
  refine find_copies_iff _ (by decide +kernel) ht ?_ ?_ (by decide) _
  · cases ht
    decide +kernel
  · cases ht
    decide +kernel

/-- The buffer has `85` in every byte, and the word that `comm_CallWorkAction` calls is that of the
buffer. -/
theorem find_copies_no_callback :
    ((run step (init fun _ => ⟨fun _ => 0⟩) [.add (callbackDesc 1 3221225472)]).bind fun t =>
        t.findRoutineEx 1 ⟨fun _ => 85⟩).map
      (Option.map fun out => (out.rd32 8, out.rd32 88)) = some (some (1, 1431655765)) ∧
    (callbackDesc 1 3221225472).rd32 88 = 3221225472 := by
  decide +kernel

end ByteTable

end CpuComm
