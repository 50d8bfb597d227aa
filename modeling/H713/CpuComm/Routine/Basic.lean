import H713.Machine.Chain
import H713.Machine.Run
import H713.Machine.Word
import Mathlib.Data.Fintype.Basic

/-!
# The routine table

1024 primary slots, one for each value of the low ten bits of a component id, and 200 overflow slots
behind them, chained through the link at `+92`. A call that returns no result is one whose loop does
not end.
-/

namespace CpuComm

open Machine

def rtPrimarySlots : ℕ := 1024
def rtOverflowStart : ℕ := 1024
def rtMaxIndex : ℕ := 1223

/-- The bytes of a descriptor that the table operations read, at their offsets. -/
structure RoutineDesc where
  /-- `u16` at `+0` -/
  name : ℕ
  /-- `u16` at `+2` -/
  cpu : ℕ
  /-- `u32` at `+4` -/
  pid : ℕ
  /-- `u32` at `+8` -/
  compId : ℕ
  /-- the 64 bytes at `+12`, as words -/
  data : Fin 16 → ℕ
  /-- the 8 bytes at `+80` -/
  callbacks : ℕ × ℕ
deriving DecidableEq

def RoutineDesc.word28 (d : RoutineDesc) : ℕ := d.data 4

structure RtEntry where
  desc : RoutineDesc
  /-- `int` at `+92` -/
  next : ℤ

structure Table where
  version : ℕ
  count : ℤ
  entry : ℕ → RtEntry

namespace Table

def desc (t : Table) (i : ℕ) : RoutineDesc := (t.entry i).desc

/-- `rt_comp_id` -/
def compId (t : Table) (i : ℕ) : ℕ := (t.desc i).compId

/-- `rt_next` -/
def next (t : Table) (i : ℕ) : ℤ := (t.entry i).next

variable (t : Table) (i : ℕ)

def setEntry (e : RtEntry) : Table :=
  { t with entry := Function.update t.entry i e }

/-- `rt_set_next` -/
def setNext (n : ℤ) : Table :=
  t.setEntry i { t.entry i with next := n }

def clearCompId : Table :=
  t.setEntry i { t.entry i with desc := { t.desc i with compId := 0 } }

def bumpVersion : Table := { t with version := u32 (t.version + 1) }

def place (d : RoutineDesc) : Table :=
  { t.setEntry i ⟨d, -1⟩ with count := t.count + 1 }

def init (stale : ℕ → RoutineDesc) : Table where
  version := 0
  count := 0
  entry i := ⟨{ stale i with compId := 0 }, -1⟩

def hashIdx (c : ℕ) : ℕ := c % rtPrimarySlots

def walkFuel : ℕ := rtMaxIndex + 2

/-! ### Lookup -/

/-- How the walk for a component id along a chain ends. -/
inductive Walk
  | found (i : ℕ)
  | absent
  | outOfRange
deriving DecidableEq

def walk (t : Table) (c : ℕ) : ℕ → ℕ → Option Walk
  | 0, _ => none
  | n + 1, i =>
    if t.compId i = c then some (.found i)
    else if t.next i < 0 then some .absent
    else if t.next i > rtMaxIndex then some .outOfRange
    else t.walk c n (t.next i).toNat

def findRoutineEx (c : ℕ) : Option (Option RoutineDesc) :=
  if t.count > rtMaxIndex then some none
  else (t.walk c walkFuel (hashIdx c)).map fun
    | .found i => some (t.desc i)
    | _ => none

/-! ### Registration -/

def addWalk (t : Table) : ℕ → ℤ → ℕ → Option (Except ℤ (ℤ × ℤ))
  | 0, _, _ => none
  | n + 1, prev, cur =>
    if t.compId cur = 0 then some (.ok (prev, cur))
    else if (t.desc cur).cpu > 1 then some (.error (-22))
    else if t.next cur < 0 then some (.ok (cur, t.next cur))
    else if t.next cur > rtMaxIndex then some (.error (-22))
    else t.addWalk n cur (t.next cur).toNat

def overflowSlot : Option ℕ :=
  (List.range' rtOverflowStart 200).find? fun i => t.compId i = 0

variable (d : RoutineDesc)

def addOverflow (prev : ℤ) : Table × ℤ :=
  match t.overflowSlot with
  | none => (t.bumpVersion, -2)
  | some o =>
    if t.next o ≠ -1 then (t, -22)
    else if 0 ≤ prev then (((t.place o d).setNext prev.toNat o).bumpVersion, 0)
    else ((t.place o d).bumpVersion, 0)

def addNew : Option (Table × ℤ) :=
  let h := hashIdx d.compId
  if t.compId h = 0 ∧ t.next h = -1 then some ((t.place h d).bumpVersion, 0)
  else (t.addWalk walkFuel (-1) h).map fun
    | .error e => (t, e)
    | .ok (prev, cur) =>
      if 0 ≤ cur ∧ t.next cur.toNat = -1 then ((t.place cur.toNat d).bumpVersion, 0)
      else t.addOverflow d prev

def addInRoutine : Option (Table × ℤ) :=
  if t.count > rtMaxIndex then some (t, -22)
  else (t.findRoutineEx d.compId).bind fun
    | some _ => some (t, 0)
    | none => t.bumpVersion.addNew d

/-! ### Removal -/

def getCurCPUID : ℕ := 0

def unlink (cur : ℕ) : Table :=
  let t₁ := t.clearCompId cur
  let n := t₁.next cur
  if 0 ≤ n ∧ n ≤ rtMaxIndex then
    let t₂ := t₁.setEntry cur (t₁.entry n.toNat)
    let t₃ := t₂.setNext cur (t₂.next n.toNat)
    (t₃.clearCompId n.toNat).setNext n.toNat (-1)
  else t₁

def removeResult (cur : ℕ) : ℤ :=
  let e := t.desc cur
  if d.name = e.name ∧ d.pid = e.pid ∧ e.cpu = getCurCPUID then 0 else 1

def removeAt (cur : ℕ) : Table × ℤ :=
  if (t.desc cur).cpu > 1 then (t, -14)
  else
    let t := t.unlink cur
    ({ t with count := t.count - 1 }.bumpVersion, t.removeResult d cur)

def removeChecked : Option (Table × ℤ) :=
  (t.walk d.compId walkFuel (hashIdx d.compId)).map fun
    | .absent => (t.bumpVersion, -1)
    | .outOfRange => (t, -14)
    | .found cur => t.removeAt d cur

def removeRoutine : Option (Table × ℤ) :=
  if t.count > rtMaxIndex then some (t, -22) else t.bumpVersion.removeChecked d

/-! ### Bulk removal -/

def clearIf (sel : RoutineDesc → Prop) [DecidablePred sel] (t : Table) (i : ℕ) : Table :=
  if t.compId i = 0 then t
  else if sel (t.desc i) then { t.clearCompId i with count := t.count - 1 }
  else t

def clearWhere (sel : RoutineDesc → Prop) [DecidablePred sel] : Table :=
  ((List.range (rtMaxIndex + 1)).foldl (clearIf sel) t.bumpVersion).bumpVersion

def removePidRoutines (pid : ℕ) : Table :=
  t.clearWhere fun d => d.word28 = pid

def routineCleanupInCPUReset (cpuId : ℕ) : Table :=
  t.clearWhere fun d => d.cpu = cpuId

end Table

end CpuComm
