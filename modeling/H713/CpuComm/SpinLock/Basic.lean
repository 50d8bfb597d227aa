import H713.CpuComm.Routine.Basic

/-!
# The software spinlocks

`enterCritical` and `leaveCritical` write the owner byte of an entry, the lock calls keep its count
and its thread id between the two, and `comm_ReqestSpinLock` uses the same byte to mark a lock as
assigned. Here each of these is one step.
-/

namespace CpuComm

open Machine

def spinlockFree : ℕ := 2

def spinlockHwidNone : ℕ := 255

def spinlockMaxId : ℤ := 11

/-- An entry, without its status byte, which is never read. -/
structure SpinEntry where
  /-- `u8` at `+0` -/
  type : ℕ
  /-- `u8` at `+2` -/
  mutex : ℕ
  /-- `u8` at `+3` -/
  owner : ℕ
  /-- `u32` at `+4` -/
  refCount : ℕ
  /-- `u32` at `+8` -/
  threadId : ℕ
deriving DecidableEq, Repr

/-- The modes of `spinLock`: `comm_TrySpinLock`, `comm_SpinLockMutex` and `comm_SpinLock`. -/
inductive LockMode where
  | tryLock
  | mutex
  | exclusive
deriving DecidableEq, Repr

namespace SpinEntry

def init : SpinEntry := ⟨2, 0, spinlockFree, 0, spinlockHwidNone⟩

variable (e : SpinEntry)

def enterCritical : SpinEntry := { e with owner := Table.getCurCPUID }

def leaveCritical : SpinEntry := { e with owner := spinlockFree }

def acquire (tgid : ℕ) : SpinEntry :=
  { e with threadId := tgid, refCount := u32 (e.refCount + 1) }

def round (tgid : ℕ) : SpinEntry × Option ℤ :=
  let e := e.enterCritical
  if e.owner = Table.getCurCPUID then
    if e.threadId = spinlockHwidNone then ((e.acquire tgid).leaveCritical, some 2)
    else if e.mutex = 0 ∧ e.threadId = tgid then
      ({ e with refCount := u32 (e.refCount + 1) }.leaveCritical, some 1)
    else (e.leaveCritical, none)
  else if e.owner = spinlockFree then
    (({ e with owner := Table.getCurCPUID }.acquire tgid).leaveCritical, some 2)
  else (e.leaveCritical, none)

def lockLoop (mode : LockMode) (tgid : ℕ) : ℕ → SpinEntry → SpinEntry × ℤ
  | 0, e     => (e, -16)
  | n + 1, e =>
    match e.round tgid with
    | (e', some r) => (e', r)
    | (e', none)   => if mode = .tryLock then (e', 0) else lockLoop mode tgid n e'

def lock (mode : LockMode) (tgid : ℕ) : SpinEntry × ℤ :=
  if i32 e.refCount < 0 then (e, -5) else e.lockLoop mode tgid 10000

def unlock : SpinEntry :=
  let e := e.enterCritical
  if i32 e.refCount ≤ 0 then e.leaveCritical
  else if e.owner = spinlockFree then e.leaveCritical
  else if e.threadId = spinlockHwidNone then e.leaveCritical
  else
    let e := { e with refCount := sub32 e.refCount 1 }
    if e.refCount = 0 then
      { e with owner := spinlockFree, threadId := spinlockHwidNone }.leaveCritical
    else e.leaveCritical

def free : Bool :=
  e.owner = spinlockFree && e.refCount = 0 && e.type = 2 && e.threadId = spinlockHwidNone

end SpinEntry

/-- The entries by lock id. Ids outside of `0..11` lie outside of the table. -/
abbrev SpinTable := ℤ → SpinEntry

namespace SpinTable

def commInitSpinLock : SpinTable := fun _ => .init

variable (t : SpinTable) (lockId : ℤ)

def spinLock (mode : LockMode) (tgid : ℕ) : SpinTable × ℤ :=
  if lockId > spinlockMaxId then (t, -22)
  else
    let r := (t lockId).lock mode tgid
    (Function.update t lockId r.1, r.2)

def commSpinUnLock : SpinTable :=
  if lockId > spinlockMaxId then t else Function.update t lockId (t lockId).unlock

def appIds : List ℤ := [5, 6, 7, 8, 9, 10, 11]

def commReqestSpinLock : SpinTable × ℤ :=
  match appIds.find? fun id => (t id).free with
  | some id => (Function.update t id { t id with mutex := 0, owner := Table.getCurCPUID }, id)
  | none    => (t, 255)

def commReleaseSpinLock : SpinTable × ℤ :=
  if lockId < 5 ∨ lockId > 11 then (t, -22)
  else if (t lockId).refCount ≠ 0 ∨ (t lockId).threadId ≠ spinlockHwidNone then (t, -1)
  else (Function.update t lockId { t lockId with owner := spinlockFree }, 0)

end SpinTable

end CpuComm
