import H713.CpuComm.SpinLock.Basic
import H713.Machine.Section

/-!
# Spinlock calls, access by access

One step for each access to the entry or to a hardware spinlock, by any number of threads.
`enterCritical` stores the owner byte whether it got the hardware lock or gave up. For each lock the
model counts the acquisitions by `tgid`.
-/

namespace CpuComm

open Machine Option

/-- Where a thread is in `enterCritical`; at the store it may have got the hardware lock or not. -/
inductive EnterPc where
  | hwLock
  | claim (gotHw : Bool)
  | hwUnlock
deriving DecidableEq, Repr

/-- Where a thread is in `spinLock` besides: at the access named, with the count it loaded. -/
inductive LockPc where
  | sanity
  | retry
  | ownerIsUs
  | threadIsNone
  | setThread
  | loadCount
  | storeCount (count : ℕ)
  | leaveLocked
  | mutexIsClear
  | threadIsUs
  | ownerIsFree
  | reclaim
  | leaveBusy
deriving DecidableEq, Repr

/-- Where a thread is in `comm_SpinUnLock` outside of `enterCritical`. -/
inductive UnlockPc where
  | countIsZero
  | ownerIsFree
  | threadIsNone
  | leaveEarly
  | loadCount
  | storeCount (count : ℕ)
  | freeOwner
  | clearThread
  | leaveUnlocked
deriving DecidableEq, Repr

/-- The call that `enterCritical` is made for, with the rounds `spinLock` has made. -/
inductive SpinCall where
  | lock (mode : LockMode) (retries : ℕ)
  | unlock
deriving DecidableEq, Repr

inductive SpinPc where
  | idle
  | enter (call : SpinCall) (k : EnterPc)
  | lock (mode : LockMode) (retries : ℕ) (k : LockPc)
  | unlock (k : UnlockPc)
deriving DecidableEq, Repr

def SpinCall.entered : SpinCall → SpinPc
  | .lock mode retries => .lock mode retries .ownerIsUs
  | .unlock => .unlock .countIsZero

structure SpinThread where
  tgid : ℕ
  lockId : Fin 12
  pc : SpinPc
deriving DecidableEq, Repr

/-- Its entry, whether its hardware lock is taken, and how often each `tgid` holds it. -/
structure SpinCell where
  entry : SpinEntry
  hwTaken : Bool
  held : ℕ → ℕ

inductive SpinEvent where
  | callLock (lockId : Fin 12) (mode : LockMode)
  | callUnlock (lockId : Fin 12)
  | go
  | timeout
deriving DecidableEq, Repr

namespace SpinCell

def init : SpinCell := ⟨.init, false, fun _ => 0⟩

def acquired (c : SpinCell) (tgid : ℕ) : SpinCell :=
  { c with held := Function.update c.held tgid (c.held tgid + 1) }

def released (c : SpinCell) (tgid : ℕ) : SpinCell :=
  { c with held := Function.update c.held tgid (c.held tgid - 1) }

def setOwner (c : SpinCell) (owner : ℕ) : SpinCell :=
  { c with entry := { c.entry with owner := owner } }

def setCount (c : SpinCell) (count : ℕ) : SpinCell :=
  { c with entry := { c.entry with refCount := count } }

def setThreadId (c : SpinCell) (threadId : ℕ) : SpinCell :=
  { c with entry := { c.entry with threadId := threadId } }

def enterAct (c : SpinCell) : EnterPc → SpinEvent → Option (SpinCell × Option EnterPc)
  | .hwLock, .go =>
    if c.hwTaken then none else some ({ c with hwTaken := true }, some (.claim true))
  | .hwLock, .timeout => some (c, some (.claim false))
  | .claim gotHw, .go =>
    some (c.setOwner Table.getCurCPUID, if gotHw then some .hwUnlock else none)
  | .hwUnlock, .go => some ({ c with hwTaken := false }, none)
  | _, _ => none

def lockAct (c : SpinCell) (tgid : ℕ) (mode : LockMode) (retries : ℕ) : LockPc → SpinCell × SpinPc
  | .sanity =>
    if i32 c.entry.refCount < 0 then (c.acquired tgid, .idle) else (c, .lock mode retries .retry)
  | .retry =>
    if retries + 1 > 10000 then (c.acquired tgid, .idle)
    else (c, .enter (.lock mode (retries + 1)) .hwLock)
  | .ownerIsUs =>
    (c, .lock mode retries
      (if c.entry.owner = Table.getCurCPUID then .threadIsNone else .ownerIsFree))
  | .threadIsNone =>
    (c, .lock mode retries
      (if c.entry.threadId = spinlockHwidNone then .setThread else .mutexIsClear))
  | .setThread => (c.setThreadId tgid, .lock mode retries .loadCount)
  | .loadCount => (c, .lock mode retries (.storeCount c.entry.refCount))
  | .storeCount count => (c.setCount (u32 (count + 1)), .lock mode retries .leaveLocked)
  | .leaveLocked => ((c.setOwner spinlockFree).acquired tgid, .idle)
  | .mutexIsClear =>
    (c, .lock mode retries (if c.entry.mutex = 0 then .threadIsUs else .leaveBusy))
  | .threadIsUs =>
    (c, .lock mode retries (if c.entry.threadId = tgid then .loadCount else .leaveBusy))
  | .ownerIsFree =>
    (c, .lock mode retries (if c.entry.owner = spinlockFree then .reclaim else .leaveBusy))
  | .reclaim => (c.setOwner Table.getCurCPUID, .lock mode retries .setThread)
  | .leaveBusy =>
    (c.setOwner spinlockFree, if mode = .tryLock then .idle else .lock mode retries .retry)

def unlockAct (c : SpinCell) (tgid : ℕ) : UnlockPc → SpinCell × SpinPc
  | .countIsZero => (c, .unlock (if i32 c.entry.refCount ≤ 0 then .leaveEarly else .ownerIsFree))
  | .ownerIsFree =>
    (c, .unlock (if c.entry.owner = spinlockFree then .leaveEarly else .threadIsNone))
  | .threadIsNone =>
    (c, .unlock (if c.entry.threadId = spinlockHwidNone then .leaveEarly else .loadCount))
  | .leaveEarly => ((c.setOwner spinlockFree).released tgid, .idle)
  | .loadCount => (c, .unlock (.storeCount c.entry.refCount))
  | .storeCount count =>
    (c.setCount (sub32 count 1), .unlock (if sub32 count 1 = 0 then .freeOwner else .leaveUnlocked))
  | .freeOwner => (c.setOwner spinlockFree, .unlock .clearThread)
  | .clearThread => (c.setThreadId spinlockHwidNone, .unlock .leaveUnlocked)
  | .leaveUnlocked => ((c.setOwner spinlockFree).released tgid, .idle)

end SpinCell

abbrev SpinLocks := Fin 12 → SpinCell

namespace SpinThread

def cellAct (c : SpinCell) (t : SpinThread) (e : SpinEvent) : Option (SpinCell × SpinPc) :=
  match t.pc with
  | .idle => none
  | .enter call k =>
    (c.enterAct k e).map fun r =>
      (r.1, match r.2 with | some k' => .enter call k' | none => call.entered)
  | .lock mode retries k => if e = .go then some (c.lockAct t.tgid mode retries k) else none
  | .unlock k => if e = .go then some (c.unlockAct t.tgid k) else none

def act (s : SpinLocks) (t : SpinThread) (e : SpinEvent) : Option (SpinLocks × SpinThread) :=
  match t.pc, e with
  | .idle, .callLock id mode => some (s, { t with lockId := id, pc := .lock mode 0 .sanity })
  | .idle, .callUnlock id => some (s, { t with lockId := id, pc := .enter .unlock .hwLock })
  | _, _ =>
    (t.cellAct (s t.lockId) e).map fun r =>
      (Function.update s t.lockId r.1, { t with pc := r.2 })

end SpinThread

def spinSystem : System SpinLocks SpinThread SpinEvent (Fin 12 × Bool) where
  act s _ t e := t.act s e
  env s x := some (Function.update s x.1 { s x.1 with hwTaken := x.2 })
  start t := t.pc = .idle

def spinInit : Pool SpinLocks SpinThread := ⟨fun _ => .init, []⟩

/-! ### Inversion -/

variable {s s' : SpinLocks} {c c' : SpinCell} {t t' : SpinThread} {e : SpinEvent} {pc : SpinPc}

lemma spinAct_cases (h : t.act s e = some (s', t')) :
    (t.pc = .idle ∧ s' = s ∧ t'.tgid = t.tgid ∧
      ((∃ mode, t'.pc = .lock mode 0 .sanity) ∨ t'.pc = .enter .unlock .hwLock)) ∨
    ∃ c' pc, t.cellAct (s t.lockId) e = some (c', pc) ∧ s' = Function.update s t.lockId c' ∧
      t' = { t with pc := pc } := by
  unfold SpinThread.act at h
  split at h
  · rename_i id mode hpc
    cases h
    exact .inl ⟨hpc, rfl, rfl, .inl ⟨mode, rfl⟩⟩
  · rename_i id hpc
    cases h
    exact .inl ⟨hpc, rfl, rfl, .inr rfl⟩
  · obtain ⟨⟨c', pc⟩, hc, heq⟩ := map_eq_some_iff.mp h
    cases heq
    exact .inr ⟨c', pc, hc, rfl, rfl⟩

/-- All that an access in `enterCritical` does. -/
inductive Enters (c : SpinCell) (call : SpinCall) : EnterPc → SpinCell → SpinPc → Prop
  | wait {c' : SpinCell} (gotHw : Bool) (he : c'.entry = c.entry) (hh : c'.held = c.held) :
    Enters c call .hwLock c' (.enter call (.claim gotHw))
  | claim : Enters c call (.claim true) (c.setOwner Table.getCurCPUID) (.enter call .hwUnlock)
  | force : Enters c call (.claim false) (c.setOwner Table.getCurCPUID) call.entered
  | entered {c' : SpinCell} (he : c'.entry = c.entry) (hh : c'.held = c.held) :
    Enters c call .hwUnlock c' call.entered

/-- All that an access to a lock can be. -/
inductive Accesses (c : SpinCell) (tgid : ℕ) : SpinPc → SpinCell → SpinPc → Prop
  | enter {call : SpinCall} {k : EnterPc} {c' : SpinCell} {pc : SpinPc}
      (h : Enters c call k c' pc) :
    Accesses c tgid (.enter call k) c' pc
  | lock {mode : LockMode} {retries : ℕ} {k : LockPc} {c' : SpinCell} {pc : SpinPc}
      (h : c.lockAct tgid mode retries k = (c', pc)) :
    Accesses c tgid (.lock mode retries k) c' pc
  | unlock {k : UnlockPc} {c' : SpinCell} {pc : SpinPc} (h : c.unlockAct tgid k = (c', pc)) :
    Accesses c tgid (.unlock k) c' pc

lemma accesses_of_cellAct (h : t.cellAct c e = some (c', pc)) : Accesses c t.tgid t.pc c' pc := by
  obtain ⟨tgid, id, pc₀⟩ := t
  cases pc₀ with
  | idle => cases h
  | enter call k =>
    obtain ⟨⟨c₁, r⟩, hr, heq⟩ := map_eq_some_iff.mp h
    cases heq
    refine .enter ?_
    cases k with
    | hwLock =>
      cases e with
      | go =>
        simp only [SpinCell.enterAct, ite_none_left_eq_some] at hr
        cases hr.2
        exact .wait true rfl rfl
      | timeout =>
        cases hr
        exact .wait false rfl rfl
      | callLock | callUnlock => cases hr
    | claim gotHw =>
      cases e with
      | go =>
        cases hr
        cases gotHw with
        | true => exact .claim
        | false => exact .force
      | timeout | callLock | callUnlock => cases hr
    | hwUnlock =>
      cases e with
      | go =>
        cases hr
        exact .entered rfl rfl
      | timeout | callLock | callUnlock => cases hr
  | lock mode retries k =>
    simp only [SpinThread.cellAct, ite_none_right_eq_some] at h
    exact .lock (Option.some.inj h.2)
  | unlock k =>
    simp only [SpinThread.cellAct, ite_none_right_eq_some] at h
    exact .unlock (Option.some.inj h.2)

end CpuComm
