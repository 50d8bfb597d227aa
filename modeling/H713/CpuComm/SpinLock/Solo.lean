import H713.CpuComm.SpinLock.Threads

/-!
# A spinlock call without interference

While one thread alone accesses a lock and its hardware lock is free, the accesses of a call add up
to the call as one step: what `SpinEntry.lock` and `SpinEntry.unlock` make of the entry is what the
thread leaves.
-/

namespace CpuComm

open Machine

lemma SpinEntry.round_eq (e : SpinEntry) (tgid : ℕ) :
    e.round tgid =
      if e.threadId = spinlockHwidNone then ((e.enterCritical.acquire tgid).leaveCritical, some 2)
      else if e.mutex = 0 ∧ e.threadId = tgid then
        ({ e.enterCritical with refCount := u32 (e.refCount + 1) }.leaveCritical, some 1)
      else (e.enterCritical.leaveCritical, none) := by
  unfold SpinEntry.round
  exact if_pos rfl

lemma SpinEntry.unlock_eq (e : SpinEntry) :
    e.unlock =
      if i32 e.refCount ≤ 0 ∨ e.threadId = spinlockHwidNone then e.enterCritical.leaveCritical
      else if sub32 e.refCount 1 = 0 then
        { e with refCount := sub32 e.refCount 1, threadId := spinlockHwidNone }.leaveCritical
      else { e with refCount := sub32 e.refCount 1 }.leaveCritical := by
  have howner : Table.getCurCPUID ≠ spinlockFree := by decide
  unfold SpinEntry.unlock
  simp only [SpinEntry.enterCritical, howner, if_false]
  by_cases hcount : i32 e.refCount ≤ 0
  · simp only [hcount, true_or, if_true]
  · simp only [hcount, false_or, if_false]
    rfl

def SpinCell.locked (c : SpinCell) (tgid : ℕ) (r : SpinEntry × ℤ) : SpinCell :=
  if r.2 = 0 then { c with entry := r.1 } else { c with entry := r.1 }.acquired tgid

def soloStep (t : SpinThread) (x : SpinCell × SpinPc) (_ : Unit) : Option (SpinCell × SpinPc) :=
  { t with pc := x.2 }.cellAct x.1 .go

def Solo (t : SpinThread) (x y : SpinCell × SpinPc) : Prop :=
  ∃ n, run (soloStep t) x (List.replicate n ()) = some y

namespace Solo

variable {t : SpinThread} {x y z : SpinCell × SpinPc}

lemma trans (h : Solo t x y) (h' : Solo t y z) : Solo t x z := by
  obtain ⟨m, hm⟩ := h
  obtain ⟨n, hn⟩ := h'
  exact ⟨m + n, by rw [List.replicate_add, run_append, hm, Option.bind_some, hn]⟩

lemma enter (t : SpinThread) {c : SpinCell} (hhw : c.hwTaken = false) (call : SpinCall) :
    Solo t (c, .enter call .hwLock) (c.setOwner Table.getCurCPUID, call.entered) :=
  ⟨3, by simp [List.replicate, run_cons, soloStep, SpinThread.cellAct, SpinCell.enterAct, hhw,
    SpinCell.setOwner]⟩

lemma lock_access {t : SpinThread} {c c' : SpinCell} {mode : LockMode} {retries : ℕ} {k : LockPc}
    {pc : SpinPc} (h : c.lockAct t.tgid mode retries k = (c', pc)) :
    Solo t (c, .lock mode retries k) (c', pc) :=
  ⟨1, congrArg some h⟩

lemma unlock_access {t : SpinThread} {c c' : SpinCell} {k : UnlockPc} {pc : SpinPc}
    (h : c.unlockAct t.tgid k = (c', pc)) : Solo t (c, .unlock k) (c', pc) :=
  ⟨1, congrArg some h⟩

lemma lock_count (t : SpinThread) (c : SpinCell) (mode : LockMode) (retries : ℕ) :
    Solo t (c, .lock mode retries .loadCount)
      (((c.setCount (u32 (c.entry.refCount + 1))).setOwner spinlockFree).acquired t.tgid, .idle) :=
  ((lock_access rfl).trans (lock_access rfl)).trans (lock_access rfl)

lemma round (t : SpinThread) {c : SpinCell} (hhw : c.hwTaken = false) (mode : LockMode)
    (retries : ℕ) :
    Solo t (c, .enter (.lock mode retries) .hwLock)
      (match c.entry.round t.tgid with
        | (e, some r) => (c.locked t.tgid (e, r), .idle)
        | (e, none) =>
          ({ c with entry := e },
            if mode = .tryLock then .idle else .lock mode retries .retry)) := by
  have hthread : Solo t (c, .enter (.lock mode retries) .hwLock)
      (c.setOwner Table.getCurCPUID, .lock mode retries .threadIsNone) :=
    (enter t hhw (.lock mode retries)).trans (lock_access rfl)
  rw [SpinEntry.round_eq]
  by_cases hnone : c.entry.threadId = spinlockHwidNone
  · -- the lock is taken for the first time
    have hset : Solo t (c.setOwner Table.getCurCPUID, .lock mode retries .threadIsNone)
        (c.setOwner Table.getCurCPUID, .lock mode retries .setThread) :=
      lock_access (by simp [SpinCell.lockAct, SpinCell.setOwner, hnone])
    rw [if_pos hnone]
    exact ((hthread.trans hset).trans (lock_access rfl)).trans (lock_count ..)
  have hmutex : Solo t (c, .enter (.lock mode retries) .hwLock)
      (c.setOwner Table.getCurCPUID, .lock mode retries .mutexIsClear) :=
    hthread.trans (lock_access (by simp [SpinCell.lockAct, SpinCell.setOwner, hnone]))
  have hus (hclear : c.entry.mutex = 0) : Solo t (c, .enter (.lock mode retries) .hwLock)
      (c.setOwner Table.getCurCPUID, .lock mode retries .threadIsUs) :=
    hmutex.trans (lock_access (by simp [SpinCell.lockAct, SpinCell.setOwner, hclear]))
  rw [if_neg hnone]
  by_cases hours : c.entry.mutex = 0 ∧ c.entry.threadId = t.tgid
  · -- the process has it already
    have hload : Solo t (c, .enter (.lock mode retries) .hwLock)
        (c.setOwner Table.getCurCPUID, .lock mode retries .loadCount) :=
      (hus hours.1).trans (lock_access (by simp [SpinCell.lockAct, SpinCell.setOwner, hours.2]))
    rw [if_pos hours]
    exact hload.trans (lock_count ..)
  · -- another process has it
    have hleave : Solo t (c, .enter (.lock mode retries) .hwLock)
        (c.setOwner Table.getCurCPUID, .lock mode retries .leaveBusy) := by
      by_cases hclear : c.entry.mutex = 0
      · have hother : c.entry.threadId ≠ t.tgid := fun h => hours ⟨hclear, h⟩
        exact (hus hclear).trans
          (lock_access (by simp [SpinCell.lockAct, SpinCell.setOwner, hother]))
      · exact hmutex.trans (lock_access (by simp [SpinCell.lockAct, SpinCell.setOwner, hclear]))
    rw [if_neg hours]
    exact hleave.trans (lock_access rfl)

lemma lockLoop (t : SpinThread) (mode : LockMode) (n : ℕ) :
    ∀ {c : SpinCell} {retries : ℕ}, c.hwTaken = false → retries + n = 10000 →
      Solo t (c, .lock mode retries .retry)
        (c.locked t.tgid (c.entry.lockLoop mode t.tgid n), .idle) := by
  induction n with
  | zero =>
    intro c retries _ hretries
    have hover : retries + 1 > 10000 := by omega
    exact lock_access (by simp [SpinCell.lockAct, hover, SpinEntry.lockLoop, SpinCell.locked])
  | succ n ih =>
    intro c retries hhw hretries
    have hunder : ¬ retries + 1 > 10000 := by omega
    have henter : Solo t (c, .lock mode retries .retry)
        (c, .enter (.lock mode (retries + 1)) .hwLock) := lock_access (if_neg hunder)
    have hround := henter.trans (round t hhw mode (retries + 1))
    rw [SpinEntry.lockLoop]
    rcases hr : c.entry.round t.tgid with ⟨e, _ | r⟩
    · rw [hr] at hround
      by_cases hmode : mode = .tryLock
      · simpa [hmode, SpinCell.locked] using hround
      · simp only [hmode, if_false] at hround ⊢
        exact hround.trans (ih (c := { c with entry := e }) hhw (by omega))
    · rw [hr] at hround
      exact hround

/-- While no other thread is at the lock, the accesses of a call add up to `SpinEntry.lock`. -/
theorem solo_lock (t : SpinThread) {c : SpinCell} (hhw : c.hwTaken = false) (mode : LockMode) :
    Solo t (c, .lock mode 0 .sanity) (c.locked t.tgid (c.entry.lock mode t.tgid), .idle) := by
  rw [SpinEntry.lock]
  by_cases hneg : i32 c.entry.refCount < 0
  · rw [if_pos hneg]
    exact lock_access (if_pos hneg)
  · rw [if_neg hneg]
    exact trans (lock_access (if_neg hneg)) (lockLoop t mode 10000 hhw rfl)

theorem solo_lock_free : Solo ⟨40, 3, .idle⟩ (.init, .lock .exclusive 0 .sanity)
    (SpinCell.init.locked 40 (SpinEntry.init.lock .exclusive 40), .idle) :=
  solo_lock ⟨40, 3, .idle⟩ rfl .exclusive

lemma unlock_stored (t : SpinThread) (c : SpinCell) (count : ℕ) :
    Solo t (c.setCount count, .unlock (if count = 0 then .freeOwner else .leaveUnlocked))
      ({ c with entry :=
          if count = 0 then
            { c.entry with refCount := count, threadId := spinlockHwidNone }.leaveCritical
          else { c.entry with refCount := count }.leaveCritical }.released t.tgid, .idle) := by
  split_ifs
  · exact ((unlock_access rfl).trans (unlock_access rfl)).trans (unlock_access rfl)
  · exact unlock_access rfl

/-- While no other thread is at the lock, the accesses of a call add up to `SpinEntry.unlock`. -/
lemma solo_unlock (t : SpinThread) {c : SpinCell} (hhw : c.hwTaken = false) :
    Solo t (c, .enter .unlock .hwLock)
      ({ c with entry := c.entry.unlock }.released t.tgid, .idle) := by
  have hcount := enter t hhw .unlock
  have hleave : Solo t (c.setOwner Table.getCurCPUID, .unlock .leaveEarly)
      (((c.setOwner Table.getCurCPUID).setOwner spinlockFree).released t.tgid, .idle) :=
    unlock_access rfl
  rw [SpinEntry.unlock_eq]
  by_cases hzero : i32 c.entry.refCount ≤ 0
  · rw [if_pos (.inl hzero)]
    refine hcount.trans (trans (unlock_access ?_) hleave)
    simp [SpinCell.unlockAct, SpinCell.setOwner, hzero]
  have hthread : Solo t (c, .enter .unlock .hwLock)
      (c.setOwner Table.getCurCPUID, .unlock .threadIsNone) := by
    have howner : Solo t (c, .enter .unlock .hwLock)
        (c.setOwner Table.getCurCPUID, .unlock .ownerIsFree) :=
      hcount.trans (unlock_access (by simp [SpinCell.unlockAct, SpinCell.setOwner, hzero]))
    exact howner.trans (unlock_access rfl)
  by_cases hnone : c.entry.threadId = spinlockHwidNone
  · rw [if_pos (.inr hnone)]
    refine hthread.trans (trans (unlock_access ?_) hleave)
    simp [SpinCell.unlockAct, SpinCell.setOwner, hnone]
  have hload : Solo t (c, .enter .unlock .hwLock)
      (c.setOwner Table.getCurCPUID, .unlock .loadCount) :=
    hthread.trans (unlock_access (by simp [SpinCell.unlockAct, SpinCell.setOwner, hnone]))
  rw [if_neg (not_or.2 ⟨hzero, hnone⟩)]
  have hstore : Solo t (c.setOwner Table.getCurCPUID, .unlock .loadCount)
      ((c.setOwner Table.getCurCPUID).setCount (sub32 c.entry.refCount 1),
        .unlock (if sub32 c.entry.refCount 1 = 0 then .freeOwner else .leaveUnlocked)) :=
    (unlock_access rfl).trans (unlock_access rfl)
  exact (hload.trans hstore).trans (unlock_stored t (c.setOwner Table.getCurCPUID) _)

end Solo

end CpuComm
