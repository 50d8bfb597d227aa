import H713.CpuComm.SpinLock.Exclusion

/-!
# The spinlocks when a CPU is reset

`comm_SpinLockCleanUpInCPUReset` releases the locks whose owner byte names the CPU that is reset.
The byte does so only between `enterCritical` and `leaveCritical`.
-/

namespace CpuComm

open Machine Option

inductive Cpu where
  | arm
  | mips
deriving DecidableEq, Repr

namespace Cpu

def id : Cpu → ℕ
  | arm => Table.getCurCPUID
  | mips => 1

def other : Cpu → Cpu
  | arm => mips
  | mips => arm

def exchange (cpu : Cpu) : Equiv.Perm ℕ := Equiv.swap Table.getCurCPUID cpu.id

lemma id_injective : Function.Injective id := by
  intro a b h
  cases a <;> cases b <;> first | rfl | cases h

lemma id_ne_free (cpu : Cpu) : cpu.id ≠ spinlockFree := by
  cases cpu <;> decide

@[simp]
lemma exchange_exchange (cpu : Cpu) (owner : ℕ) : cpu.exchange (cpu.exchange owner) = owner :=
  Equiv.swap_apply_self ..

@[simp]
lemma exchange_current (cpu : Cpu) : cpu.exchange Table.getCurCPUID = cpu.id :=
  Equiv.swap_apply_left ..

@[simp]
lemma exchange_free (cpu : Cpu) : cpu.exchange spinlockFree = spinlockFree :=
  Equiv.swap_apply_of_ne_of_ne (by decide) cpu.id_ne_free.symm

end Cpu

/-! ### Threads of both CPUs -/

/-- One lock for both CPUs: how often it is held is counted by CPU and `tgid`. -/
structure CpuCell where
  entry : SpinEntry
  hwTaken : Bool
  held : Cpu → ℕ → ℕ

namespace CpuCell

def init : CpuCell := ⟨.init, false, fun _ _ => 0⟩

variable (c : CpuCell)

def on (cpu : Cpu) : SpinCell :=
  ⟨{ c.entry with owner := cpu.exchange c.entry.owner }, c.hwTaken, c.held cpu⟩

def put (cpu : Cpu) (v : SpinCell) : CpuCell :=
  ⟨{ v.entry with owner := cpu.exchange v.entry.owner }, v.hwTaken,
    Function.update c.held cpu v.held⟩

lemma put_on (cpu : Cpu) : c.put cpu (c.on cpu) = c := by
  simp only [put, on, Cpu.exchange_exchange, Function.update_eq_self]

end CpuCell

abbrev CpuLocks := Fin 12 → CpuCell

structure CpuThread extends SpinThread where
  cpu : Cpu
deriving DecidableEq, Repr

namespace CpuThread

def act (s : CpuLocks) (t : CpuThread) (e : SpinEvent) : Option (CpuLocks × CpuThread) :=
  (t.toSpinThread.act (fun id => (s id).on t.cpu) e).map fun r =>
    (fun id => (s id).put t.cpu (r.1 id), { t with toSpinThread := r.2 })

end CpuThread

def cpuSystem : System CpuLocks CpuThread SpinEvent Empty where
  act s _ t e := t.act s e
  env _ x := x.elim
  start t := t.pc = .idle

def cpuInit : Pool CpuLocks CpuThread := ⟨fun _ => .init, []⟩

/-! ### The cleanup -/

variable (cpu : Cpu)

def SpinEntry.cleanUp (e : SpinEntry) : SpinEntry :=
  if e.owner = cpu.id then
    { e with owner := spinlockFree, refCount := 0, threadId := spinlockHwidNone }
  else e

variable (s : CpuLocks)

def commSpinLockCleanUpInCPUReset : CpuLocks :=
  fun id => { s id with entry := (s id).entry.cleanUp cpu }

def CpuCell.HeldBy (c : CpuCell) (cpu : Cpu) : Prop := ∃ tgid, 0 < c.held cpu tgid

def CleansUp : Prop :=
  ∀ id, ((s id).HeldBy cpu → (commSpinLockCleanUpInCPUReset cpu s id).entry.refCount = 0) ∧
    ((s id).HeldBy cpu.other →
      (commSpinLockCleanUpInCPUReset cpu s id).entry.refCount = (s id).entry.refCount ∧
        (commSpinLockCleanUpInCPUReset cpu s id).entry.threadId = (s id).entry.threadId)

def OwnerTells : Prop :=
  ∀ id, ((s id).HeldBy cpu → (s id).entry.owner = cpu.id ∨ (s id).entry.refCount = 0) ∧
    ((s id).HeldBy cpu.other → (s id).entry.owner = cpu.id →
      (s id).entry.refCount = 0 ∧ (s id).entry.threadId = spinlockHwidNone)

/-- What the cleanup does to one lock is told by the owner byte. -/
theorem cleansUp_iff_ownerTells : CleansUp cpu s ↔ OwnerTells cpu s := by
  refine forall_congr' fun id => ?_
  simp only [commSpinLockCleanUpInCPUReset, SpinEntry.cleanUp]
  split_ifs with howner
  · -- the entry is wiped: right for a lock of `cpu`, and for others only if it was clear already
    simp only [howner, true_or, implies_true, true_and, true_implies]
    exact imp_congr_right fun _ => and_congr eq_comm eq_comm
  · -- the entry is left as it is
    simp only [howner, false_or, and_self, implies_true, false_implies]

/-! ### The owner byte along a run -/

lemma SpinCell.setCount_owner (c : SpinCell) (count : ℕ) :
    (c.setCount count).entry.owner = c.entry.owner := rfl

lemma owner_access {c c' : SpinCell} {tgid : ℕ} {pc pc' : SpinPc}
    (h : Accesses c tgid pc c' pc') :
    c'.entry.owner = spinlockFree ∨
    (c'.entry.owner = Table.getCurCPUID ∧ pc'.inside = true) ∨
    (c'.entry.owner = c.entry.owner ∧ (pc.inside = true → pc'.inside = true)) := by
  cases h with
  | @enter call _ _ _ h =>
    cases h with
    | wait gotHw he => exact .inr (.inr ⟨by rw [he], fun h => by cases h⟩)
    | claim => exact .inr (.inl ⟨rfl, rfl⟩)
    | force => exact .inr (.inl ⟨rfl, by cases call <;> rfl⟩)
    | entered he => exact .inr (.inr ⟨by rw [he], fun _ => by cases call <;> rfl⟩)
  | @lock mode retries k _ _ h =>
    cases k with
    | sanity | retry =>
      rw [SpinCell.lockAct] at h
      split_ifs at h <;> cases h <;> exact .inr (.inr ⟨rfl, fun h => by cases h⟩)
    | leaveLocked | leaveBusy =>
      cases h
      exact .inl rfl
    | reclaim =>
      cases h
      exact .inr (.inl ⟨rfl, rfl⟩)
    | setThread | loadCount | storeCount =>
      cases h
      exact .inr (.inr ⟨rfl, fun _ => rfl⟩)
    | ownerIsUs | threadIsNone | mutexIsClear | threadIsUs | ownerIsFree =>
      cases h
      refine .inr (.inr ⟨rfl, fun _ => ?_⟩)
      split_ifs <;> rfl
  | @unlock k _ _ h =>
    cases k with
    | leaveEarly | leaveUnlocked | freeOwner =>
      cases h
      exact .inl rfl
    | countIsZero | ownerIsFree | threadIsNone | loadCount | clearThread =>
      cases h
      exact .inr (.inr ⟨rfl, fun _ => rfl⟩)
    | storeCount count =>
      rw [SpinCell.unlockAct] at h
      cases h
      exact .inr (.inr ⟨SpinCell.setCount_owner .., fun _ => rfl⟩)

lemma cpuAct_cases {s s' : CpuLocks} {t t' : CpuThread} {e : SpinEvent}
    (h : t.act s e = some (s', t')) :
    (t.pc = .idle ∧ s' = s) ∨
    ∃ c' pc, Accesses ((s t.lockId).on t.cpu) t.tgid t.pc c' pc ∧
      s' = Function.update s t.lockId ((s t.lockId).put t.cpu c') ∧
      t'.cpu = t.cpu ∧ t'.lockId = t.lockId ∧ t'.pc = pc := by
  obtain ⟨⟨r, u⟩, hact, heq⟩ := map_eq_some_iff.mp h
  cases heq
  rcases spinAct_cases hact with ⟨hidle, rfl, -⟩ | ⟨c', pc, hc, rfl, rfl⟩
  · exact .inl ⟨hidle, funext fun id => (s id).put_on t.cpu⟩
  · refine .inr ⟨c', pc, accesses_of_cellAct hc, funext fun id => ?_, rfl, rfl, rfl⟩
    by_cases hid : id = t.lockId
    · subst hid
      simp only [Function.update_self]
    · simp only [Function.update_of_ne hid]
      exact (s id).put_on t.cpu

def InsideOf (id : Fin 12) (p : Pool CpuLocks CpuThread) : Prop :=
  ∃ (i : ℕ) (t : CpuThread), p.threads[i]? = some t ∧ t.cpu = cpu ∧ t.toSpinThread.Inside id

def OwnerInside (p : Pool CpuLocks CpuThread) : Prop :=
  ∀ id cpu, (p.shared id).entry.owner = cpu.id → InsideOf cpu id p

lemma cpuInit_ownerInside : OwnerInside cpuInit :=
  fun _ cpu h => (cpu.id_ne_free h.symm).elim

lemma insideOf_set {cpu : Cpu} {id : Fin 12} {p : Pool CpuLocks CpuThread} {s' : CpuLocks}
    {i : ℕ} {t t' : CpuThread} (ht : p.threads[i]? = some t) (hin : InsideOf cpu id p)
    (hself : t.cpu = cpu → t.toSpinThread.Inside id →
      t'.cpu = cpu ∧ t'.toSpinThread.Inside id) :
    InsideOf cpu id ⟨s', p.threads.set i t'⟩ := by
  obtain ⟨j, u, hu, hcpu, hid⟩ := hin
  by_cases hij : i = j
  · subst hij
    obtain rfl : t = u := Option.some.inj (ht.symm.trans hu)
    exact ⟨i, t', by rw [List.getElem?_set_self', ht]; rfl, hself hcpu hid⟩
  · exact ⟨j, u, by rw [List.getElem?_set_ne hij, hu], hcpu, hid⟩

lemma ownerInside_step {p p' : Pool CpuLocks CpuThread} {l : Label CpuThread SpinEvent Empty}
    (hp : OwnerInside p) (h : cpuSystem.step p l = some p') : OwnerInside p' := by
  intro id cpu howner
  cases System.steps_of_step h with
  | @act i e t t' s' ht ha =>
    rcases cpuAct_cases ha with ⟨hidle, rfl⟩ | ⟨c', pc, hacc, rfl, hcpu', hid', rfl⟩
    · refine insideOf_set ht (hp id cpu howner) fun _ hin => ?_
      rw [SpinThread.Inside, hidle] at hin
      cases hin.2
    by_cases hid : id = t.lockId
    · subst hid
      simp only [Function.update_self, CpuCell.put] at howner
      rcases owner_access hacc with hfree | ⟨hours, hin⟩ | ⟨hsame, hstay⟩
      · rw [hfree, Cpu.exchange_free] at howner
        exact (cpu.id_ne_free howner.symm).elim
      · rw [hours, Cpu.exchange_current] at howner
        exact ⟨i, t', by rw [List.getElem?_set_self', ht]; rfl,
          hcpu'.trans (Cpu.id_injective howner), hid', hin⟩
      · rw [hsame, CpuCell.on, Cpu.exchange_exchange] at howner
        exact insideOf_set ht (hp _ cpu howner) fun hcpu hin =>
          ⟨hcpu'.trans hcpu, hid'.trans hin.1, hstay hin.2⟩
    · simp only [Function.update_of_ne hid] at howner
      exact insideOf_set ht (hp id cpu howner) fun _ hin => (hid hin.1.symm).elim
  | @env x => exact x.elim
  | spawn =>
    obtain ⟨j, u, hu, hin⟩ := hp id cpu howner
    obtain ⟨hj, -⟩ := List.getElem?_eq_some_iff.mp hu
    exact ⟨j, u, by rw [List.getElem?_append_left hj, hu], hin⟩

lemma run_ownerInside {ls : List (Label CpuThread SpinEvent Empty)} {p : Pool CpuLocks CpuThread}
    (hrun : run cpuSystem.step cpuInit ls = some p) : OwnerInside p :=
  run_invariant (fun _ _ _ hp h => ownerInside_step hp h) cpuInit_ownerInside hrun

/-- In every reachable state, the cleanup does its work exactly if the owner bytes tell who holds
the locks. They name a CPU only for a lock that one of its threads is inside. -/
theorem cleanUp_iff (ls : List (Label CpuThread SpinEvent Empty)) (p : Pool CpuLocks CpuThread)
    (hrun : run cpuSystem.step cpuInit ls = some p) (cpu : Cpu) :
    (CleansUp cpu p.shared ↔ OwnerTells cpu p.shared) ∧
    ∀ id, (p.shared id).entry.owner = cpu.id → InsideOf cpu id p :=
  ⟨cleansUp_iff_ownerTells cpu p.shared, fun id => run_ownerInside hrun id cpu⟩

def locksBy : List (Label CpuThread SpinEvent Empty) :=
  [.spawn ⟨⟨40, ⟨0, by decide⟩, .idle⟩, cpu⟩,
      .act 0 (.callLock ⟨3, by decide⟩ .exclusive)] ++
    List.replicate 11 (.act 0 .go)

/-- A thread of the MIPS looks at a lock. -/
def looksAt (holder : Cpu) : List (Label CpuThread SpinEvent Empty) :=
  locksBy holder ++
    [.spawn ⟨⟨41, ⟨0, by decide⟩, .idle⟩, .mips⟩,
      .act 1 (.callLock ⟨3, by decide⟩ .tryLock)] ++
    List.replicate 4 (.act 1 .go)

/-- A lock of the MIPS is cleaned up while one of its threads looks at it. -/
theorem cleanUp_iff_looks :
    ∃ p, run cpuSystem.step cpuInit (looksAt .mips) = some p ∧ 0 < (p.shared 3).held .mips 40 ∧
      InsideOf .mips 3 p ∧ CleansUp .mips p.shared := by
  have hstate : (run cpuSystem.step cpuInit (looksAt .mips)).map (fun p =>
      ((p.shared 3).held .mips 40, decide (∀ id, ((p.shared id).entry.owner = 1 ↔ id = 3) ∧
        (id ≠ 3 → (p.shared id).entry.refCount = 0)))) = some (1, true) := by
    decide +kernel
  have harm : (run cpuSystem.step cpuInit (looksAt .mips)).map (fun p => (p.shared 3).held .arm) =
      some fun _ => 0 := rfl
  obtain ⟨p, hp, hall⟩ := map_eq_some_iff.mp hstate
  obtain ⟨hheld, howner⟩ := Prod.mk.inj hall
  rw [hp, map_some, Option.some.injEq] at harm
  obtain ⟨hiff, hinside⟩ := cleanUp_iff (looksAt .mips) p hp .mips
  have hlooks := of_decide_eq_true howner
  have htells : OwnerTells .mips p.shared := by
    intro id
    obtain ⟨hown, hzero⟩ := hlooks id
    by_cases hid : id = 3
    · refine ⟨fun _ => .inl (hown.mpr hid), ?_⟩
      rintro ⟨tgid, hpos⟩ -
      rw [hid, Cpu.other, harm] at hpos
      exact absurd hpos (Nat.lt_irrefl 0)
    · exact ⟨fun _ => .inr (hzero hid), fun _ howner => absurd (hown.mp howner) hid⟩
  exact ⟨p, hp, hheld ▸ Nat.one_pos, hinside 3 ((hlooks 3).1.mpr rfl), hiff.mpr htells⟩

/-- Between the calls the lock stays with the process that is gone. While a thread of the MIPS looks
at a lock of the ARM, the cleanup takes it from the ARM. -/
theorem cleanUp_misses_and_wipes :
    (∃ p, run cpuSystem.step cpuInit (locksBy .mips) = some p ∧ 0 < (p.shared 3).held .mips 40 ∧
      (commSpinLockCleanUpInCPUReset .mips p.shared 3).entry.refCount = 1 ∧
      ¬CleansUp .mips p.shared) ∧
    ∃ p, run cpuSystem.step cpuInit (looksAt .arm) = some p ∧ 0 < (p.shared 3).held .arm 40 ∧
      (commSpinLockCleanUpInCPUReset .mips p.shared 3).entry.refCount = 0 ∧
      ¬CleansUp .mips p.shared := by
  constructor
  · have hstate : (run cpuSystem.step cpuInit (locksBy .mips)).map (fun p =>
        ((p.shared 3).held .mips 40,
          (commSpinLockCleanUpInCPUReset .mips p.shared 3).entry.refCount)) = some (1, 1) := by
      decide +kernel
    obtain ⟨p, hp, hall⟩ := map_eq_some_iff.mp hstate
    obtain ⟨hheld, hcount⟩ := Prod.mk.inj hall
    refine ⟨p, hp, hheld ▸ Nat.one_pos, hcount, fun hclean => ?_⟩
    have hzero := (hclean 3).1 ⟨40, hheld ▸ Nat.one_pos⟩
    rw [hcount] at hzero
    cases hzero
  · have hstate : (run cpuSystem.step cpuInit (looksAt .arm)).map (fun p =>
        ((p.shared 3).held .arm 40, (p.shared 3).entry.refCount,
          (commSpinLockCleanUpInCPUReset .mips p.shared 3).entry.refCount)) = some (1, 1, 0) := by
      decide +kernel
    obtain ⟨p, hp, hall⟩ := map_eq_some_iff.mp hstate
    obtain ⟨hheld, hcounts⟩ := Prod.mk.inj hall
    obtain ⟨hbefore, hafter⟩ := Prod.mk.inj hcounts
    refine ⟨p, hp, hheld ▸ Nat.one_pos, hafter, fun hclean => ?_⟩
    have hkept := ((hclean 3).2 ⟨40, hheld ▸ Nat.one_pos⟩).1
    rw [hafter, hbefore] at hkept
    cases hkept

end CpuComm
