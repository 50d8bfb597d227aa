import H713.CpuComm.Socket.Steps
import Mathlib.Data.List.Range

/-!
# The pool of wait objects

A wait object is in FreeWait, in SendCmdWaitList, or in the hand of the thread that has just taken
or unlinked it. `Thread.hand` is the object a thread carries, `Thread.linked` the one it has put
into the list.
-/

namespace CpuComm

open Machine

/-! ### What a thread holds -/

namespace Thread

def hand (t : Thread) : Option ℕ :=
  match t.pc with
  | .link | .release => t.wait
  | .releaseEnd => t.found
  | _ => none

def linked (t : Thread) : Option ℕ :=
  match t.pc with
  | .copyBack | .dispatch | .ackWait | .unlink
  | .find | .await | .drain | .lookup | .finish | .unlinkEnd => t.wait
  | .up => if t.ret = -62 then none else t.wait
  | .done => if t.job.isCall ∨ t.ret = -62 then none else t.wait
  | _ => none

def inHand (w : ℕ) (t : Thread) : ℕ := if t.hand = some w then 1 else 0

def inList (w : ℕ) (t : Thread) : ℕ := if t.linked = some w then 1 else 0

/-- What the locals of a thread say by themselves. -/
structure Ok (dir : Direction) (t : Thread) : Prop where
  before : t.pc = .start ∨ t.pc = .acquire ∨ t.pc = .locked ∨ t.pc = .slotted ∨ t.pc = .verify ∨
    t.pc = .session ∨ t.pc = .peek → t.wait = none
  during : t.pc = .take ∨ t.pc = .link ∨ t.pc = .unlink ∨ t.pc = .release → t.wait.isSome
  timedOut : t.pc = .unlink ∨ t.pc = .release → t.ret = -62
  job : t.job.isCall = true → dir = .call ∧ t.job = cpuCommCallEx
  sent : t.job.isCall = true → t.pc = .copyBack ∨ t.pc = .dispatch ∨ t.pc = .ackWait →
    t.wait.isSome
  leaving : t.job.isCall = true → t.pc = .up →
    t.ret = 0 ∧ t.wait.isSome ∨ t.ret = -62 ∨ t.ret ≠ 0 ∧ t.wait = none
  calling : t.pc = .find ∨ t.pc = .await ∨ t.pc = .drain ∨ t.pc = .lookup ∨ t.pc = .finish ∨
    t.pc = .unlinkEnd ∨ t.pc = .releaseEnd → t.job.isCall = true ∧ t.wait.isSome

lemma Ok.start {dir : Direction} {t : Thread} (h : starts dir t = true) : t.Ok dir := by
  obtain ⟨hstart, hcall⟩ := starts_spec h
  have hpc : t.pc = .start := by
    rw [hstart]
    rfl
  have hwait : t.wait = none := by
    rw [hstart]
    rfl
  refine ⟨fun _ => hwait, ?_, ?_, hcall, ?_, ?_, ?_⟩ <;> simp [hpc]

lemma Ok.act {dir : Direction} {s s' : Socket} {i : ℕ} {t t' : Thread} {e : Event} (hok : t.Ok dir)
    (h : Acts dir s i t e s' t') : t'.Ok dir := by
  obtain ⟨before, during, timedOut, job, sent, leaving, calling⟩ := hok
  have hwaits : t.job.isCall = true → t.job.fireAndForget = false := fun h => by
    rw [(job h).2]
    rfl
  have hkernel : t.job.isCall = true → t.job.fromUser = false := fun h => by
    rw [(job h).2]
    rfl
  have hdir : t.job.isCall = true → dir = .call := fun h => (job h).1
  cases h
  all_goals
    refine ⟨?_, ?_, ?_, job, ?_, ?_, ?_⟩
    -- most of the facts are not about the new program counter
    all_goals try simp only [reduceCtorEq, or_self, false_implies, implies_true]
    all_goals
      clear job
      simp_all

end Thread

/-! ### What a thread does to the pool -/

/-- A step that moves no wait object. -/
structure PoolIdle (s s' : Socket) (t t' : Thread) : Prop where
  freeWait : s'.freeWait = s.freeWait
  waitList : s'.waitList = s.waitList
  waitSession : s'.waitSession = s.waitSession
  releaseSem : s'.releaseSem = s.releaseSem
  hand : t'.hand = t.hand
  linked : t'.linked = t.linked
  session : t.linked ≠ none → t'.session = t.session
  notTake : t'.pc ≠ .take

/-- The ways a step can move a wait object. -/
inductive PoolActs (s : Socket) (t : Thread) : Socket → Thread → Prop
  | peek {w : ℕ} (hpc : t.pc = .peek) (hf : s.freeWait.head? = some w) :
      PoolActs s t s { t with wait := some w, pc := .take }
  | take {w : ℕ} (hpc : t.pc = .take) (hw : t.wait = some w) :
      PoolActs s t (s.takeFreeWait w) { t with pc := .link, takenAt := s.epoch w + 1 }
  | link {w : ℕ} (hpc : t.pc = .link) (hw : t.wait = some w) :
      PoolActs s t (s.addtoWaitComm w t.session) { t with pc := .copyBack }
  | unlink {w : ℕ} (hpc : t.pc = .unlink) (hw : t.wait = some w) :
      PoolActs s t (s.getWaitbySessionId (s.waitSession w)) { t with pc := .release }
  | notLinked (hpc : t.pc = .unlinkEnd) (hf : s.findWaitBySessionId t.session = none) :
      PoolActs s t s { t with pc := .done }
  | unlinkEnd {w : ℕ} (hpc : t.pc = .unlinkEnd)
      (hf : s.findWaitBySessionId t.session = some w) :
      PoolActs s t (s.getWaitbySessionId t.session) { t with pc := .releaseEnd, found := some w }
  | release {w : ℕ} {s' : Socket} {t' : Thread} (hw : t.hand = some w) (hl : t.linked = none)
      (hs : s.releaseWaitComm w = some s') (hh : t'.hand = none) (hl' : t'.linked = none)
      (hpc : t'.pc ≠ .take) : PoolActs s t s' t'

lemma pool_act {dir : Direction} {s s' : Socket} {i : ℕ} {t t' : Thread} {e : Event}
    (hok : t.Ok dir) (h : Acts dir s i t e s' t') : PoolIdle s s' t t' ∨ PoolActs s t s' t' := by
  cases h with
  | peek hpc hf => exact .inr (.peek hpc hf)
  | take hpc hw => exact .inr (.take hpc hw)
  | link hpc hw => exact .inr (.link hpc hw)
  | unlink hpc hw => exact .inr (.unlink hpc hw)
  | notLinked hpc hf => exact .inr (.notLinked hpc hf)
  | unlinkEnd hpc hf => exact .inr (.unlinkEnd hpc hf)
  | release hpc hw hs =>
    have hret := hok.timedOut (.inr hpc)
    refine .inr (.release ?_ ?_ hs ?_ ?_ ?_) <;> simp [Thread.hand, Thread.linked, hpc, hw, hret]
  | releaseEnd hpc hf hs =>
    have hcall := (hok.calling (by simp [hpc])).1
    refine .inr (.release ?_ ?_ hs ?_ ?_ ?_) <;> simp [Thread.hand, Thread.linked, hpc, hf, hcall]
  | @up hpc hc =>
    -- a call that leaves here has failed, and then holds no object
    have hleave := hok.leaving
    refine .inl ⟨rfl, rfl, rfl, rfl, ?_, ?_, fun _ => rfl, ?_⟩
    · simp [Thread.hand, hpc]
    · by_cases hcall : t.job.isCall = true
      · rcases hleave hcall hpc with ⟨hr, -⟩ | hr | ⟨-, hw⟩
        · exact absurd ⟨hcall, hr⟩ hc
        · simp [Thread.linked, hpc, hr]
        · simp [Thread.linked, hpc, hw]
      · simp [Thread.linked, hpc, hcall]
    · simp
  | reject hpc hr | resolve hpc | acquire hpc hr | bypass hpc hr | bail hpc hr | slot hpc
  | copyFault hpc hr | copyIn hpc | mismatch hpc | forward hpc hr | backward hpc hr
  | forget hpc hr hj | session hpc hr hj | spin hpc hr =>
    have hw := hok.before (by simp [hpc])
    refine .inl ⟨rfl, rfl, rfl, rfl, ?_, ?_, ?_, ?_⟩ <;> simp [Thread.hand, Thread.linked, hpc, hw]
  | _ =>
    refine .inl ⟨rfl, rfl, rfl, rfl, ?_, ?_, fun _ => rfl, ?_⟩ <;>
      simp [Thread.hand, Thread.linked, *]

end CpuComm
