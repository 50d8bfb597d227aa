import H713.Decd.Item
import H713.Machine.Run

/-!
# Submitting a frame

`dec_frame_submit` makes a frame item with one reference and queues it `repeat` times, with a
reference for each. The result of the calls is not looked at. At the end the first reference goes.
The frame manager can release frames at any time.
-/

namespace Decd

open Machine

/-! ### `refcount_t` -/

def refcountSaturated : ℤ := -1073741824

def refcountInc (r : ℤ) : ℤ :=
  if r ≤ 0 ∨ r = 2147483647 then refcountSaturated else r + 1

def refcountDec (r : ℤ) : ℤ := if r ≤ 0 then refcountSaturated else r - 1

/-! ### The release of an item -/

/-- What the last `frame_item_release` does. -/
inductive Release where
  | signalFence
  | freeFence
  | traceUnmap
  | unmapImage
  | unmapInfo
  | freePage
  | freeItem
deriving DecidableEq, Repr

def FrameItem.releases (it : FrameItem) : List Release :=
  (if it.fence then [.signalFence, .freeFence] else []) ++
    (if it.imageMap.isSome then [.traceUnmap, .unmapImage] else []) ++
    (if it.infoMap then [.unmapInfo] else []) ++
    (if it.videoInfoPage.isSome then [.freePage] else []) ++ [.freeItem]

def FrameItem.counted (it : FrameItem) (n : ℕ) : FrameItem := { it with refcount := n }

lemma FrameItem.counted_eq {it : FrameItem} {n : ℕ} (h : it.refcount = n) : it.counted n = it := by
  rw [counted, ← h]

/-- Where `dec_frame_submit` is. The loop has the value of `repeat` in this round. -/
inductive SubmitPc where
  | inc (rep : ℤ)
  | enqueue (rep : ℤ)
  | release
  | done
deriving DecidableEq, Repr

def SubmitPc.held : SubmitPc → ℕ
  | .inc _ | .release => 1
  | .enqueue _        => 2
  | .done             => 0

def SubmitPc.left : SubmitPc → ℤ
  | .inc rep | .enqueue rep => max 1 rep
  | .release | .done        => 0

structure Submission where
  pc : SubmitPc
  item : FrameItem
  /-- the video frames that carry the item and have not been released -/
  queued : ℕ
  /-- the calls of `dec_frame_manager_enqueue_frame` that have failed -/
  failed : ℕ
  released : List Release

namespace Submission

def start (it : FrameItem) (rep : ℤ) : Submission := ⟨.inc rep, it, 0, 0, []⟩

def frameItemRelease (s : Submission) : Submission :=
  if s.item.refcount = 1 then
    { s with
      item := { s.item with refcount := refcountDec s.item.refcount, fence := false }
      released := s.released ++ s.item.releases }
  else { s with item := { s.item with refcount := refcountDec s.item.refcount } }

@[simp] lemma frameItemRelease_pc (s : Submission) : s.frameItemRelease.pc = s.pc := by
  rw [frameItemRelease]
  split_ifs <;> rfl

@[simp] lemma frameItemRelease_queued (s : Submission) :
    s.frameItemRelease.queued = s.queued := by
  rw [frameItemRelease]
  split_ifs <;> rfl

@[simp] lemma frameItemRelease_failed (s : Submission) :
    s.frameItemRelease.failed = s.failed := by
  rw [frameItemRelease]
  split_ifs <;> rfl

lemma frameItemRelease_refcount (s : Submission) :
    s.frameItemRelease.item.refcount = refcountDec s.item.refcount := by
  rw [frameItemRelease]
  split_ifs <;> rfl

inductive Event where
  /-- the next operation of `dec_frame_submit`, and whether an allocation in it succeeds -/
  | submit (ok : Bool)
  /-- the last reference to one of the frames goes -/
  | put
deriving DecidableEq, Repr

def step (s : Submission) : Event → Option Submission
  | .submit ok =>
    match s.pc with
    | .inc rep =>
      some { s with
        pc := .enqueue rep, item := { s.item with refcount := refcountInc s.item.refcount } }
    | .enqueue rep =>
      let pc := if 1 < rep then .inc (rep - 1) else .release
      if ok then some { s with pc := pc, queued := s.queued + 1 }
      else some { s with pc := pc, failed := s.failed + 1 }
    | .release => some { s.frameItemRelease with pc := .done }
    | .done    => none
  | .put => if s.queued = 0 then none else some { s.frameItemRelease with queued := s.queued - 1 }

/-! ### What the count counts -/

variable {it : FrameItem} {rep : ℤ} {s s' : Submission}

/-- The count of an item that is not released is the number of references: of `dec_frame_submit`, of
each queued frame and of each call that failed. It saturates only after `INT_MAX` rounds. -/
inductive Account (it : FrameItem) (rep : ℤ) (s : Submission) : Prop where
  | held (hpos : 0 < s.pc.held + s.queued + s.failed)
      (hitem : s.item = it.counted (s.pc.held + s.queued + s.failed))
      (hreleased : s.released = [])
  | released (hpc : s.pc = .done) (hqueued : s.queued = 0) (hfailed : s.failed = 0)
      (hcount : s.item.refcount = 0) (hreleased : s.released = it.releases)
  | saturated (hrep : 2147483647 ≤ rep) (hcount : s.item.refcount = refcountSaturated)
      (hreleased : s.released = [])

structure Inv (it : FrameItem) (rep : ℤ) (s : Submission) : Prop where
  account : s.Account it rep
  rounds : s.queued + s.failed + s.pc.left ≤ max 1 rep

lemma inv_start (hit : it.refcount = 1) : (start it rep).Inv it rep := by
  refine ⟨.held Nat.one_pos (FrameItem.counted_eq hit).symm rfl, ?_⟩
  simp [start, SubmitPc.left]

lemma Account.release {pc : SubmitPc} {queued : ℕ} (h : s.Account it rep)
    (hone : s.pc.held + s.queued = pc.held + queued + 1) (hdone : pc.held = 0 → pc = .done) :
    ({ s.frameItemRelease with pc := pc, queued := queued } : Submission).Account it rep := by
  cases h with
  | held hpos hitem hreleased =>
    have hitem' : s.item = it.counted (pc.held + queued + s.failed + 1) := by
      rw [hitem, hone, Nat.add_right_comm]
    have hcount : s.item.refcount = (pc.held + queued + s.failed + 1 : ℕ) := by
      rw [hitem']
      rfl
    rw [frameItemRelease]
    split_ifs with hlast
    · have hzero : pc.held + queued + s.failed = 0 := by omega
      refine .released (hdone (by omega)) (by dsimp only; omega) (by dsimp only; omega) ?_ ?_
      · rw [hlast]
        rfl
      · rw [hreleased, hitem]
        rfl
    · have hpos' : 0 < pc.held + queued + s.failed := by omega
      have hdec : refcountDec s.item.refcount = (pc.held + queued + s.failed : ℕ) := by
        rw [refcountDec, if_neg (by omega)]
        omega
      refine .held hpos' ?_ hreleased
      rw [hdec, hitem']
      rfl
  | released hpc hqueued hfailed hcount hreleased =>
    rw [hpc, hqueued] at hone
    exact absurd hone (by simp [SubmitPc.held])
  | saturated hrep hcount hreleased =>
    have hone : ¬ s.item.refcount = 1 := by
      rw [hcount]
      decide
    rw [frameItemRelease, if_neg hone]
    refine .saturated hrep ?_ hreleased
    rw [hcount]
    rfl

lemma Inv.inc {n : ℤ} (h : s.Inv it rep) (hpc : s.pc = .inc n) :
    ({ s with
      pc := .enqueue n
      item := { s.item with refcount := refcountInc s.item.refcount } } : Submission).Inv
      it rep := by
  have hrounds := h.rounds
  rw [hpc, SubmitPc.left] at hrounds
  refine ⟨?_, hrounds⟩
  cases h.account with
  | held hpos hitem hreleased =>
    rw [hpc, SubmitPc.held] at hitem
    have hcount : s.item.refcount = (1 + s.queued + s.failed : ℕ) := by
      rw [hitem]
      rfl
    by_cases hmax : s.item.refcount = 2147483647
    · refine .saturated (by omega) ?_ hreleased
      rw [refcountInc, if_pos (.inr hmax)]
    · refine .held (Nat.add_pos_left (Nat.add_pos_left Nat.two_pos _) _) ?_ hreleased
      have hinc : refcountInc s.item.refcount = (2 + s.queued + s.failed : ℕ) := by
        rw [refcountInc, if_neg (by omega)]
        omega
      rw [hinc, hitem]
      rfl
  | released hdone hqueued hfailed hcount hreleased =>
    rw [hpc] at hdone
    cases hdone
  | saturated hrep hcount hreleased =>
    refine .saturated hrep ?_ hreleased
    rw [hcount]
    rfl

lemma Inv.enqueue {n : ℤ} {queued failed : ℕ} (h : s.Inv it rep) (hpc : s.pc = .enqueue n)
    (hone : queued + failed = s.queued + s.failed + 1) :
    ({ s with
      pc := if 1 < n then .inc (n - 1) else .release
      queued := queued
      failed := failed } : Submission).Inv it rep := by
  have hheld : (if 1 < n then SubmitPc.inc (n - 1) else .release).held = 1 := by
    split_ifs <;> rfl
  have hleft : (if 1 < n then SubmitPc.inc (n - 1) else .release).left = max 1 n - 1 := by
    split_ifs <;> simp only [SubmitPc.left] <;> omega
  have hrounds := h.rounds
  rw [hpc, SubmitPc.left] at hrounds
  refine ⟨?_, by simp only [hleft]; omega⟩
  cases h.account with
  | held hpos hitem hreleased =>
    have hrefs : 2 + s.queued + s.failed = 1 + queued + failed := by omega
    rw [hpc, SubmitPc.held, hrefs] at hitem
    exact .held (by simp only [hheld]; omega) (by simp only [hheld, hitem]) hreleased
  | released hdone hqueued hfailed hcount hreleased =>
    rw [hpc] at hdone
    cases hdone
  | saturated hrep hcount hreleased => exact .saturated hrep hcount hreleased

lemma Inv.step {e : Event} (h : s.Inv it rep) (hs : s.step e = some s') : s'.Inv it rep := by
  have hrounds := h.rounds
  cases e with
  | submit ok =>
    cases hpc : s.pc with
    | inc n =>
      simp only [Submission.step, hpc] at hs
      cases hs
      exact h.inc hpc
    | enqueue n =>
      cases ok with
      | true =>
        simp only [Submission.step, hpc] at hs
        cases hs
        exact h.enqueue hpc (Nat.add_right_comm _ _ _)
      | false =>
        simp only [Submission.step, hpc] at hs
        cases hs
        exact h.enqueue hpc rfl
    | release =>
      simp only [Submission.step, hpc] at hs
      cases hs
      refine ⟨h.account.release ?_ fun _ => rfl, ?_⟩
      · simp only [hpc, frameItemRelease_queued, SubmitPc.held]
        omega
      · simpa only [hpc, SubmitPc.left, frameItemRelease_queued, frameItemRelease_failed]
          using hrounds
    | done =>
      simp only [Submission.step, hpc] at hs
      cases hs
  | put =>
    simp only [Submission.step] at hs
    split_ifs at hs with hzero
    cases hs
    refine ⟨h.account.release ?_ ?_, ?_⟩
    · simp only [frameItemRelease_pc]
      omega
    · rw [frameItemRelease_pc]
      cases s.pc <;> simp [SubmitPc.held]
    · simp only [frameItemRelease_pc, frameItemRelease_failed]
      omega

lemma Inv.run {es : List Event} (h : s.Inv it rep) (hrun : run Submission.step s es = some s') :
    s'.Inv it rep :=
  run_invariant (fun _ _ _ hinv hs => hinv.step hs) h hrun

/-! ### After the return -/

lemma Account.saturated_iff (h : s.Account it rep) (hqueued : s.queued ≠ 0) :
    refcountDec s.item.refcount = refcountSaturated ↔ s.item.refcount = refcountSaturated := by
  cases h with
  | held hpos hitem hreleased =>
    have hcount : s.item.refcount = (s.pc.held + s.queued + s.failed : ℕ) := by
      rw [hitem]
      rfl
    rw [refcountDec, if_neg (by omega), refcountSaturated]
    omega
  | released _ hzero _ _ _ => exact absurd hzero hqueued
  | saturated _ hcount _ =>
    rw [hcount]
    decide

lemma Inv.step_of_done {e : Event} (h : s.Inv it rep) (hdone : s.pc = .done)
    (hs : s.step e = some s') :
    s'.pc = .done ∧ s'.failed = s.failed ∧
      (s'.item.refcount = refcountSaturated ↔ s.item.refcount = refcountSaturated) := by
  cases e with
  | submit ok =>
    simp only [Submission.step, hdone] at hs
    cases hs
  | put =>
    simp only [Submission.step] at hs
    split_ifs at hs with hzero
    cases hs
    refine ⟨(frameItemRelease_pc s).trans hdone, frameItemRelease_failed s, ?_⟩
    rw [frameItemRelease_refcount]
    exact h.account.saturated_iff hzero

lemma Inv.run_of_done {es : List Event} (h : s.Inv it rep) (hdone : s.pc = .done)
    (hrun : Machine.run Submission.step s es = some s') :
    s'.pc = .done ∧ s'.failed = s.failed ∧
      (s'.item.refcount = refcountSaturated ↔ s.item.refcount = refcountSaturated) := by
  have hinv : s'.Inv it rep ∧ s'.pc = .done ∧ s'.failed = s.failed ∧
      (s'.item.refcount = refcountSaturated ↔ s.item.refcount = refcountSaturated) := by
    refine run_invariant (I := fun t => t.Inv it rep ∧ t.pc = .done ∧ t.failed = s.failed ∧
      (t.item.refcount = refcountSaturated ↔ s.item.refcount = refcountSaturated))
      ?_ ⟨h, hdone, rfl, Iff.rfl⟩ hrun
    rintro t e t' ⟨ht, hpc, hfailed, hsat⟩ hs
    obtain ⟨hpc', hfailed', hsat'⟩ := ht.step_of_done hpc hs
    exact ⟨ht.step hs, hpc', hfailed'.trans hfailed, hsat'.trans hsat⟩
  exact hinv.2

def Balanced (it : FrameItem) (s : Submission) : Prop :=
  s.item.refcount = s.queued ∧ s.released = if s.queued = 0 then it.releases else []

def Stuck (s : Submission) : Prop := s.item.refcount ≠ s.queued ∧ s.released = []

def Clean (s : Submission) : Prop := s.failed = 0 ∧ s.item.refcount ≠ refcountSaturated

/-- A frame that is queued can be allocated, and there are not `INT_MAX` references when one more is
taken. -/
def Sound (s : Submission) : Event → Prop
  | .submit ok =>
    match s.pc with
    | .inc _     => s.queued + 1 ≠ 2147483647
    | .enqueue _ => ok = true
    | _          => True
  | .put => True

instance (s : Submission) : (e : Event) → Decidable (s.Sound e)
  | .submit ok =>
    match hpc : s.pc with
    | .inc _ => decidable_of_iff (s.queued + 1 ≠ 2147483647) (by simp only [Sound, hpc])
    | .enqueue _ => decidable_of_iff (ok = true) (by simp only [Sound, hpc])
    | .release => .isTrue (by simp only [Sound, hpc])
    | .done => .isTrue (by simp only [Sound, hpc])
  | .put => .isTrue trivial

lemma Inv.clean_step_iff {e : Event} (h : s.Inv it rep) (hclean : s.Clean)
    (hs : s.step e = some s') : s'.Clean ↔ s.Sound e := by
  obtain ⟨hfailed, hsat⟩ := hclean
  cases e with
  | submit ok =>
    cases hpc : s.pc with
    | inc n =>
      simp only [Submission.step, hpc] at hs
      cases hs
      cases h.account with
      | held hpos hitem hreleased =>
        have hcount : s.item.refcount = (1 + s.queued + s.failed : ℕ) := by
          rw [hitem, hpc]
          rfl
        simp only [Clean, Sound, hpc, hfailed, true_and, refcountInc, refcountSaturated]
        split_ifs <;> omega
      | released hdone _ _ _ _ => cases hpc.symm.trans hdone
      | saturated _ hcount _ => exact absurd hcount hsat
    | enqueue n =>
      simp only [Submission.step, hpc] at hs
      cases ok with
      | true =>
        cases hs
        simp only [Sound, hpc]
        exact iff_of_true ⟨hfailed, hsat⟩ trivial
      | false =>
        cases hs
        simp only [Sound, hpc]
        exact iff_of_false (fun hc => Nat.succ_ne_zero _ hc.1) Bool.false_ne_true
    | release =>
      simp only [Submission.step, hpc] at hs
      cases hs
      simp only [Sound, hpc]
      refine iff_of_true ⟨(frameItemRelease_failed s).trans hfailed, ?_⟩ trivial
      simp only [frameItemRelease_refcount]
      cases h.account with
      | held hpos hitem hreleased =>
        have hcount : s.item.refcount = (1 + s.queued + s.failed : ℕ) := by
          rw [hitem, hpc]
          rfl
        rw [refcountDec, if_neg (by omega), refcountSaturated]
        omega
      | released hdone _ _ _ _ => cases hpc.symm.trans hdone
      | saturated _ hcount _ => exact absurd hcount hsat
    | done =>
      simp only [Submission.step, hpc] at hs
      cases hs
  | put =>
    simp only [Submission.step] at hs
    split_ifs at hs with hzero
    cases hs
    refine iff_of_true ⟨(frameItemRelease_failed s).trans hfailed, ?_⟩ trivial
    simp only [frameItemRelease_refcount]
    exact fun hdec => hsat ((h.account.saturated_iff hzero).mp hdec)

lemma not_clean_step {e : Event} (h : ¬ s.Clean) (hs : s.step e = some s') : ¬ s'.Clean := by
  have hinc : refcountInc refcountSaturated = refcountSaturated := by decide
  have hdec : refcountDec refcountSaturated = refcountSaturated := by decide
  -- a failure is never taken back, and a saturated count stays so
  have hkeeps : s.failed ≤ s'.failed ∧
      (s.item.refcount = refcountSaturated → s'.item.refcount = refcountSaturated) := by
    cases e with
    | submit ok =>
      cases hpc : s.pc with
      | inc n =>
        simp only [Submission.step, hpc] at hs
        cases hs
        exact ⟨le_rfl, fun hsat => (congrArg refcountInc hsat).trans hinc⟩
      | enqueue n =>
        simp only [Submission.step, hpc] at hs
        cases ok with
        | true =>
          cases hs
          exact ⟨le_rfl, id⟩
        | false =>
          cases hs
          exact ⟨Nat.le_succ _, id⟩
      | release =>
        simp only [Submission.step, hpc] at hs
        cases hs
        exact ⟨(frameItemRelease_failed s).ge, fun hsat =>
          (frameItemRelease_refcount s).trans ((congrArg refcountDec hsat).trans hdec)⟩
      | done =>
        simp only [Submission.step, hpc] at hs
        cases hs
    | put =>
      simp only [Submission.step] at hs
      split_ifs at hs
      cases hs
      exact ⟨(frameItemRelease_failed s).ge, fun hsat =>
        (frameItemRelease_refcount s).trans ((congrArg refcountDec hsat).trans hdec)⟩
  exact fun hc => h ⟨by have := hc.1; omega, fun hsat => hc.2 (hkeeps.2 hsat)⟩

lemma clean_iff_guarded {es : List Event} (hit : it.refcount = 1)
    (hrun : run Submission.step (start it rep) es = some s) :
    s.Clean ↔ Guarded Submission.step Sound (start it rep) es := by
  have hguarded : Guarded Submission.step (fun s _ => s.Inv it rep) (start it rep) es :=
    guarded_of_invariant (fun _ _ _ h hs => h.step hs) (fun _ _ h => h) (inv_start hit) es
  have hstart : (start it rep).Clean := ⟨rfl, by rw [start, hit]; decide⟩
  exact (hguarded.iff_end (fun _ _ _ h hc hs => h.clean_step_iff hc hs)
    (fun _ _ _ _ hn hs => not_clean_step hn hs) hstart hrun).symm

lemma Account.balanced (h : s.Account it rep) (hdone : s.pc = .done) (hclean : s.Clean) :
    s.Balanced it := by
  cases h with
  | held hpos hitem hreleased =>
    rw [hdone, hclean.1] at hpos hitem
    simp only [SubmitPc.held, Nat.zero_add, Nat.add_zero] at hpos hitem
    refine ⟨?_, ?_⟩
    · rw [hitem]
      rfl
    · rw [if_neg (by omega), hreleased]
  | released _ hqueued _ hcount hreleased =>
    refine ⟨?_, ?_⟩
    · rw [hcount, hqueued]
      rfl
    · rw [if_pos hqueued, hreleased]
  | saturated _ hcount _ => exact absurd hcount hclean.2

lemma Account.stuck (h : s.Account it rep) (hclean : ¬ s.Clean) : s.Stuck := by
  cases h with
  | held hpos hitem hreleased =>
    have hcount : s.item.refcount = (s.pc.held + s.queued + s.failed : ℕ) := by
      rw [hitem]
      rfl
    have hfailed : s.failed ≠ 0 := fun h0 =>
      hclean ⟨h0, by rw [hcount, refcountSaturated]; omega⟩
    exact ⟨by omega, hreleased⟩
  | released _ _ hfailed hcount _ =>
    exact absurd ⟨hfailed, by rw [hcount]; decide⟩ hclean
  | saturated _ hcount hreleased =>
    refine ⟨?_, hreleased⟩
    rw [hcount, refcountSaturated]
    omega

lemma Account.released_of_ne_done (h : s.Account it rep) (hpc : s.pc ≠ .done) :
    s.released = [] := by
  cases h with
  | held _ _ hreleased => exact hreleased
  | released hdone _ _ _ _ => exact absurd hdone hpc
  | saturated _ _ hreleased => exact hreleased

/-- The item is not released before `dec_frame_submit` returns. Then its count is the number of
queued frames, and it is released once with the last of them, exactly when all steps were sound.
Otherwise it never is. -/
theorem submit_balanced_iff {d : SubmitDesc} {supply : Supply} {es : List Event}
    (hit : frameItemCreate d supply = some it) (hrun : run step (start it rep) es = some s) :
    (s.pc ≠ .done → s.released = []) ∧
      (s.pc = .done →
        ((∀ es' s', run step s es' = some s' → s'.Balanced it) ↔
          Guarded step Sound (start it rep) es) ∧
        (¬ Guarded step Sound (start it rep) es → ∀ es' s', run step s es' = some s' →
          s'.Stuck)) := by
  have hinv : s.Inv it rep := (inv_start (frameItemCreate_refcount hit)).run hrun
  have hclean : s.pc = .done → ∀ es' s', run step s es' = some s' →
      s'.pc = .done ∧ (s'.Clean ↔ s.Clean) := by
    intro hdone es' s' hrun'
    obtain ⟨hdone', hfailed, hsat⟩ := hinv.run_of_done hdone hrun'
    exact ⟨hdone', by rw [Clean, Clean, hfailed, Ne, Ne, hsat]⟩
  rw [← clean_iff_guarded (frameItemCreate_refcount hit) hrun]
  refine ⟨hinv.account.released_of_ne_done, fun hdone => ?_⟩
  have hstuck : ¬ s.Clean → ∀ es' s', run step s es' = some s' → s'.Stuck := by
    intro hnot es' s' hrun'
    obtain ⟨-, hiff⟩ := hclean hdone es' s' hrun'
    exact (hinv.run hrun').account.stuck fun h => hnot (hiff.mp h)
  refine ⟨⟨fun hall => ?_, fun h es' s' hrun' => ?_⟩, hstuck⟩
  · by_contra hnot
    exact (hstuck hnot [] s rfl).1 (hall [] s rfl).1
  · obtain ⟨hdone', hiff⟩ := hclean hdone es' s' hrun'
    exact (hinv.run hrun').account.balanced hdone' (hiff.mpr h)

def twice : List Event :=
  [.submit true, .submit true, .submit true, .submit true, .submit true]

theorem submit_balanced_twice :
    ∃ s, run step (start hdItem 2) twice = some s ∧ s.pc = .done ∧ s.queued = 2 ∧
      ∀ es' s', run step s es' = some s' → s'.Balanced hdItem := by
  have hexists : ∃ s, run step (start hdItem 2) twice = some s ∧ s.pc = .done ∧ s.queued = 2 :=
    ⟨_, rfl, rfl, rfl⟩
  obtain ⟨s, hrun, hdone, hqueued⟩ := hexists
  exact ⟨s, hrun, hdone, hqueued,
    ((submit_balanced_iff frameItemCreate_hdItem hrun).2 hdone).1.mpr (by decide)⟩

/-- The one frame cannot be allocated. Nothing is left to happen, and the item still has a
reference. -/
theorem submit_leaks :
    ∃ s, run step (start hdItem 1) [.submit true, .submit false, .submit true] = some s ∧
      s.pc = .done ∧ s.queued = 0 ∧ s.item.refcount = 1 ∧ s.released = [] ∧
      ∀ e, s.step e = none := by
  refine ⟨_, rfl, rfl, rfl, by decide, rfl, fun e => ?_⟩
  cases e <;> rfl

end Submission

end Decd
