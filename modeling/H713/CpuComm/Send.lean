import H713.CpuComm.Fifo.Basic
import Mathlib.Data.List.Perm.Basic
import Mathlib.Data.List.Flatten

/-!
# The call slots of a send

`SendComm2CPUEx` up to the call of `SendCommLow`, with every exit, and the FreeCall FIFO it takes a
call slot from. Faults, the flags of the CPUs, and what happens during each `schedule` are given
beforehand.
-/

namespace CpuComm

open Machine Nat

/-- The address of a call entry, `0` for none, and the slot index in the entry at `+4`. -/
structure CallEntry where
  vir : ℕ
  slotIdx : ℕ
deriving DecidableEq, Repr

/-- The arguments of `SendComm2CPUEx` and the fields it reads of the message. -/
structure SendArgs where
  msgPtr : ℕ
  targetCpu : ℕ
  fromUser : Bool
  /-- `u32` at `+40` -/
  compId : ℕ
  /-- `u16` at `+2` -/
  dstHint : ℕ
deriving DecidableEq, Repr

/-- What a send meets on its way. -/
structure SendWorld where
  /-- faults of the `get_user` calls at `+40` and `+2`, and of the two message copies -/
  compIdFault : Bool
  dstFault : Bool
  copyFromFault : Bool
  copyToFault : Bool
  /-- byte 2 of the routine that `FindRoutine` finds -/
  findRoutine : ℕ → Option ℕ
  /-- the reset flags when first looked at, and under the semaphore -/
  resetBefore : ℕ → Bool
  resetAfter : ℕ → Bool
  appReady : ℕ → Bool
  /-- `getShareSeqW`, `0` if there is none -/
  shareSeqW : ℕ → ℕ → ℕ
  /-- the command FIFO at `share_seq_w + 32` after so many calls of `schedule` -/
  cmdFifo : ℕ → CommFifo
  /-- the slots the other CPU releases during each call of `schedule` -/
  mips : ℕ → List CallEntry

/-- The FreeCall FIFO, and how often `schedule` has been called. -/
structure SendState where
  freeCall : List CallEntry
  tick : ℕ
deriving DecidableEq, Repr

/-- How a send left the part before `SendCommLow`. -/
inductive SendOutcome where
  | returned (ret : ℤ)
  | dispatched
deriving DecidableEq, Repr

/-! ### The source functions -/

def SendState.schedule (w : SendWorld) (s : SendState) : SendState :=
  ⟨s.freeCall ++ w.mips s.tick, s.tick + 1⟩

def commGetFreeCall (freeCall : List CallEntry) : Option (CallEntry × List CallEntry) :=
  match freeCall with
  | []        => none
  | e :: rest =>
    if e.vir = 0 then none
    else if e.slotIdx > 19 then none
    else some (e, rest)

def isCpuReset (flag : ℕ → Bool) (cpu : ℕ) : Bool := cpu ≤ 1 && flag cpu

def readDstHint (w : SendWorld) (a : SendArgs) : Except ℤ ℕ :=
  if a.fromUser && w.dstFault then .error (-14) else .ok a.dstHint

def resolveDst (w : SendWorld) (a : SendArgs) : Except ℤ ℕ :=
  if a.targetCpu = 0 then
    if a.fromUser && w.compIdFault then .error (-14)
    else
      match w.findRoutine a.compId with
      | none   => .error (-3)
      | some b => if b > 1 then readDstHint w a else .ok b
  else readDstHint w a

def waitCmdSpace (w : SendWorld) : ℕ → SendState → Bool × SendState
  | 0, s     => (false, s)
  | n + 1, s =>
    if fifoIsNearlyFull (w.cmdFifo s.tick) 1 then waitCmdSpace w n (s.schedule w) else (true, s)

def waitFreeCall (w : SendWorld) : ℕ → SendState → Option CallEntry × SendState
  | 0, s     => (none, s)
  | n + 1, s =>
    match commGetFreeCall s.freeCall with
    | some (e, rest) => (some e, { s with freeCall := rest })
    | none           => waitFreeCall w n (s.schedule w)

def fillSlot (w : SendWorld) (a : SendArgs) (seq : ℕ) (e : CallEntry) : SendOutcome :=
  if a.fromUser && w.copyFromFault then .returned (-14)
  else if e.vir ≠ u32 (seq + 104 * e.slotIdx + 360) then .returned (-22)
  else if a.fromUser && w.copyToFault then .returned (-14)
  else .dispatched

def pollSlot (w : SendWorld) (a : SendArgs) (seq : ℕ) (s : SendState) : SendOutcome × SendState :=
  match waitCmdSpace w 101 s with
  | (false, s₁) => (.returned (-16), s₁)
  | (true, s₁)  =>
    match waitFreeCall w 101 s₁ with
    | (none, s₂)   => (.returned (-16), s₂)
    | (some e, s₂) => (fillSlot w a seq e, s₂)

def sendComm2CpuEx (w : SendWorld) (a : SendArgs) (freeCall : List CallEntry) :
    SendOutcome × SendState :=
  let s : SendState := ⟨freeCall, 0⟩
  if a.msgPtr = 0 ∨ a.targetCpu > 1 then (.returned (-22), s)
  else
    match resolveDst w a with
    | .error r => (.returned r, s)
    | .ok dst  =>
      if isCpuReset w.resetBefore dst then (.returned (-512), s)
      else if dst > 1 then (.returned (-22), s)
      else if w.shareSeqW dst a.targetCpu = 0 then (.returned (-22), s)
      -- from here on under the send semaphore
      else if isCpuReset w.resetAfter dst then (.returned (-512), s)
      else if !w.appReady dst then (.returned (-1), s)
      else pollSlot w a (w.shareSeqW dst a.targetCpu) s

/-! ### Polling -/

def withReleases (w : SendWorld) (freeCall : List CallEntry) (m : ℕ) : List CallEntry :=
  freeCall ++ (List.range m).flatMap w.mips

variable {w : SendWorld} {a : SendArgs} {freeCall : List CallEntry}

lemma schedule_withReleases (m : ℕ) :
    SendState.schedule w ⟨withReleases w freeCall m, m⟩
      = ⟨withReleases w freeCall (m + 1), m + 1⟩ := by
  simp [SendState.schedule, withReleases, List.range_succ]

lemma forall_lt_succ (P : ℕ → Prop) {m n : ℕ} (h0 : P m) (h : ∀ i < n, P (m + 1 + i)) :
    ∀ i < n + 1, P (m + i) := by
  intro i hi
  cases i with
  | zero => exact h0
  | succ i =>
    rw [Nat.add_comm i 1, ← Nat.add_assoc]
    exact h i (lt_of_succ_lt_succ hi)

lemma waitCmdSpace_spec (w : SendWorld) (freeCall : List CallEntry) (n m : ℕ) :
    (∃ k < n, (∀ i < k, fifoIsNearlyFull (w.cmdFifo (m + i)) 1 = true) ∧
      fifoIsNearlyFull (w.cmdFifo (m + k)) 1 = false ∧
      waitCmdSpace w n ⟨withReleases w freeCall m, m⟩
        = (true, ⟨withReleases w freeCall (m + k), m + k⟩)) ∨
    ((∀ i < n, fifoIsNearlyFull (w.cmdFifo (m + i)) 1 = true) ∧
      waitCmdSpace w n ⟨withReleases w freeCall m, m⟩
        = (false, ⟨withReleases w freeCall (m + n), m + n⟩)) := by
  induction n generalizing m with
  | zero => exact .inr ⟨fun i hi => absurd hi i.not_lt_zero, rfl⟩
  | succ n ih =>
    cases hfull : fifoIsNearlyFull (w.cmdFifo m) 1 with
    | false =>
      refine .inl ⟨0, n.succ_pos, fun i hi => absurd hi i.not_lt_zero, hfull, ?_⟩
      simp [waitCmdSpace, hfull]
    | true =>
      -- one more call of `schedule`, then as for `n`
      have hpolls (k : ℕ) := forall_lt_succ (n := k)
        (fun i => fifoIsNearlyFull (w.cmdFifo i) 1 = true) hfull
      have hshift (k : ℕ) : m + (k + 1) = m + 1 + k := by omega
      simp only [waitCmdSpace, hfull, if_true, schedule_withReleases]
      rcases ih (m + 1) with ⟨k, hk, hbefore, hspace, heq⟩ | ⟨hall, heq⟩
      · exact .inl ⟨k + 1, succ_lt_succ hk, hpolls k hbefore, by rwa [hshift k],
          by rwa [hshift k]⟩
      · exact .inr ⟨hpolls n hall, by rwa [hshift n]⟩

lemma waitFreeCall_spec (w : SendWorld) (freeCall : List CallEntry) (n m : ℕ) :
    (∃ j < n, ∃ e rest, commGetFreeCall (withReleases w freeCall (m + j)) = some (e, rest) ∧
      waitFreeCall w n ⟨withReleases w freeCall m, m⟩ = (some e, ⟨rest, m + j⟩)) ∨
    ((∀ j < n, commGetFreeCall (withReleases w freeCall (m + j)) = none) ∧
      waitFreeCall w n ⟨withReleases w freeCall m, m⟩
        = (none, ⟨withReleases w freeCall (m + n), m + n⟩)) := by
  induction n generalizing m with
  | zero => exact .inr ⟨fun j hj => absurd hj j.not_lt_zero, rfl⟩
  | succ n ih =>
    cases hget : commGetFreeCall (withReleases w freeCall m) with
    | some r =>
      obtain ⟨e, rest⟩ := r
      refine .inl ⟨0, n.succ_pos, e, rest, hget, ?_⟩
      simp [waitFreeCall, hget]
    | none =>
      have hshift (k : ℕ) : m + (k + 1) = m + 1 + k := by omega
      simp only [waitFreeCall, hget, schedule_withReleases]
      rcases ih (m + 1) with ⟨j, hj, e, rest, hsome, heq⟩ | ⟨hall, heq⟩
      · exact .inl ⟨j + 1, succ_lt_succ hj, e, rest, by rwa [hshift j], by rwa [hshift j]⟩
      · exact .inr ⟨forall_lt_succ (fun k => commGetFreeCall (withReleases w freeCall k) = none)
          hget hall, by rwa [hshift n]⟩

lemma commGetFreeCall_eq_some {l rest : List CallEntry} {e : CallEntry}
    (h : commGetFreeCall l = some (e, rest)) : l = e :: rest := by
  unfold commGetFreeCall at h
  split at h
  · cases h
  · split_ifs at h
    cases h
    rfl

/-! ### When a failed send keeps the slots -/

def Admitted (w : SendWorld) (a : SendArgs) : Prop :=
  a.msgPtr ≠ 0 ∧ a.targetCpu ≤ 1 ∧ ∃ dst ≤ 1, resolveDst w a = .ok dst ∧
    w.resetBefore dst = false ∧ w.shareSeqW dst a.targetCpu ≠ 0 ∧ w.resetAfter dst = false ∧
    w.appReady dst = true

def SlotOffered (w : SendWorld) (freeCall : List CallEntry) : Prop :=
  ∃ k ≤ 100, (∀ i < k, fifoIsNearlyFull (w.cmdFifo i) 1 = true) ∧
    fifoIsNearlyFull (w.cmdFifo k) 1 = false ∧
    ∃ j ≤ 100, (commGetFreeCall (withReleases w freeCall (k + j))).isSome

lemma readDstHint_error {r : ℤ} (h : readDstHint w a = .error r) : r ≠ 0 := by
  unfold readDstHint at h
  split_ifs at h
  cases h
  decide

lemma resolveDst_error {r : ℤ} (h : resolveDst w a = .error r) : r ≠ 0 := by
  unfold resolveDst at h
  split_ifs at h
  · cases h
    decide
  · split at h
    · cases h
      decide
    · split_ifs at h
      exact readDstHint_error h
  · exact readDstHint_error h

lemma sendComm2CpuEx_cases (w : SendWorld) (a : SendArgs) (freeCall : List CallEntry) :
    (¬Admitted w a ∧ ∃ r ≠ 0, sendComm2CpuEx w a freeCall = (.returned r, ⟨freeCall, 0⟩)) ∨
    (Admitted w a ∧ ∃ seq, sendComm2CpuEx w a freeCall = pollSlot w a seq ⟨freeCall, 0⟩) := by
  unfold sendComm2CpuEx
  by_cases hargs : a.msgPtr = 0 ∨ a.targetCpu > 1
  · rw [if_pos hargs]
    refine .inl ⟨fun had => ?_, -22, by decide, rfl⟩
    rcases hargs with h | h
    · exact had.1 h
    · exact Nat.not_lt.mpr had.2.1 h
  rw [if_neg hargs]
  obtain ⟨hmsg, htarget⟩ := not_or.mp hargs
  cases hres : resolveDst w a with
  | error r =>
    refine .inl ⟨?_, r, resolveDst_error hres, rfl⟩
    rintro ⟨-, -, dst, -, hok, -⟩
    rw [hres] at hok
    cases hok
  | ok dst =>
    -- an admitted send has this very destination
    have hdst : Admitted w a ↔ dst ≤ 1 ∧ w.resetBefore dst = false ∧
        w.shareSeqW dst a.targetCpu ≠ 0 ∧ w.resetAfter dst = false ∧ w.appReady dst = true := by
      constructor
      · rintro ⟨-, -, d, hle, hok, hrest⟩
        obtain rfl : dst = d := Except.ok.inj (hres.symm.trans hok)
        exact ⟨hle, hrest⟩
      · exact fun h => ⟨hmsg, Nat.le_of_not_lt htarget, dst, h.1, hres, h.2⟩
    simp only [hdst]
    split_ifs with hreset hrange hseq hreset' hready
    · refine .inl ⟨fun h => ?_, -512, by decide, rfl⟩
      simp [isCpuReset, h.2.1] at hreset
    · exact .inl ⟨fun h => Nat.not_lt.mpr h.1 hrange, -22, by decide, rfl⟩
    · exact .inl ⟨fun h => h.2.2.1 hseq, -22, by decide, rfl⟩
    · refine .inl ⟨fun h => ?_, -512, by decide, rfl⟩
      simp [isCpuReset, h.2.2.2.1] at hreset'
    · refine .inl ⟨fun h => ?_, -1, by decide, rfl⟩
      simp [h.2.2.2.2] at hready
    · have hle : dst ≤ 1 := Nat.le_of_not_lt hrange
      simp only [isCpuReset, hle, decide_true, Bool.true_and, Bool.not_eq_true] at hreset hreset'
      exact .inr ⟨⟨hle, hreset, hseq, hreset', by simpa using hready⟩, _, rfl⟩

lemma pollSlot_cases (w : SendWorld) (a : SendArgs) (seq : ℕ) (freeCall : List CallEntry) :
    (¬SlotOffered w freeCall ∧ ∃ m, pollSlot w a seq ⟨freeCall, 0⟩
      = (.returned (-16), ⟨withReleases w freeCall m, m⟩)) ∨
    (SlotOffered w freeCall ∧ ∃ e rest m, withReleases w freeCall m = e :: rest ∧
      pollSlot w a seq ⟨freeCall, 0⟩ = (fillSlot w a seq e, ⟨rest, m⟩)) := by
  have hzero : freeCall = withReleases w freeCall 0 := by simp [withReleases]
  unfold pollSlot
  rw [show (⟨freeCall, 0⟩ : SendState) = ⟨withReleases w freeCall 0, 0⟩ by rw [← hzero]]
  rcases waitCmdSpace_spec w freeCall 101 0
    with ⟨k, hk, hbefore, hspace, heq⟩ | ⟨hall, heq⟩
  · simp only [Nat.zero_add] at hbefore hspace heq
    rw [heq]
    simp only
    rcases waitFreeCall_spec w freeCall 101 k
      with ⟨j, hj, e, rest, hget, heq'⟩ | ⟨hnone, heq'⟩
    · rw [heq']
      refine .inr ⟨⟨k, le_of_lt_succ hk, hbefore, hspace, j, le_of_lt_succ hj, ?_⟩,
        e, rest, k + j, commGetFreeCall_eq_some hget, rfl⟩
      simp [hget]
    · rw [heq']
      refine .inl ⟨?_, k + 101, rfl⟩
      rintro ⟨k', hk', hbefore', hspace', j, hj, hsome⟩
      -- both are the first poll that finds room
      obtain rfl : k = k' := by
        rcases Nat.lt_trichotomy k k' with h | h | h
        · simp [hbefore' k h] at hspace
        · exact h
        · simp [hbefore k' h] at hspace'
      simp [hnone j (lt_succ_of_le hj)] at hsome
  · simp only [Nat.zero_add] at hall heq
    rw [heq]
    refine .inl ⟨?_, 101, rfl⟩
    rintro ⟨k, hk, -, hspace, -⟩
    simp [hall k (lt_succ_of_le hk)] at hspace

lemma fillSlot_returned {seq : ℕ} {e : CallEntry} {r : ℤ}
    (h : fillSlot w a seq e = .returned r) : r ≠ 0 := by
  unfold fillSlot at h
  split_ifs at h <;> cases h <;> decide

/-- A send that ends before `SendCommLow` returns non-zero, and leaves the FreeCall FIFO with the
same slots exactly when it was turned away before a slot was offered to it. -/
theorem failed_send_keeps_slots_iff {r : ℤ} {s : SendState}
    (h : sendComm2CpuEx w a freeCall = (.returned r, s)) :
    r ≠ 0 ∧ (s.freeCall.Perm (withReleases w freeCall s.tick) ↔
      ¬(Admitted w a ∧ SlotOffered w freeCall)) := by
  rcases sendComm2CpuEx_cases w a freeCall with ⟨hnot, r', hr, heq⟩ | ⟨had, seq, heq⟩
  · obtain ⟨hret, rfl⟩ := Prod.mk.inj (h.symm.trans heq)
    refine ⟨SendOutcome.returned.inj hret ▸ hr, iff_of_true ?_ fun h => hnot h.1⟩
    simp [withReleases]
  · rcases pollSlot_cases w a seq freeCall with ⟨hnot, m, hpoll⟩ | ⟨hoff, e, rest, m, hrest, hpoll⟩
    · obtain ⟨hret, rfl⟩ := Prod.mk.inj (h.symm.trans (heq.trans hpoll))
      exact ⟨SendOutcome.returned.inj hret ▸ by decide, iff_of_true (.refl _) fun h => hnot h.2⟩
    · obtain ⟨hret, rfl⟩ := Prod.mk.inj (h.symm.trans (heq.trans hpoll))
      refine ⟨fillSlot_returned hret.symm, iff_of_false (fun hperm => ?_) fun h => h ⟨had, hoff⟩⟩
      have hlen := hperm.length_eq
      simp only [hrest, List.length_cons] at hlen
      omega

def faultyCopyWorld : SendWorld where
  compIdFault := false
  dstFault := false
  copyFromFault := true
  copyToFault := false
  findRoutine := fun _ => none
  resetBefore := fun _ => false
  resetAfter := fun _ => false
  appReady := fun _ => true
  shareSeqW := fun _ _ => 4096
  cmdFifo := fun _ => ⟨0, 0, 0, 0, 21, 4, 8192⟩
  mips := fun _ => []

/-- A routine that is not found. -/
theorem failed_send_keeps_slots_no_routine :
    sendComm2CpuEx faultyCopyWorld ⟨1, 0, true, 7, 1⟩ [⟨4456, 0⟩] =
      (.returned (-3), ⟨[⟨4456, 0⟩], 0⟩) ∧
      ¬(Admitted faultyCopyWorld ⟨1, 0, true, 7, 1⟩ ∧ SlotOffered faultyCopyWorld [⟨4456, 0⟩]) :=
  ⟨rfl, (failed_send_keeps_slots_iff rfl).2.mp (by decide)⟩

/-- A fault while the message is copied from user space costs a call slot. -/
theorem failed_send_loses_slot :
    ∃ s, sendComm2CpuEx faultyCopyWorld ⟨1, 1, true, 7, 1⟩ [⟨4456, 0⟩, ⟨4560, 1⟩]
        = (.returned (-14), s) ∧
      ¬ s.freeCall.Perm [⟨4456, 0⟩, ⟨4560, 1⟩] :=
  ⟨⟨[⟨4560, 1⟩], 0⟩, by decide, by decide⟩

end CpuComm
