import H713.CpuComm.Action.Confined

/-!
# Pointers of the MIPS

The MIPS may leave pointers of its own in the shared memory, which the driver must not follow.
`ack_action` does not check the semaphore, and `GetReturnbySessionId` not the links of the node that
it takes out.
-/

namespace CpuComm

open Machine Bytes MsgFifo

namespace Command

def pipeLoop (fifo lb : ℕ) : ℕ → ℕ → Bytes → Logged PtrUse Bytes
  | 0, item, m        => if item = 0 then pure (semUp m (lb + 64)) else Logged.silent none
  | fuel + 1, item, m =>
    if item = 0 then pure (semUp m (lb + 64))
    else
      let entry := m.rd32 item
      if cpuCommIsMipsVa entry then
        let r := itemRdNext m fifo
        pipeLoop fifo lb fuel r.2 r.1
      else do
        Logged.note ⟨.item, entry⟩
        if m.rd16 (entry + 4) > 19 then pure m
        else do
          Logged.note ⟨.tail, (IpcMem.setFlag m entry 0x20).rd32 (lb + 60)⟩
          let r := itemRdNext (linkReturn m lb entry) fifo
          pipeLoop fifo lb fuel r.2 r.1

def returnPipeLine (G : CommGlobals) (fuel : ℕ) (m : Bytes) (cpu : ℕ) : Logged PtrUse Bytes :=
  if cpu > 1 then pure m
  else
    let seq := G.getShareSeqR cpu 1
    if seq = 0 then pure m
    else do
      let m ← Logged.silent (semDown m (G.sock cpu 283))
      pipeLoop (seq + 32) (G.sock cpu 267) fuel (fifoGetItemRd (ShMem.loadFifo m (seq + 32))) m

def walkReturns (m : Bytes) (lb session : ℕ) : ℕ → ℕ → Logged PtrUse (Option ℕ)
  | 0, cur        => if cur = lb + 56 then pure none else Logged.silent none
  | fuel + 1, cur =>
    if cur = lb + 56 then pure none
    else if cpuCommIsMipsVa cur then pure none
    else do
      Logged.note ⟨.link, cur⟩
      if m.rd32 (sub32 cur 72) = session then pure (some cur)
      else walkReturns m lb session fuel (m.rd32 cur)

def unlinkReturn (m : Bytes) (lb cur : ℕ) : Logged PtrUse Bytes := do
  Logged.note ⟨.link, m.rd32 (cur + 4)⟩
  Logged.note ⟨.link, m.rd32 cur⟩
  pure (countDown (m.listDel cur) lb)

def getReturnbySessionId (G : CommGlobals) (fuel : ℕ) (m : Bytes) (session cpu : ℕ)
    (result : Bool) : Logged PtrUse (Bytes × Reply) :=
  let store (p : ℕ) : Option ℕ := if result then some p else none
  if cpu > 1 then pure (m, ⟨0, none⟩)
  else do
    let lb := G.sock cpu 267
    let m ← returnPipeLine G fuel m cpu
    let m ← Logged.silent (semDown m (G.sock cpu 283))
    match ← walkReturns m lb session fuel (m.rd32 (lb + 56)) with
    | some cur =>
      let m ← unlinkReturn m lb cur
      if i32 (m.rd32 (lb + 52)) < 0 then pure (m, ⟨0, none⟩)
      else pure (semUp m (G.sock cpu 283), ⟨0, store (sub32 cur 84)⟩)
    | none => pure (semUp m (G.sock cpu 283), ⟨0, store 0⟩)

/-! ### Without the log -/

variable {G : CommGlobals} {fifo lb fuel cpu dir dev session item : ℕ} {alloc result : Bool}
  {m : Bytes}

lemma val_pipeLoop : (pipeLoop fifo lb fuel item m).val = MsgFifo.pipeLoop fifo lb fuel item m := by
  induction fuel generalizing item m with
  | zero =>
    rw [pipeLoop, MsgFifo.pipeLoop]
    split_ifs <;> rfl
  | succ fuel ih =>
    simp only [pipeLoop, MsgFifo.pipeLoop]
    split_ifs
    · rfl
    · exact ih
    · rfl
    · simp only [Logged.val_bind, Logged.val_note, Option.bind_some]
      exact ih

lemma val_returnPipeLine :
    (returnPipeLine G fuel m cpu).val = MsgFifo.returnPipeLine G fuel m cpu := by
  simp only [returnPipeLine, MsgFifo.returnPipeLine]
  split_ifs
  · rfl
  · rfl
  · simp only [Logged.val_bind, Logged.val_silent, val_pipeLoop]
    rfl

lemma val_walkReturns {cur : ℕ} : (walkReturns m lb session fuel cur).val =
    (walk m.rd32 (lb + 56) (fun cur => if cpuCommIsMipsVa cur then some (false, cur)
      else if m.rd32 (sub32 cur 72) = session then some (true, cur) else none) fuel cur).map
      fun r => r.bind fun x => if x.1 then some x.2 else none := by
  induction fuel generalizing cur with
  | zero =>
    rw [walkReturns, walk]
    split_ifs <;> rfl
  | succ fuel ih =>
    rw [walkReturns, walk]
    split_ifs
    · rfl
    · rfl
    · rfl
    · rw [Logged.val_bind, Logged.val_note, Option.bind_some]
      exact ih

/-! ### What is followed -/

def Safe (u : PtrUse) : Prop := u.source ≠ .tail → cpuCommIsMipsVa u.ptr = false

open Logged

lemma all_addReturn2Fifo (m : Bytes) (fifo data : ℕ) : (addReturn2Fifo m fifo data).All Safe := by
  simp only [addReturn2Fifo]
  split_ifs with hva hfull
  · exact all_pure m
  · exact all_pure m
  · exact all_bind.mpr ⟨all_note.mpr fun _ => Bool.eq_false_iff.mpr hva, fun _ _ => all_pure _⟩

lemma all_pipeLoop : (pipeLoop fifo lb fuel item m).All Safe := by
  induction fuel generalizing item m with
  | zero =>
    rw [pipeLoop]
    split_ifs
    · exact all_pure _
    · exact all_silent _
  | succ fuel ih =>
    simp only [pipeLoop]
    split_ifs with hitem hva hidx
    · exact all_pure _
    · exact ih
    · exact all_bind.mpr ⟨all_note.mpr fun _ => Bool.eq_false_iff.mpr hva, fun _ _ => all_pure _⟩
    · refine all_bind.mpr ⟨all_note.mpr fun _ => Bool.eq_false_iff.mpr hva, fun _ _ => ?_⟩
      exact all_bind.mpr ⟨all_note.mpr fun h => absurd rfl h, fun _ _ => ih⟩

lemma all_returnPipeLine : (returnPipeLine G fuel m cpu).All Safe := by
  simp only [returnPipeLine]
  split_ifs
  · exact all_pure m
  · exact all_pure m
  · exact all_bind.mpr ⟨all_silent _, fun _ _ => all_pipeLoop⟩

lemma all_signalListed (m : Bytes) (entry : ℕ) : (signalListed fuel m lb entry).All Safe := by
  refine all_bind.mpr ⟨all_silent _, fun r _ => ?_⟩
  dsimp only
  split_ifs
  · exact all_pure _
  · exact all_pure _
  · exact all_pure _

lemma all_signalEmbedded (m : Bytes) (entry : ℕ) : (signalEmbedded m entry).All Safe := by
  simp only [signalEmbedded]
  split_ifs with hzero hva
  · exact all_pure _
  · exact all_pure _
  · exact all_bind.mpr ⟨all_note.mpr fun _ => Bool.eq_false_iff.mpr hva, fun _ _ => all_pure _⟩
  · exact all_bind.mpr ⟨all_note.mpr fun _ => Bool.eq_false_iff.mpr hva, fun _ _ => all_pure _⟩

lemma all_commandAction : (commandAction G dev fuel alloc m cpu dir).All Safe := by
  simp only [commandAction]
  split_ifs
  · exact all_pure _
  · exact all_pure _
  · exact all_pure _
  · exact all_pure _
  · refine all_bind.mpr ⟨all_bind.mpr ⟨all_addReturn2Fifo _ _ _, fun m₁ _ => ?_⟩,
      fun _ _ => all_pure _⟩
    dsimp only
    split_ifs
    · exact all_signalListed _ _
    · exact all_signalEmbedded _ _

def AckMips (G : CommGlobals) (m : Bytes) (cpu dir : ℕ) : Prop :=
  cpu ≤ 1 ∧ dir ≤ 1 ∧ G.getShareSeqR cpu dir ≠ 0 ∧
    (m.rd8 (G.getShareSeqR cpu dir + 105)).testBit 2 ∧
    cpuCommIsMipsVa (m.rd32 (G.getShareSeqR cpu dir + 112)) = true

lemma all_ackAction : (ackAction G m cpu dir).All Safe ↔ ¬ AckMips G m cpu dir := by
  simp only [ackAction]
  split_ifs with hout hseq hbit hsem
  · exact iff_of_true (all_pure _) fun h => by
      have := h.1
      have := h.2.1
      omega
  · exact iff_of_true (all_pure _) fun h => h.2.2.1 hseq
  · have hoff := sameOff_wr8 m (G.getShareSeqR cpu dir + 105)
      (m.rd8 (G.getShareSeqR cpu dir + 105) &&& 0xFB)
    rw [hoff.rd32 (by omega)] at hsem
    refine iff_of_true (all_pure _) fun h => ?_
    have hva := h.2.2.2.2
    rw [hsem] at hva
    exact absurd hva (by decide)
  · have hoff := sameOff_wr8 m (G.getShareSeqR cpu dir + 105)
      (m.rd8 (G.getShareSeqR cpu dir + 105) &&& 0xFB)
    rw [hoff.rd32 (by omega), all_bind, all_note]
    constructor
    · exact fun h hack => absurd hack.2.2.2.2 (Bool.eq_false_iff.mp (h.1 fun ht => by cases ht))
    · refine fun h => ⟨fun _ => Bool.eq_false_iff.mpr fun hva => h ?_, fun _ _ => all_pure _⟩
      exact ⟨by omega, by omega, hseq, hbit, hva⟩
  · exact iff_of_true (all_pure _) fun h => hbit h.2.2.2.1

lemma all_walkReturns {cur : ℕ} : (walkReturns m lb session fuel cur).All Safe := by
  induction fuel generalizing cur with
  | zero =>
    rw [walkReturns]
    split_ifs
    · exact all_pure _
    · exact all_silent _
  | succ fuel ih =>
    rw [walkReturns]
    split_ifs with hstop hva
    · exact all_pure _
    · exact all_pure _
    · exact all_bind.mpr ⟨all_note.mpr fun _ => Bool.eq_false_iff.mpr hva, fun _ _ => all_pure _⟩
    · exact all_bind.mpr ⟨all_note.mpr fun _ => Bool.eq_false_iff.mpr hva, fun _ _ => ih⟩

lemma walkReturns_found {cur : ℕ} :
    (walkReturns m lb session fuel (m.rd32 (lb + 56))).val = some (some cur) ↔
      MsgFifo.walkReturns m lb session fuel = some (some (true, cur)) := by
  rw [val_walkReturns, MsgFifo.walkReturns]
  cases walk m.rd32 (lb + 56) _ fuel (m.rd32 (lb + 56)) with
  | none => simp
  | some found =>
    cases found with
    | none => simp
    | some x =>
      obtain ⟨ok, c⟩ := x
      cases ok with
      | false => simp
      | true => simp

def LinkMips (G : CommGlobals) (fuel : ℕ) (m : Bytes) (session cpu : ℕ) : Prop :=
  cpu ≤ 1 ∧ ∃ m₁ m₂ cur, MsgFifo.returnPipeLine G fuel m cpu = some m₁ ∧
    semDown m₁ (G.sock cpu 283) = some m₂ ∧
    MsgFifo.walkReturns m₂ (G.sock cpu 267) session fuel = some (some (true, cur)) ∧
    (cpuCommIsMipsVa (m₂.rd32 (cur + 4)) = true ∨ cpuCommIsMipsVa (m₂.rd32 cur) = true)

lemma all_unlinkReturn {cur : ℕ} : (unlinkReturn m lb cur).All Safe ↔
    ¬(cpuCommIsMipsVa (m.rd32 (cur + 4)) = true ∨ cpuCommIsMipsVa (m.rd32 cur) = true) := by
  simp [unlinkReturn, all_bind, all_note, all_pure, Safe]

lemma all_getReturnbySessionId : (getReturnbySessionId G fuel m session cpu result).All Safe ↔
    ¬ LinkMips G fuel m session cpu := by
  simp only [getReturnbySessionId]
  by_cases hcpu : cpu > 1
  · rw [if_pos hcpu]
    exact iff_of_true (all_pure _) fun h => absurd h.1 (Nat.not_le.mpr hcpu)
  rw [if_neg hcpu]
  constructor
  · rintro h ⟨-, m₁, m₂, cur, h₁, h₂, hcur, hlinks⟩
    have hwalk := ((all_bind.mp ((all_bind.mp h).2 m₁ (val_returnPipeLine.trans h₁))).2 m₂ h₂)
    have hfound := (all_bind.mp hwalk).2 (some cur) (walkReturns_found.mpr hcur)
    exact all_unlinkReturn.mp (all_bind.mp hfound).1 hlinks
  · intro h
    refine all_bind.mpr ⟨all_returnPipeLine, fun m₁ h₁ => all_bind.mpr ⟨all_silent _,
      fun m₂ h₂ => all_bind.mpr ⟨all_walkReturns, fun found hfound => ?_⟩⟩⟩
    cases found with
    | none => exact all_pure _
    | some cur =>
      refine all_bind.mpr ⟨all_unlinkReturn.mpr fun hlinks => h ⟨Nat.not_lt.mp hcpu, m₁, m₂, cur,
        val_returnPipeLine.symm.trans h₁, h₂, walkReturns_found.mp hfound, hlinks⟩, fun m₃ _ => ?_⟩
      by_cases hcount : i32 (m₃.rd32 (G.sock cpu 267 + 52)) < 0
      · rw [if_pos hcount]
        exact all_pure _
      · rw [if_neg hcount]
        exact all_pure _

/-- Which functions follow a pointer of the MIPS that they find in the shared memory. -/
theorem mipsPointers_safe_iff :
    (commandAction G dev fuel alloc m cpu dir).All Safe ∧
    (addReturn2Fifo m fifo item).All Safe ∧
    (returnPipeLine G fuel m cpu).All Safe ∧
    ((ackAction G m cpu dir).All Safe ↔ ¬ AckMips G m cpu dir) ∧
    ((getReturnbySessionId G fuel m session cpu result).All Safe ↔
      ¬ LinkMips G fuel m session cpu) :=
  ⟨all_commandAction, all_addReturn2Fifo _ _ _, all_returnPipeLine, all_ackAction,
    all_getReturnbySessionId⟩

def leaked : Bytes :=
  ((((idleSeq 20).wrWords 268256 [1, 73452, 73452, 0, 1]).wrWords 73452 [268260, 0x80000000]).wr8
    73113 4).wr32 73120 0x80000000

theorem mipsPointers_followed : cpuCommIsMipsVa 0x80000000 = true ∧
    ⟨.ackSem, 0x80000000⟩ ∈ (ackAction (boardIpc.globals 0) leaked 1 1).log ∧
    ⟨.link, 0x80000000⟩ ∈
      (getReturnbySessionId (boardIpc.globals 0) 1 leaked 0 1 true).log := by
  refine ⟨by decide, ?_, ?_⟩
  · decide +kernel
  · decide +kernel

end Command

end CpuComm
