import H713.CpuComm.Action.Basic

/-!
# Every message is acknowledged

A direction is idle, has a message deposited, its work item queued or its ACK sent. No message is
lost by the coalescing of the work item, because the MIPS waits.
-/

namespace CpuComm

open Machine Function

namespace ShareSeq

def Served (s : ShareSeq) : Prop :=
  (∃ rest, s.accepted = s.executions.map Execution.read ++ rest ∧ rest.length = s.pending.toNat) ∧
    ∀ x ∈ s.executions, x.seqIdx = 20 ∧ x.acks = [(x.read.param, x.read.sem)]

def Ok (d : Direction) (s : ShareSeq) : Event → Prop
  | .work w => d = .ret → w.Has (s.entry s.seqIdx)
  | _       => True

instance (d : Direction) (s : ShareSeq) (e : Event) : Decidable (Ok d s e) := by
  cases e <;> unfold Ok <;> infer_instance

inductive Phase
  | idle
  | deposited
  | queued
  | acked
deriving DecidableEq

/-- The flags, the index and the logs in each phase. -/
structure InPhase (ph : Phase) (s : ShareSeq) : Prop where
  awaiting : s.awaiting = decide (ph ≠ .idle)
  pending : s.pending = decide (ph = .queued)
  status : s.status.testBit 2 = decide (ph = .deposited)
  ackStatus : s.ackStatus.testBit 2 = decide (ph = .acked)
  slot : ph = .deposited ∨ ph = .queued → s.seqIdx < 20
  log : s.accepted = s.executions.map Execution.read ++ if ph = .queued then [s.header] else []

/-- The sequence written leads from the ARM to the MIPS. -/
structure Wired (s : ShareSeq) : Prop where
  src : s.src = cpuIdArm
  dst : s.dst = cpuIdMips
  dir : s.dir ≤ 1

structure Inv (s : ShareSeq) : Prop where
  wired : s.Wired
  done : ∀ x ∈ s.executions, x.seqIdx = 20 ∧ x.acks = [(x.read.param, x.read.sem)]
  phase : ∃ ph, s.InPhase ph

variable {d : Direction} {s s' : ShareSeq}

lemma testBit_setFlag (n : ℕ) : (n ||| 4).testBit 2 = true := by
  rw [Nat.testBit_or]
  exact Bool.or_true _

lemma testBit_clearFlag (n : ℕ) : (n &&& 0xFB).testBit 2 = false := by
  rw [Nat.testBit_and]
  exact Bool.and_false _

lemma Inv.init (d : Direction) : (init d).Inv where
  wired := ⟨rfl, rfl, by cases d <;> decide⟩
  done := by simp [ShareSeq.init]
  phase := ⟨.idle, rfl, rfl, Nat.zero_testBit 2, Nat.zero_testBit 2, by simp, rfl⟩

lemma Inv.served (h : s.Inv) : s.Served := by
  obtain ⟨ph, hph⟩ := h.phase
  refine ⟨⟨_, hph.log, ?_⟩, h.done⟩
  rw [hph.pending]
  by_cases hq : ph = .queued <;> simp [hq]

lemma commandAction_eq (h : s.Wired) {w : Waiters} (hslot : s.seqIdx < 20)
    (hw : d = .ret → w.Has (s.entry s.seqIdx)) (hack : s.ackStatus.testBit 2 = false) :
    commandAction d w s =
      ({ s with
          entry := update s.entry s.seqIdx (receivedMsg cpuIdMips (s.entry s.seqIdx))
          seqIdx := 20, ackIdx := 20, ackParam := s.param, ackSem := s.sem
          ackStatus := s.status ||| 4 },
        ⟨s.header, 20, [(s.param, s.sem)]⟩) := by
  have hfound : ¬ (d = .ret ∧ ¬ w.Has (receivedMsg cpuIdMips (s.entry s.seqIdx))) :=
    fun ⟨hd, hno⟩ => hno (hw hd)
  have hrange : ¬ s.seqIdx ≥ 21 := by omega
  have hdir : ¬ s.dir > 1 := Nat.not_lt.mpr h.dir
  simp only [commandAction, sendAckLow, if_neg hrange, if_neg hfound, h.src, h.dst, hack,
    if_neg hdir]
  rfl

lemma Inv.step (h : s.Inv) {e : Event} (hok : Ok d s e) (hs : s.step d e = some s') : s'.Inv := by
  obtain ⟨ph, hph⟩ := h.phase
  cases e with
  | deposit m =>
    simp only [ShareSeq.step] at hs
    split at hs
    · cases hs
    next hno =>
      obtain rfl := Option.some.inj hs
      have hidle : ph = .idle := by simpa [hph.awaiting] using hno
      subst hidle
      exact ⟨⟨h.wired.src, h.wired.dst, h.wired.dir⟩, h.done, .deposited, rfl, hph.pending,
        testBit_setFlag _, hph.ackStatus, fun _ => m.slot_lt, hph.log⟩
  | interrupt =>
    simp only [ShareSeq.step] at hs
    split at hs
    next hbit =>
      obtain rfl := Option.some.inj hs
      have hdep : ph = .deposited := by simpa [hph.status] using hbit
      subst hdep
      refine ⟨⟨h.wired.src, h.wired.dst, h.wired.dir⟩, h.done, .queued, hph.awaiting, rfl,
        testBit_clearFlag _, hph.ackStatus, fun _ => hph.slot (.inl rfl), ?_⟩
      have hlog : s.accepted = s.executions.map Execution.read ++ [] := hph.log
      simp only [hlog, List.append_nil, if_true]
      rfl
    · obtain rfl := Option.some.inj hs
      exact h
  | work w =>
    simp only [ShareSeq.step] at hs
    split at hs
    next hpend =>
      have hq : ph = .queued := by simpa [hph.pending] using hpend
      subst hq
      have hlog : s.accepted = s.executions.map Execution.read ++ [s.header] := hph.log
      have hrun := commandAction_eq (d := d) (s := { s with pending := false }) (w := w)
        ⟨h.wired.src, h.wired.dst, h.wired.dir⟩ (hph.slot (.inr rfl)) hok hph.ackStatus
      rw [hrun] at hs
      obtain rfl := Option.some.inj hs
      refine ⟨⟨h.wired.src, h.wired.dst, h.wired.dir⟩, ?_, .acked, hph.awaiting, rfl, hph.status,
        testBit_setFlag _, by simp, ?_⟩
      · intro x hx
        rcases List.mem_append.mp hx with hx | hx
        · exact h.done x hx
        · obtain rfl := List.mem_singleton.mp hx
          exact ⟨rfl, rfl⟩
      · simp [hlog, header]
    · cases hs
  | takeAck =>
    simp only [ShareSeq.step] at hs
    split at hs
    next hbit =>
      obtain rfl := Option.some.inj hs
      have hacked : ph = .acked := by simpa [hph.ackStatus] using hbit
      subst hacked
      exact ⟨⟨h.wired.src, h.wired.dst, h.wired.dir⟩, h.done, .idle, rfl, hph.pending, hph.status,
        testBit_clearFlag _, by simp, hph.log⟩
    · cases hs

end ShareSeq

namespace ShareSeqs

def Ok (s : ShareSeqs) (e : Direction × ShareSeq.Event) : Prop := ShareSeq.Ok e.1 (s.seq e.1) e.2

instance (s : ShareSeqs) (e : Direction × ShareSeq.Event) : Decidable (s.Ok e) :=
  inferInstanceAs (Decidable (ShareSeq.Ok e.1 (s.seq e.1) e.2))

lemma inv_step {s s' : ShareSeqs} {e : Direction × ShareSeq.Event} (h : ∀ d, (s.seq d).Inv)
    (hok : s.Ok e) (hs : s.step e = some s') (d : Direction) : (s'.seq d).Inv := by
  obtain ⟨q, hq, rfl⟩ := Option.map_eq_some_iff.mp hs
  by_cases hd : d = e.1
  · subst hd
    simpa only [update_self] using (h e.1).step hok hq
  · simpa only [update_of_ne hd] using h d

/-- While each RETURN finds its caller, every message that an interrupt has accepted is processed
and acknowledged by exactly one `command_action`. -/
theorem messages_acknowledged {es : List (Direction × ShareSeq.Event)} {t : ShareSeqs}
    (hg : Guarded step Ok init es) (ht : run step init es = some t) (d : Direction) :
    (t.seq d).Served :=
  (hg.invariant (I := fun s : ShareSeqs => ∀ d, (s.seq d).Inv) (fun _ _ _ => inv_step)
    ShareSeq.Inv.init ht d).served

def depositSeven (returnAck : Bool) : ShareSeq.Deposit :=
  ⟨3, by decide, 0, 5, 6, { CommMsg.zero with session := 7, flags := if returnAck then 2 else 0 }⟩

def returnAndCall : List (Direction × ShareSeq.Event) :=
  [(.ret, .deposit (depositSeven true)), (.ret, .interrupt), (.ret, .work ⟨[7], fun _ => 0⟩),
    (.call, .deposit (depositSeven false)), (.call, .interrupt), (.call, .interrupt)]

theorem messages_acknowledged_both :
    Guarded step Ok init returnAndCall ∧
      ∃ t, run step init returnAndCall = some t ∧ (t.seq .ret).Served ∧ (t.seq .call).Served := by
  have hg : Guarded step Ok init returnAndCall := by decide +kernel
  exact ⟨hg, _, rfl, messages_acknowledged hg rfl .ret, messages_acknowledged hg rfl .call⟩

/-- A RETURN whose caller has given up is not acknowledged, and the MIPS waits. -/
theorem return_not_acknowledged :
    (run step init [(.ret, .deposit (depositSeven true)), (.ret, .interrupt),
        (.ret, .work ⟨[], fun _ => 0⟩)]).map
      (fun t => ((t.seq .ret).accepted, (t.seq .ret).executions, (t.seq .ret).awaiting))
    = some ([⟨3, 5, 6⟩], [⟨⟨3, 5, 6⟩, 3, []⟩], true) := by
  decide +kernel

end ShareSeqs

end CpuComm
