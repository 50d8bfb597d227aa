import H713.CpuComm.Socket.ReturnList

/-!
# The two lists of a socket are sequences

From `InitMsgFIFO` on, each run on a SendCmdWaitList or a ReturnList has its run on sequences, with
the same replies. A message that is staged a second time before it is on the list gets linked to
itself.
-/

namespace CpuComm

open Machine Bytes MsgFifo MsgSeq Option

variable {lb fuel fifo item : ℕ} {m m₀ m' : Bytes}

/-- What there is in memory of a list: the links in both directions and the count. -/
structure KeepsList (K : EntryKind) (lb : ℕ) (l : List ℕ) (m : Bytes) : Prop where
  list : ListAt (lb + 56) (l.map (· + K.node)) m
  count : m.rd32 (lb + 52) = l.length
  inverse : ∀ x ∈ (lb + 56) :: l.map (· + K.node),
    m.rd32 (m.rd32 x + 4) = x ∧ m.rd32 (m.rd32 (x + 4)) = x

lemma MsgSeq.Holds.keepsList {K : EntryKind} {k : ℕ} {V : Set ℕ} {s : MsgSeq}
    (h : Holds K lb V k s m) : KeepsList K lb s.entries m :=
  ⟨h.list, h.count, fun _ hx => h.list.inverse hx⟩

lemma waitList_refines {V : Set ℕ} {pre suf : String} {mode : ℤ} {ops : List WaitOp}
    (hL : Layout .waitObject lb V) (hmode : 0 < mode) (hlt : mode < 2147483648)
    (hinit : initMsgFIFO m lb pre suf mode = some m₀)
    (hg : Guarded seqStep (WaitOp.Ok V) (⟨[], m.rd32⟩, []) ops) (hfuel : ops.length ≤ fuel) :
    ∃ s replies m', run seqStep (⟨[], m.rd32⟩, []) ops = some (s, replies) ∧
      run (waitStep lb fuel) (m₀, []) ops = some (m', replies) ∧
      KeepsList .waitObject lb s.entries m' := by
  obtain ⟨k, hk⟩ : ∃ k, mode.toNat = k + 1 := Nat.exists_eq_add_one.mpr (by omega)
  have h₀ := holds_init hL hmode hlt hinit
  rw [hk] at h₀
  have hstart : WaitOp.Matches lb V k fuel ops.length (⟨[], m.rd32⟩, []) (m₀, []) :=
    ⟨rfl, h₀, by simpa using hfuel⟩
  obtain ⟨⟨s, replies⟩, ⟨m', replies'⟩, hs, hm, h⟩ := WaitOp.run_matches hL (by omega) hstart hg
  obtain ⟨rfl, hholds, -⟩ := h
  exact ⟨s, _, m', hs, hm, hholds.keepsList⟩

lemma returnList_refines {G : CommGlobals} {cpu ring : ℕ} {V : Set ℕ} {pre suf : String} {mode : ℤ}
    {staged : List ℕ} {ops : List ReturnOp} (hP : ReturnPlace G cpu ring V) (hmode : 0 < mode)
    (hlt : mode < 2147483648) (hinit : initMsgFIFO m (G.sock cpu 267) pre suf mode = some m₀)
    (hstaged : Stages (G.getShareSeqR cpu 1 + 32) ring staged m₀) (hmem : ∀ e ∈ staged, e ∈ V)
    (hnd : staged.Nodup) (hindex : ∀ e ∈ V, m₀.rd16 (e + 4) ≤ 19)
    (hg : Guarded ReturnSeq.step (ReturnSeq.Ok V) ⟨⟨[], fun e => m.rd32 (e + 12)⟩, staged, []⟩ ops)
    (hfuel : staged.length + ops.length ≤ fuel) :
    ∃ r m', run ReturnSeq.step ⟨⟨[], fun e => m.rd32 (e + 12)⟩, staged, []⟩ ops = some r ∧
      run (returnStep G cpu fuel) (m₀, []) ops = some (m', r.replies) ∧
      KeepsList .message (G.sock cpu 267) r.listed.entries m' ∧
      Stages (G.getShareSeqR cpu 1 + 32) ring r.staged m' := by
  obtain ⟨k, hk⟩ : ∃ k, mode.toNat = k + 1 := Nat.exists_eq_add_one.mpr (by omega)
  have h₀ := holds_init hP.list hmode hlt hinit
  rw [hk] at h₀
  have hstart : ReturnOp.Matches G cpu ring V k fuel ops.length
      ⟨⟨[], fun e => m.rd32 (e + 12)⟩, staged, []⟩ (m₀, []) :=
    ⟨rfl, ⟨h₀, hstaged, hindex, hmem, by simpa using hnd⟩, by simpa using hfuel⟩
  obtain ⟨r, ⟨m', replies⟩, hr, hm, h⟩ := ReturnOp.run_matches hP (by omega) hstart hg
  obtain ⟨rfl, hreturns, -⟩ := h
  exact ⟨r, m', hr, hm, hreturns.holds.keepsList, hreturns.stages⟩

/-- Both lists of a socket refine sequences. An entry comes on a list, and a message is staged, only
while it is not there. -/
theorem lists_refine_sequences :
    (∀ {lb fuel : ℕ} {V : Set ℕ} {m m₀ : Bytes} {pre suf : String} {mode : ℤ} {ops : List WaitOp},
      Layout .waitObject lb V → 0 < mode → mode < 2147483648 →
      initMsgFIFO m lb pre suf mode = some m₀ →
      Guarded seqStep (WaitOp.Ok V) (⟨[], m.rd32⟩, []) ops → ops.length ≤ fuel →
      ∃ s replies m', run seqStep (⟨[], m.rd32⟩, []) ops = some (s, replies) ∧
        run (waitStep lb fuel) (m₀, []) ops = some (m', replies) ∧
        KeepsList .waitObject lb s.entries m') ∧
    ∀ {G : CommGlobals} {cpu ring fuel : ℕ} {V : Set ℕ} {m m₀ : Bytes} {pre suf : String} {mode : ℤ}
      {staged : List ℕ} {ops : List ReturnOp},
      ReturnPlace G cpu ring V → 0 < mode → mode < 2147483648 →
      initMsgFIFO m (G.sock cpu 267) pre suf mode = some m₀ →
      Stages (G.getShareSeqR cpu 1 + 32) ring staged m₀ → (∀ e ∈ staged, e ∈ V) →
      staged.Nodup → (∀ e ∈ V, m₀.rd16 (e + 4) ≤ 19) →
      Guarded ReturnSeq.step (ReturnSeq.Ok V) ⟨⟨[], fun e => m.rd32 (e + 12)⟩, staged, []⟩ ops →
      staged.length + ops.length ≤ fuel →
      ∃ r m', run ReturnSeq.step ⟨⟨[], fun e => m.rd32 (e + 12)⟩, staged, []⟩ ops = some r ∧
        run (returnStep G cpu fuel) (m₀, []) ops = some (m', r.replies) ∧
        KeepsList .message (G.sock cpu 267) r.listed.entries m' ∧
        Stages (G.getShareSeqR cpu 1 + 32) ring r.staged m' :=
  ⟨waitList_refines, returnList_refines⟩

/-! ### Two messages of the MIPS -/

def armGlobals : CommGlobals := ⟨0, 65536, 65536, 3145728, 262144⟩

def emptyFifo : Bytes := Bytes.wrWords ⟨fun _ => 0⟩ 73040 [0, 0, 0, 0, 21, 4, 268300]

def listInit (lb : ℕ) (suf : String) : Bytes := (initMsgFIFO emptyFifo lb "" suf 1).getD emptyFifo

lemma initMsgFIFO_eq {suf : String} (h : (initMsgFIFO emptyFifo lb "" suf 1).isSome = true) :
    initMsgFIFO emptyFifo lb "" suf 1 = some (listInit lb suf) := by
  obtain ⟨m₀, hm₀⟩ := isSome_iff_exists.mp h
  rw [listInit, hm₀, getD_some]

lemma initMsgFIFO_wait : initMsgFIFO emptyFifo 267176 "" " SendCmdWaitList" 1 =
    some (listInit 267176 " SendCmdWaitList") := initMsgFIFO_eq (by decide +kernel)

lemma initMsgFIFO_return : initMsgFIFO emptyFifo 268204 "" " ReturnList" 1 =
    some (listInit 268204 " ReturnList") := initMsgFIFO_eq (by decide +kernel)

lemma layout_waits : Layout .waitObject 267176 {1000, 1032} := by
  refine ⟨by decide, by decide, ?_, ?_, ?_, ?_⟩ <;>
    simp [EntryKind.waitObject]

lemma returnPlace_arm : ReturnPlace armGlobals 1 268300 {73368, 73472} where
  list := by
    have hsock : armGlobals.sock 1 267 = 268204 := by decide
    rw [hsock]
    refine ⟨by decide, by decide, ?_, ?_, ?_, ?_⟩ <;> simp [EntryKind.message]
  place := ⟨by decide, by decide, by decide⟩
  fifo_off := by decide
  ring_off := by decide
  fifo_entry := by
    rintro e (rfl | rfl)
    · decide
    · decide
  ring_entry := by
    rintro e (rfl | rfl)
    · decide
    · decide
  va := by
    rintro e (rfl | rfl)
    · decide
    · decide
  node_va := by
    rintro e (rfl | rfl)
    · decide
    · decide
  cpu_le := le_rfl
  seq_ne := by decide
  sock_le := by decide

lemma stages_empty : Stages 73040 268300 [] (listInit 268204 " ReturnList") where
  header := ⟨by decide +kernel, by decide +kernel, by decide +kernel, by decide +kernel,
    by decide +kernel⟩
  length_lt := by decide
  wrIdx := by decide +kernel
  item := fun i hi => absurd hi (Nat.not_lt_zero i)

lemma index_arm : ∀ e ∈ ({73368, 73472} : Set ℕ),
    (listInit 268204 " ReturnList").rd16 (e + 4) ≤ 19 := by
  rintro e (rfl | rfl)
  · decide +kernel
  · decide +kernel

def waitOps : List WaitOp := [.setSession 1032 7, .add 1000, .add 1032, .find 7, .get 7]

def returnOps : List ReturnOp := [.setSession 73368 7, .stage 73472, .stage 73368, .get 7]

theorem lists_refine_sequences_arm :
    (∃ s replies m', run seqStep (⟨[], emptyFifo.rd32⟩, []) waitOps = some (s, replies) ∧
      run (waitStep 267176 5) (listInit 267176 " SendCmdWaitList", []) waitOps =
        some (m', replies) ∧
      KeepsList .waitObject 267176 s.entries m') ∧
    ∃ r m', run ReturnSeq.step ⟨⟨[], fun e => emptyFifo.rd32 (e + 12)⟩, [], []⟩ returnOps = some r ∧
      run (returnStep armGlobals 1 4) (listInit 268204 " ReturnList", []) returnOps =
        some (m', r.replies) ∧
      KeepsList .message 268204 r.listed.entries m' ∧ Stages 73040 268300 r.staged m' := by
  refine ⟨?_, ?_⟩
  · refine lists_refine_sequences.1 layout_waits (by decide) (by decide) initMsgFIFO_wait ?_ le_rfl
    simp [waitOps, Guarded, seqStep, WaitOp.Ok, MsgSeq.add, MsgSeq.setSession]
  · refine lists_refine_sequences.2 returnPlace_arm (by decide) (by decide) initMsgFIFO_return
      stages_empty (fun e he => absurd he List.not_mem_nil) List.nodup_nil index_arm ?_ le_rfl
    simp [returnOps, Guarded, ReturnSeq.step, ReturnSeq.Ok, MsgSeq.setSession]

/-! ### A message staged twice -/

lemma pipeLoop_mono {n : ℕ} (h : pipeLoop fifo lb fuel item m = some m') :
    pipeLoop fifo lb (fuel + n) item m = some m' := by
  induction fuel generalizing item m with
  | zero =>
    rw [pipeLoop, ite_none_right_eq_some] at h
    obtain ⟨hitem, h⟩ := h
    cases n with
    | zero => rw [pipeLoop, if_pos hitem, h]
    | succ n => rw [← Nat.add_assoc, pipeLoop, if_pos hitem, h]
  | succ fuel ih =>
    rw [Nat.add_right_comm]
    simp only [pipeLoop] at h ⊢
    split_ifs at h ⊢
    · exact h
    · exact ih h
    · exact h
    · exact ih h

lemma returnPipeLine_mono {G : CommGlobals} {cpu n : ℕ}
    (h : returnPipeLine G fuel m cpu = some m') :
    returnPipeLine G (fuel + n) m cpu = some m' := by
  simp only [returnPipeLine] at h ⊢
  split_ifs at h ⊢ with hcpu hseq
  · exact h
  · exact h
  · obtain ⟨m₁, hdown, hloop⟩ := bind_eq_some_iff.mp h
    exact bind_eq_some_iff.mpr ⟨m₁, hdown, pipeLoop_mono hloop⟩

def stagedTwice : Bytes :=
  IpcMem.addReturn2Fifo (IpcMem.addReturn2Fifo (listInit 268204 " ReturnList") 73040 73368)
    73040 73368

def linkedTwice : Bytes := (returnPipeLine armGlobals 2 stagedTwice 1).getD stagedTwice

lemma returnPipeLine_twice (fuel : ℕ) :
    returnPipeLine armGlobals (2 + fuel) stagedTwice 1 = some linkedTwice := by
  have hsome : (returnPipeLine armGlobals 2 stagedTwice 1).isSome = true := by decide +kernel
  obtain ⟨m', hm'⟩ := isSome_iff_exists.mp hsome
  rw [returnPipeLine_mono hm', linkedTwice, hm', getD_some]

lemma walkReturns_twice (h : semDown linkedTwice 268268 = some m) (fuel : ℕ) :
    walkReturns m 268204 7 fuel = none := by
  rw [semDown, ite_none_left_eq_some, Option.some.injEq] at h
  have hoff : SameOff 268272 268276 linkedTwice m := h.2 ▸ sameOff_wr32 _ _ _
  have hhead : m.rd32 268260 = 73452 := by
    rw [hoff.rd32 (by omega)]
    decide +kernel
  have hnext : m.rd32 73452 = 73452 := by
    rw [hoff.rd32 (by omega)]
    decide +kernel
  have hsession : m.rd32 (sub32 73452 72) = 0 := by
    rw [hoff.rd32 (by decide)]
    decide +kernel
  rw [walkReturns, hhead]
  refine walk_eq_none hnext (by decide) ?_ fuel
  simp only [hsession]
  decide

lemma getReturn_twice (fuel : ℕ) :
    getReturnbySessionId armGlobals fuel stagedTwice 7 1 true = none := by
  have hlb : armGlobals.sock 1 267 = 268204 := by decide
  have hsem : armGlobals.sock 1 283 = 268268 := by decide
  simp only [getReturnbySessionId, hlb, hsem, bind_eq_bind]
  by_cases hfuel : fuel < 2
  · have hnone : returnPipeLine armGlobals fuel stagedTwice 1 = none := by
      obtain rfl | rfl : fuel = 0 ∨ fuel = 1 := by omega
      · exact isNone_iff_eq_none.mp (by decide +kernel)
      · exact isNone_iff_eq_none.mp (by decide +kernel)
    rw [hnone]
    rfl
  · obtain ⟨n, rfl⟩ := Nat.exists_eq_add_of_le (Nat.not_lt.mp hfuel)
    rw [returnPipeLine_twice]
    cases hdown : semDown linkedTwice 268268 with
    | none =>
      simp only [bind_some, hdown, bind_none]
      rfl
    | some m =>
      simp only [bind_some, hdown, walkReturns_twice hdown, bind_none]
      rfl

theorem staged_twice :
    (ReturnPlace armGlobals 1 268300 {73368, 73472} ∧
      initMsgFIFO emptyFifo 268204 "" " ReturnList" 1 = some (listInit 268204 " ReturnList") ∧
      Stages 73040 268300 [] (listInit 268204 " ReturnList") ∧
      ∀ e ∈ ({73368, 73472} : Set ℕ), (listInit 268204 " ReturnList").rd16 (e + 4) ≤ 19) ∧
    ∀ fuel, run (returnStep armGlobals 1 fuel) (listInit 268204 " ReturnList", [])
      [.stage 73368, .stage 73368, .get 7] = none := by
  refine ⟨⟨returnPlace_arm, initMsgFIFO_return, stages_empty, index_arm⟩, fun fuel => ?_⟩
  have hget := getReturn_twice fuel
  have hfifo : armGlobals.getShareSeqR 1 1 + 32 = 73040 := by decide
  rw [stagedTwice] at hget
  simp only [run_cons, returnStep, hfifo, bind_some, hget, map_none,
    bind_none]

end CpuComm
