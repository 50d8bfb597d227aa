import H713.CpuComm.Rpc.Message

/-!
# Parameters and results across a call

Which parameters a callback sees, and which results a caller gets. The receiver takes the slot index
for the count, reads the values one word further on than they were put, and calls what its stack
held at `routine_info + 88`. The response has its count at `+4`, but `+8` is read.
-/

namespace CpuComm

open Machine Function Option

/-! ### Parameters -/

variable {c : Caller} {rx : Receiver} {cb : Callback} {compId : ℕ} {params : ℕ → ℕ}

/-- The table has an entry for the component that is for this CPU and has `cb` at `+88`. -/
structure Receiver.Registered (rx : Receiver) (compId : ℕ) (cb : Callback) (i : ℕ) : Prop where
  count : rx.table.count ≤ rtMaxIndex
  found : rx.table.toTable.walk compId Table.walkFuel (Table.hashIdx compId) = some (.found i)
  cpu : (rx.table.entry i).rd16 2 = rx.curCpu
  callback_ne : (rx.table.entry i).rd32 88 ≠ 0
  callback : rx.code ((rx.table.entry i).rd32 88) = cb

/-- The pointer that the stack held at `routine_info + 88`, since `FindRoutine` leaves it alone. -/
def Receiver.staleCallback (rx : Receiver) : Option Callback :=
  if rx.info.rd32 88 = 0 then none else some (rx.code (rx.info.rd32 88))

lemma Receiver.Registered.findRoutine {i : ℕ} (h : rx.Registered compId cb i) :
    rx.findRoutine compId = some ⟨rx.curCpu, rx.staleCallback⟩ := by
  have hcount : ¬ rx.table.count > rtMaxIndex := not_lt.mpr h.count
  simp only [Receiver.findRoutine, ByteTable.findRoutineEx, hcount, if_false, h.found,
    map_some, join_some, ByteTable.rd16_copyOut, ByteTable.rd32_copyOut, h.cpu,
    Receiver.staleCallback]

def Delivered (rx : Receiver) (cb : Callback) (params : ℕ → ℕ) (m : CommMsg) : Prop :=
  0 ≤ i32 (params 0) ∧ i32 (params 0) ≤ 10 ∧
    ∃ args, (commCallWorkAction rx (queuedCall Table.getCurCPUID m)).called = some (cb, args) ∧
      HoldsVector (i32 (params 0)) params args

def trailingWord (c : Caller) (rx : Receiver) (n : ℤ) : ℕ :=
  if n = 2 then c.tgid else if n = 10 then rx.stack 10 else 0

lemma sentMsg_callExMsg (f : CallFill) (slotIdx compId tgid : ℕ) (params : ℕ → ℕ) :
    (sentMsg 0 0 slotIdx f (callExMsg compId tgid params)).slotIdx = slotIdx ∧
    (sentMsg 0 0 slotIdx f (callExMsg compId tgid params)).compId = compId ∧
    (sentMsg 0 0 slotIdx f (callExMsg compId tgid params)).name
      = (f.routine.map RoutineDesc.name).getD 0 ∧
    (sentMsg 0 0 slotIdx f (callExMsg compId tgid params)).payload
      = (callExMsg compId tgid params).payload := by
  cases hr : f.routine <;>
    simp [sentMsg, fillCall, hr, CommMsg.notify, CommMsg.returnAck, callExMsg, CommMsg.zero]

lemma callExMsg_payload (tgid k : ℕ) :
    (callExMsg compId tgid params).payload k
      = if (k : ℤ) < i32 (params 0) then params (k + 1) else if k = 2 then tgid else 0 := by
  simp only [callExMsg, storeWords_zero_apply, update_apply, CommMsg.zero]
  exact if_congr (by omega) rfl rfl

lemma called_iff {m : CommMsg} {stale : Option Callback}
    (hfind : rx.findRoutine m.compId = some ⟨rx.curCpu, stale⟩) (hcpu : m.cpu ≤ 1)
    (args : ℕ → ℕ) :
    (commCallWorkAction rx m).called = some (cb, args) ↔
      4 < m.name ∧ stale = some cb ∧ args = callbackParams rx m := by
  rw [commCallWorkAction]
  by_cases hname : m.name ≤ 4
  · rw [if_pos hname]
    exact iff_of_false (by simp) fun h => Nat.not_le.mpr h.1 hname
  · rw [if_neg hname, if_neg (Nat.not_lt.mpr hcpu), hfind]
    simp only [ne_eq, not_true_eq_false, if_false, Nat.lt_of_not_le hname, true_and]
    cases stale with
    | none => simp
    | some f => simp [eq_comm]

lemma callbackParams_callExMsg {m : CommMsg} (hn : i32 (params 0) ≤ 10)
    (hpayload : m.payload = (callExMsg compId c.tgid params).payload) {i : ℕ} (hi : 1 ≤ i)
    (hin : (i : ℤ) ≤ i32 (params 0)) :
    callbackParams rx m i
      = if (i : ℤ) < i32 (params 0) then params (i + 1)
        else trailingWord c rx (i32 (params 0)) := by
  rw [callbackParams, update_of_ne (by omega), storeWords_zero_apply, hpayload,
    callExMsg_payload, trailingWord]
  by_cases hlt : (i : ℤ) < i32 (params 0)
  · rw [if_pos (by omega), if_pos hlt, if_pos hlt]
  · have heq : i32 (params 0) = i := by omega
    rw [if_neg hlt, if_neg hlt, heq]
    by_cases h10 : i = 10
    · subst h10
      rfl
    · rw [if_pos (by omega), if_neg (show ¬(i : ℤ) = 10 by omega)]
      exact if_congr (by omega) rfl rfl

lemma shift_eq_iff (v : ℕ → ℕ) (n : ℤ) (x : ℕ) :
    (∀ i : ℕ, 1 ≤ i → (i : ℤ) ≤ n → (if (i : ℤ) < n then v (i + 1) else x) = v i) ↔
      ∀ i : ℕ, 1 ≤ i → (i : ℤ) ≤ n → v i = x := by
  constructor
  · intro h i hi hin
    -- downwards from the last index
    obtain ⟨d, hd⟩ : ∃ d : ℕ, n = i + d := ⟨(n - i).toNat, by omega⟩
    induction d generalizing i with
    | zero => rw [← h i hi hin, if_neg (by omega)]
    | succ d ih =>
      rw [← h i hi hin, if_pos (by omega)]
      exact ih (i + 1) (by omega) (by omega) (by push_cast; omega)
  · intro h i hi hin
    split_ifs with hlt
    · rw [h i hi hin, h (i + 1) (by omega) (by push_cast; omega)]
    · exact (h i hi hin).symm

lemma holdsVector_callbackParams_iff {m : CommMsg} (hn : i32 (params 0) ≤ 10)
    (hpayload : m.payload = (callExMsg compId c.tgid params).payload) :
    HoldsVector (i32 (params 0)) params (callbackParams rx m) ↔
      i32 (params 0) = m.slotIdx ∧ ∀ i : ℕ, 1 ≤ i → (i : ℤ) ≤ i32 (params 0) →
        params i = trailingWord c rx (i32 (params 0)) := by
  rw [HoldsVector, ← shift_eq_iff]
  refine and_congr ?_ (forall_congr' fun i => forall₂_congr fun hi hin => ?_)
  · rw [callbackParams, update_self]
    exact eq_comm
  · rw [callbackParams_callExMsg hn hpayload hi hin]

lemma delivered_iff {m : CommMsg} {stale : Option Callback} (hn : i32 (params 0) ≤ 10)
    (hpayload : m.payload = (callExMsg compId c.tgid params).payload)
    (hfind : rx.findRoutine m.compId = some ⟨rx.curCpu, stale⟩) :
    Delivered rx cb params m ↔ 4 < m.name ∧ stale = some cb ∧ i32 (params 0) = m.slotIdx ∧
      ∀ i : ℕ, 1 ≤ i → (i : ℤ) ≤ i32 (params 0) →
        params i = trailingWord c rx (i32 (params 0)) := by
  have hcalled (args : ℕ → ℕ) :
      (commCallWorkAction rx (queuedCall Table.getCurCPUID m)).called = some (cb, args) ↔
        4 < m.name ∧ stale = some cb ∧ args = callbackParams rx (queuedCall Table.getCurCPUID m) :=
    called_iff (m := queuedCall Table.getCurCPUID m) hfind (Nat.zero_le 1) args
  have hvector : HoldsVector (i32 (params 0)) params
      (callbackParams rx (queuedCall Table.getCurCPUID m)) ↔ _ :=
    holdsVector_callbackParams_iff hn hpayload
  simp only [Delivered, hcalled]
  constructor
  · rintro ⟨-, -, args, ⟨hname, hcb, rfl⟩, hvec⟩
    exact ⟨hname, hcb, hvector.mp hvec⟩
  · rintro ⟨hname, hcb, hidx, hvals⟩
    exact ⟨by omega, hn, _, ⟨hname, hcb, rfl⟩, hvector.mpr ⟨hidx, hvals⟩⟩

/-- A call delivers its parameters, or is not sent, exactly when the count is above ten, or when for
its slot the command word is above 4, the receiver's stack held a pointer to the callback, the count
is the index of the slot, and all values are the word that follows them. -/
theorem callEx_delivers_iff (c : Caller) (rx : Receiver) (compId : ℕ) (params : ℕ → ℕ)
    (cb : Callback) {i : ℕ} (hreg : rx.Registered compId cb i) :
    (∀ m, c.callEx compId params = some m → Delivered rx cb params m) ↔
      10 < i32 (params 0) ∨ ∀ e, c.slot compId = some e →
        (∃ d, c.findRoutine compId = some d ∧ 4 < d.name) ∧ rx.staleCallback = some cb ∧
          i32 (params 0) = e.slotIdx ∧ ∀ i : ℕ, 1 ≤ i → (i : ℤ) ≤ i32 (params 0) →
            params i = trailingWord c rx (i32 (params 0)) := by
  by_cases hn : 10 < i32 (params 0)
  · refine iff_of_true (fun m hm => ?_) (.inl hn)
    rw [Caller.callEx, if_pos hn] at hm
    cases hm
  have hcall : ∀ m, c.callEx compId params = some m ↔ ∃ e, c.slot compId = some e ∧
      sentMsg 0 0 e.slotIdx ⟨c.findRoutine compId, c.session, c.pid, c.wait⟩
        (callExMsg compId c.tgid params) = m := by
    intro m
    rw [Caller.callEx, if_neg hn, map_eq_some_iff]
  simp only [hcall, forall_exists_index, and_imp, forall_apply_eq_imp_iff₂, hn, false_or]
  refine forall₂_congr fun e _ => ?_
  obtain ⟨hslot, hcomp, hname, hpayload⟩ := sentMsg_callExMsg
    ⟨c.findRoutine compId, c.session, c.pid, c.wait⟩ e.slotIdx compId c.tgid params
  rw [delivered_iff (not_lt.mp hn) hpayload (by rw [hcomp, hreg.findRoutine]), hname, hslot]
  refine and_congr_left fun _ => ?_
  cases c.findRoutine compId <;> simp

def idleCaller : Caller where
  world := faultyCopyWorld
  freeCall := [⟨4456, 0⟩]
  findRoutine := fun _ => some ⟨5, 1, 0, 9, fun _ => 0, (0, 0)⟩
  msgPtr := 1
  tgid := 300
  pid := 300
  session := 1
  wait := 64

/-- A routine with its callback at 64. The last call through `routine_info` left the same pointer on
the stack. -/
def silentReceiver : Receiver :=
  .lone (ByteTable.callbackDesc 9 64) ((⟨fun _ => 0⟩ : Bytes).wr32 88 64) fun _ _ result => result

/-- Without parameters the first call slot carries the right count. -/
theorem callEx_delivers_no_params :
    ∃ m, idleCaller.callEx 9 (fun _ => 0) = some m ∧
      Delivered silentReceiver (fun _ result => result) (fun _ => 0) m := by
  have hreg : silentReceiver.Registered 9 (fun _ result => result) 9 :=
    ⟨by decide, rfl, rfl, by decide, rfl⟩
  refine ⟨_, rfl,
    (callEx_delivers_iff idleCaller silentReceiver 9 (fun _ => 0) _ hreg).mpr (.inr ?_) _ rfl⟩
  intro e he
  obtain rfl : (⟨4456, 0⟩ : CallEntry) = e := Option.some.inj he
  refine ⟨⟨_, rfl, by decide⟩, rfl, rfl, fun i hi hin => absurd hin ?_⟩
  rw [i32_of_lt (by decide)]
  omega

/-- A single parameter 7 is sent, and the callback sees the count 0. -/
theorem callEx_loses_param :
    ∃ m, idleCaller.callEx 9 (fun i => if i = 0 then 1 else 7) = some m ∧
      ¬ Delivered silentReceiver (fun _ result => result) (fun i => if i = 0 then 1 else 7) m := by
  refine ⟨_, rfl, ?_⟩
  rintro ⟨-, -, args, hargs, hcount, -⟩
  cases hargs
  exact absurd hcount (by decide)

/-! ### Results -/

lemma callExResult_apply (m : CommMsg) (out : ℕ → ℕ) (k : ℕ) :
    callExResult m out k
      = if m.cmdType ≤ 10 then
          if k = 0 then m.cmdType else if k ≤ m.cmdType then m.payload (k - 1) else out k
        else out k := by
  rw [callExResult]
  by_cases hle : m.cmdType ≤ 10
  · rw [if_pos ⟨by omega, hle⟩, if_pos hle, storeWords_apply, update_apply]
    split_ifs <;> first | rfl | omega
  · rw [if_neg fun h => hle h.2, if_neg hle]

lemma returnedMsg_replyMsg_payload (slotIdx remoteCpu next prev : ℕ) (f : CallFill) {m : CommMsg}
    {result : ℕ → ℕ} (hr : result 0 ≤ 10) {k : ℕ} (hk : k < result 0) :
    (returnedMsg remoteCpu next prev (sentMsg 1 1 slotIdx f (replyMsg result m))).payload k
      = result (k + 1) := by
  have hcount : (i32 (result 0)).toNat = result 0 := by
    rw [i32_of_lt (by omega)]
    rfl
  simp only [returnedMsg, receivedMsg, sentMsg, replyMsg, one_ne_zero, if_false, hcount]
  rw [update_of_ne (by omega), update_of_ne (by omega), if_neg (by omega),
    storeWords_zero_apply, if_pos (by omega)]

lemma holdsVector_callExResult_iff {m : CommMsg} {v out : ℕ → ℕ} {r : ℕ} (hr : r ≤ 10)
    (hpayload : ∀ k < r, m.payload k = v (k + 1)) :
    HoldsVector r v (callExResult m out) ↔
      m.cmdType = r ∨ (10 < m.cmdType ∧ HoldsVector r v out) := by
  simp only [HoldsVector, callExResult_apply, Int.natCast_inj, Int.ofNat_le]
  by_cases hle : m.cmdType ≤ 10
  · simp only [hle, if_true, Nat.not_lt.mpr hle, false_and, or_false]
    refine ⟨And.left, fun hcount => ⟨hcount, fun i hi hin => ?_⟩⟩
    rw [if_neg (by omega), if_pos (by omega), hpayload _ (by omega), Nat.sub_add_cancel hi]
  · have hcount : m.cmdType ≠ r := fun h => hle (h ▸ hr)
    simp only [hle, if_false, hcount, false_or, Nat.lt_of_not_le hle, true_and]

lemma reply_eq {m reply : CommMsg} {cb}
    (hreg : rx.findRoutine m.compId = some ⟨rx.curCpu, some cb⟩)
    (hreply : (commCallWorkAction rx m).reply = some reply) :
    reply = replyMsg (cb (callbackParams rx m) callbackResult) m := by
  rw [commCallWorkAction] at hreply
  by_cases hname : m.name ≤ 4
  · rw [if_pos hname] at hreply
    cases hreply
  by_cases hcpu : m.cpu > 1
  · rw [if_neg hname, if_pos hcpu] at hreply
    cases hreply
  rw [if_neg hname, if_neg hcpu, hreg] at hreply
  simp only [ne_eq, not_true_eq_false, if_false, ite_none_right_eq_some] at hreply
  exact (Option.some.inj hreply.2).symm

/-- A response with at most ten results brings them to the caller exactly when the request had as
many parameters, or a count above ten and the buffer already held them. -/
theorem callEx_results_iff (rx : Receiver) (m reply : CommMsg)
    (cb : Callback) (f : CallFill) (slotIdx remoteCpu next prev : ℕ)
    (out : ℕ → ℕ) (hreg : rx.findRoutine m.compId = some ⟨rx.curCpu, some cb⟩)
    (hreply : (commCallWorkAction rx m).reply = some reply)
    (hr : cb (callbackParams rx m) callbackResult 0 ≤ 10) :
    let result := cb (callbackParams rx m) callbackResult
    HoldsVector (result 0) result
        (callExResult (returnedMsg remoteCpu next prev (sentMsg 1 1 slotIdx f reply)) out) ↔
      m.cmdType = result 0 ∨ (10 < m.cmdType ∧ HoldsVector (result 0) result out) := by
  intro result
  rw [reply_eq hreg hreply]
  exact holdsVector_callExResult_iff hr fun k hk =>
    returnedMsg_replyMsg_payload slotIdx remoteCpu next prev f hr hk

def pairReceiver : Receiver :=
  .lone (ByteTable.callbackDesc 0 64) ((⟨fun _ => 0⟩ : Bytes).wr32 88 64)
    fun _ _ _ i => if i = 0 then 2 else 10 + i

def requestMsg (n : ℕ) : CommMsg := { CommMsg.zero with name := 5, cmdType := n }

theorem callEx_results_two_params :
    HoldsVector 2 (fun i => if i = 0 then 2 else 10 + i)
      (callExResult (returnedMsg 1 64 96 (sentMsg 1 1 3 ⟨none, 0, 0, 0⟩
        (replyMsg (fun i => if i = 0 then 2 else 10 + i) (requestMsg 2)))) fun _ => 0) :=
  (callEx_results_iff pairReceiver (requestMsg 2) _ _ ⟨none, 0, 0, 0⟩ 3 1 64 96 (fun _ => 0) rfl rfl
    (by decide)).mpr (.inl rfl)

/-- A request without parameters gets no results. -/
theorem callEx_results_lost :
    ∃ reply, (commCallWorkAction pairReceiver (requestMsg 0)).reply = some reply ∧
      ¬ HoldsVector 2 (fun i => if i = 0 then 2 else 10 + i)
        (callExResult (returnedMsg 1 64 96 (sentMsg 1 1 3 ⟨none, 0, 0, 0⟩ reply)) fun _ => 0) := by
  refine ⟨_, rfl, ?_⟩
  rintro ⟨hcount, -⟩
  exact absurd hcount (by decide)

end CpuComm
