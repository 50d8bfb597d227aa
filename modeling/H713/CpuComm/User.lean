import H713.CpuComm.Action.Basic

/-!
# CALLs for user space

Each open `/dev/cpu_comm` has a queue, and `cpu_comm_userspace_deliver` puts a copy of a CALL into
every one of them; a full queue loses its oldest entry. It is called by `command_action` and once
more by the work item of the CALL.
-/

namespace CpuComm

open Machine List Option

def userQueueMax : ℕ := 32

def commMsgSize : ℕ := 104

/-- A `struct cpu_comm_msg_node`, with the number of the CALL it is a copy of. -/
structure MsgNode where
  call : ℕ
  msg : CommMsg

/-- A `struct cpu_comm_user_ctx`. `queue_count` is the length of the queue. -/
structure UserCtx where
  queue : List MsgNode
  dropped : ℕ
  /-- how many CALLs there had been when the file was opened -/
  opened : ℕ
  /-- the CALLs offered to the file -/
  offered : List ℕ
  /-- the messages returned by its reads -/
  reads : List MsgNode

/-! ### The file operations -/

def cpuCommUserOpen (calls : ℕ) : UserCtx := ⟨[], 0, calls, [], []⟩

namespace UserCtx

def offer (c : UserCtx) (n : MsgNode) (alloc : Bool) : UserCtx :=
  let c := { c with offered := c.offered ++ [n.call] }
  if !alloc then { c with dropped := c.dropped + 1 }
  else if userQueueMax ≤ c.queue.length then
    { c with queue := c.queue.tail ++ [n], dropped := c.dropped + 1 }
  else { c with queue := c.queue ++ [n] }

/-- The size of a read, `O_NONBLOCK`, a signal while it waits, a fault of `copy_to_user`. -/
structure ReadArgs where
  count : ℕ
  nonblock : Bool
  signal : Bool
  fault : Bool

def cpuCommUserRead (c : UserCtx) (a : ReadArgs) : Option (UserCtx × Except ℤ MsgNode) :=
  if a.count < commMsgSize then some (c, .error (-22))
  else
    match c.queue with
    | [] =>
      if a.nonblock then some (c, .error (-11))
      else if a.signal then some (c, .error (-512))
      else none
    | n :: q =>
      -- the entry is taken out before it is copied
      let c := { c with queue := q }
      if a.fault then some (c, .error (-14))
      else some ({ c with reads := c.reads ++ [n] }, .ok n)

end UserCtx

def cpuCommUserspaceDeliver (n : MsgNode) : List Bool → List UserCtx → List UserCtx
  | _, []           => []
  | [], c :: cs      => c.offer n true :: cpuCommUserspaceDeliver n [] cs
  | a :: as, c :: cs => c.offer n a :: cpuCommUserspaceDeliver n as cs

/-! ### The receive path -/

def callWorkDelivers (rx : Receiver) (m : CommMsg) : Bool :=
  4 < m.name ∧ m.cpu ≤ 1 ∧ (rx.findRoutine m.compId).any fun r => r.cpu = rx.curCpu

/-- The open files, how many CALLs `command_action` has taken, and the work items that are
pending. -/
structure UserFiles where
  files : List UserCtx
  calls : ℕ
  work : List MsgNode

namespace UserFiles

def init : UserFiles := ⟨[], 0, []⟩

/-- A file is named by its place in the list of open files. `alloc` is for the work item and
`allocs` for the copies. -/
inductive Event where
  | open
  | close (i : ℕ)
  | call (msg : CommMsg) (alloc : Bool) (allocs : List Bool)
  | work (i : ℕ) (rx : Receiver) (allocs : List Bool)
  | read (i : ℕ) (a : UserCtx.ReadArgs)

def step (s : UserFiles) : Event → Option UserFiles
  | .open => some { s with files := s.files ++ [cpuCommUserOpen s.calls] }
  -- `cpu_comm_user_release`
  | .close i => if i < s.files.length then some { s with files := s.files.eraseIdx i } else none
  -- `command_action`, with `Comm_Add2Call2WQ` for a command word above 4
  | .call msg alloc allocs => some
      { files := cpuCommUserspaceDeliver ⟨s.calls, receivedMsg cpuIdMips msg⟩ allocs s.files
        calls := s.calls + 1
        work :=
          if 4 < msg.name ∧ alloc then s.work ++ [⟨s.calls, queuedCall cpuIdMips msg⟩]
          else s.work }
  -- `comm_CallWorkAction`
  | .work i rx allocs => (s.work[i]?).map fun n =>
      { s with
        files :=
          if callWorkDelivers rx n.msg then cpuCommUserspaceDeliver n allocs s.files else s.files
        work := s.work.eraseIdx i }
  | .read i a => (s.files[i]?).bind fun c =>
      (c.cpuCommUserRead a).map fun r => { s with files := s.files.set i r.1 }

end UserFiles

/-! ### What a file has been given -/

/-- After `calls` CALLs the file has been offered each since it was opened once, what it has read
and still has is of these, in their order, and none is unaccounted for. -/
structure UserCtx.Ok (calls : ℕ) (c : UserCtx) : Prop where
  opened : c.opened ≤ calls
  once : c.offered = List.range' c.opened (calls - c.opened)
  order : ((c.reads ++ c.queue).map MsgNode.call).Sublist c.offered
  count : c.offered.length = c.reads.length + c.dropped + c.queue.length
  bound : c.queue.length ≤ userQueueMax

def UserFiles.Ok (s : UserFiles) : Prop := ∀ c ∈ s.files, c.Ok s.calls

section

variable {calls : ℕ} {c : UserCtx} {n : MsgNode} {alloc : Bool}

lemma UserCtx.Ok.openFile (calls : ℕ) : (cpuCommUserOpen calls).Ok calls where
  opened := Nat.le_refl _
  once := by simp [cpuCommUserOpen]
  order := List.Sublist.refl _
  count := rfl
  bound := Nat.zero_le _

@[simp] lemma UserCtx.offer_offered : (c.offer n alloc).offered = c.offered ++ [n.call] := by
  simp only [UserCtx.offer]
  split_ifs <;> rfl

@[simp] lemma UserCtx.offer_opened : (c.offer n alloc).opened = c.opened := by
  simp only [UserCtx.offer]
  split_ifs <;> rfl

@[simp] lemma UserCtx.offer_reads : (c.offer n alloc).reads = c.reads := by
  simp only [UserCtx.offer]
  split_ifs <;> rfl

lemma UserCtx.offer_queue (c : UserCtx) (n : MsgNode) (alloc : Bool) :
    ((c.offer n alloc).queue = c.queue ∧ (c.offer n alloc).dropped = c.dropped + 1) ∨
    ((c.offer n alloc).queue = c.queue.tail ++ [n] ∧ (c.offer n alloc).dropped = c.dropped + 1 ∧
      userQueueMax ≤ c.queue.length) ∨
    ((c.offer n alloc).queue = c.queue ++ [n] ∧ (c.offer n alloc).dropped = c.dropped ∧
      c.queue.length < userQueueMax) := by
  simp only [UserCtx.offer]
  split_ifs with ha hq
  · exact .inl ⟨rfl, rfl⟩
  · exact .inr (.inl ⟨rfl, rfl, hq⟩)
  · exact .inr (.inr ⟨rfl, rfl, by omega⟩)

lemma UserCtx.Ok.offer (h : c.Ok calls) (hn : n.call = calls) (alloc : Bool) :
    (c.offer n alloc).Ok (calls + 1) := by
  have hlast : List.range' c.opened (calls + 1 - c.opened) =
      List.range' c.opened (calls - c.opened) ++ [calls] := by
    have hle := h.opened
    have hlen : calls + 1 - c.opened = (calls - c.opened) + 1 := by omega
    have hcalls : c.opened + (calls - c.opened) = calls := by omega
    rw [hlen, List.range'_1_concat, hcalls]
  have horder : ∀ q : List MsgNode, q.Sublist c.queue →
      ((c.reads ++ q).map MsgNode.call).Sublist c.offered := fun q hq =>
    ((hq.append_left c.reads).map _).trans h.order
  have hcount := h.count
  have hbound := h.bound
  refine ⟨by simpa using Nat.le_succ_of_le h.opened, ?_, ?_, ?_, ?_⟩
  · rw [UserCtx.offer_offered, UserCtx.offer_opened, hlast, h.once, hn]
  · rw [UserCtx.offer_offered, UserCtx.offer_reads]
    rcases c.offer_queue n alloc with ⟨hq, -⟩ | ⟨hq, -, -⟩ | ⟨hq, -, -⟩
    · rw [hq]
      exact (horder _ (List.Sublist.refl _)).trans (sublist_append_left _ _)
    · rw [hq, ← append_assoc, map_append]
      exact (horder _ (tail_sublist _)).append (List.Sublist.refl _)
    · rw [hq, ← append_assoc, map_append]
      exact (horder _ (List.Sublist.refl _)).append (List.Sublist.refl _)
  · rw [UserCtx.offer_offered, UserCtx.offer_reads, length_append, length_singleton]
    rcases c.offer_queue n alloc with ⟨hq, hd⟩ | ⟨hq, hd, hm⟩ | ⟨hq, hd, -⟩
    · rw [hq, hd]
      omega
    · rw [hq, hd, length_append, length_tail, length_singleton]
      simp only [userQueueMax] at hm
      omega
    · rw [hq, hd, length_append, length_singleton]
      omega
  · rcases c.offer_queue n alloc with ⟨hq, -⟩ | ⟨hq, -, hm⟩ | ⟨hq, -, hm⟩
    · rw [hq]
      exact hbound
    · rw [hq, length_append, length_tail, length_singleton]
      simp only [userQueueMax] at hm hbound ⊢
      omega
    · rw [hq, length_append, length_singleton]
      omega

lemma UserCtx.Ok.not_offer (h : c.Ok calls) (n : MsgNode) (alloc : Bool) :
    ¬ (c.offer n alloc).Ok calls := by
  intro h'
  have hlen := congrArg List.length h'.once
  rw [UserCtx.offer_offered, UserCtx.offer_opened, length_append, h.once] at hlen
  simp at hlen

lemma mem_deliver {as : List Bool} {cs : List UserCtx} {c' : UserCtx}
    (h : c' ∈ cpuCommUserspaceDeliver n as cs) : ∃ c ∈ cs, ∃ a, c' = c.offer n a := by
  induction cs generalizing as with
  | nil => cases as <;> simp [cpuCommUserspaceDeliver] at h
  | cons c cs ih =>
    cases as with
    | nil =>
      rcases mem_cons.mp h with rfl | h
      · exact ⟨c, mem_cons_self, true, rfl⟩
      · obtain ⟨d, hd, a, rfl⟩ := ih h
        exact ⟨d, mem_cons_of_mem c hd, a, rfl⟩
    | cons a as =>
      rcases mem_cons.mp h with rfl | h
      · exact ⟨c, mem_cons_self, a, rfl⟩
      · obtain ⟨d, hd, a, rfl⟩ := ih h
        exact ⟨d, mem_cons_of_mem c hd, a, rfl⟩

lemma deliver_cons (n : MsgNode) (as : List Bool) (c : UserCtx) (cs : List UserCtx) :
    ∃ a, c.offer n a ∈ cpuCommUserspaceDeliver n as (c :: cs) := by
  cases as with
  | nil => exact ⟨true, mem_cons_self⟩
  | cons a as => exact ⟨a, mem_cons_self⟩

end

/-! ### Reads -/

def UserCtx.Faults (c : UserCtx) (a : ReadArgs) : Prop :=
  commMsgSize ≤ a.count ∧ c.queue ≠ [] ∧ a.fault = true

instance (c : UserCtx) (a : UserCtx.ReadArgs) : Decidable (c.Faults a) :=
  inferInstanceAs (Decidable (_ ∧ _ ≠ _ ∧ _))

section

variable {calls : ℕ} {c c' : UserCtx} {a : UserCtx.ReadArgs} {r : Except ℤ MsgNode}

lemma UserCtx.read_cases (h : c.cpuCommUserRead a = some (c', r)) :
    (c' = c ∧ (∃ e, r = .error e) ∧ ¬ c.Faults a) ∨
    (∃ n q, c.queue = n :: q ∧ c' = { c with queue := q, reads := c.reads ++ [n] } ∧ r = .ok n ∧
      ¬ c.Faults a) ∨
    (∃ n q, c.queue = n :: q ∧ c' = { c with queue := q } ∧ c.Faults a) := by
  simp only [UserCtx.cpuCommUserRead] at h
  by_cases hcount : a.count < commMsgSize
  · rw [if_pos hcount] at h
    cases h
    exact .inl ⟨rfl, ⟨_, rfl⟩, fun hf => by have := hf.1; omega⟩
  · rw [if_neg hcount] at h
    cases hq : c.queue with
    | nil =>
      have hno : ¬ c.Faults a := fun hf => hf.2.1 hq
      simp only [hq] at h
      split_ifs at h
      · cases h
        exact .inl ⟨rfl, ⟨_, rfl⟩, hno⟩
      · cases h
        exact .inl ⟨rfl, ⟨_, rfl⟩, hno⟩
    | cons n q =>
      simp only [hq] at h
      split_ifs at h with hf
      · cases h
        exact .inr (.inr ⟨n, q, rfl, rfl, by omega, by simp [hq], hf⟩)
      · cases h
        exact .inr (.inl ⟨n, q, rfl, rfl, rfl, fun hF => hf hF.2.2⟩)

lemma UserCtx.Ok.read_iff (h : c.Ok calls) (hr : c.cpuCommUserRead a = some (c', r)) :
    c'.Ok calls ↔ ¬ c.Faults a := by
  rcases UserCtx.read_cases hr with ⟨rfl, -, hno⟩ | ⟨n, q, hq, rfl, -, hno⟩ | ⟨n, q, hq, rfl, hf⟩
  · exact iff_of_true h hno
  · refine iff_of_true ⟨h.opened, h.once, ?_, ?_, ?_⟩ hno
    · simpa [hq] using h.order
    · have hcount := h.count
      simp only [hq, length_cons, length_append, length_nil] at hcount ⊢
      omega
    · have hbound := h.bound
      simp only [hq, length_cons] at hbound ⊢
      omega
  · refine iff_of_false (fun h' => ?_) (not_not.mpr hf)
    have hcount := h.count
    have hcount' := h'.count
    simp only [hq, length_cons] at hcount hcount'
    omega

lemma UserCtx.read_error {e : ℤ} (hr : c.cpuCommUserRead a = some (c', .error e))
    (hno : ¬ c.Faults a) : c'.queue = c.queue := by
  rcases UserCtx.read_cases hr with ⟨rfl, -, -⟩ | ⟨n, q, -, -, heq, -⟩ | ⟨n, q, -, -, hf⟩
  · rfl
  · cases heq
  · exact absurd hf hno

end

/-! ### Runs -/

namespace UserFiles

def Observed (s : UserFiles) : Event → Prop
  | .work i rx _ => ∀ n ∈ s.work[i]?, callWorkDelivers rx n.msg = true → s.files = []
  | .read i a    => ∀ c ∈ s.files[i]?, ¬ c.Faults a
  | _            => True

lemma ok_init : init.Ok := fun _ hc => absurd hc not_mem_nil

lemma ok_step_iff {s s' : UserFiles} {e : Event} (h : s.Ok) (hs : s.step e = some s') :
    s'.Ok ↔ s.Observed e := by
  cases e with
  | «open» =>
    cases hs
    refine iff_of_true (fun c hc => ?_) trivial
    rcases mem_append.mp hc with hc | hc
    · exact h c hc
    · rw [mem_singleton.mp hc]
      exact .openFile s.calls
  | close i =>
    simp only [step, ite_none_right_eq_some, Option.some.injEq] at hs
    obtain ⟨-, rfl⟩ := hs
    exact iff_of_true (fun c hc => h c (mem_of_mem_eraseIdx hc)) trivial
  | call msg alloc allocs =>
    cases hs
    refine iff_of_true (fun c hc => ?_) trivial
    obtain ⟨d, hd, a, rfl⟩ := mem_deliver hc
    exact (h d hd).offer rfl a
  | work i rx allocs =>
    simp only [step, map_eq_some_iff] at hs
    obtain ⟨n, hn, rfl⟩ := hs
    simp only [Observed, hn, mem_some_iff, forall_eq']
    by_cases hdel : callWorkDelivers rx n.msg = true
    · simp only [Ok, hdel, forall_const]
      cases hf : s.files with
      | nil => exact iff_of_true (fun c hc => by simp [cpuCommUserspaceDeliver] at hc) rfl
      | cons c cs =>
        refine iff_of_false (fun hok => ?_) (by simp)
        obtain ⟨a, ha⟩ := deliver_cons n allocs c cs
        exact (h c (hf ▸ mem_cons_self)).not_offer n a (hok _ ha)
    · simp only [Ok, if_neg hdel]
      exact iff_of_true h fun hd => absurd hd hdel
  | read i a =>
    simp only [step, bind_eq_some_iff, map_eq_some_iff] at hs
    obtain ⟨c, hc, ⟨c', r⟩, hr, rfl⟩ := hs
    have hmem : c ∈ s.files := mem_of_getElem? hc
    have hi : i < s.files.length := (List.getElem?_eq_some_iff.mp hc).1
    simp only [Observed, hc, mem_some_iff, forall_eq']
    rw [← (h c hmem).read_iff hr]
    constructor
    · intro hok
      exact hok c' (mem_set hi c')
    · intro hok d hd
      rcases mem_or_eq_of_mem_set hd with hd | rfl
      · exact h d hd
      · exact hok

/-- The files are in order all along a run, and each failing read leaves its queue, exactly when no
work item delivers a CALL again to an open file and no read loses a message. -/
theorem delivery_iff (es : List Event) (t : UserFiles) (hr : run step init es = some t) :
    Guarded step Observed init es ↔
      ∀ bs s, bs <+: es → run step init bs = some s → s.Ok ∧
        ∀ i a, bs ++ [.read i a] <+: es → ∀ c ∈ s.files[i]?, ∀ c' e,
          c.cpuCommUserRead a = some (c', .error e) → c'.queue = c.queue := by
  have hiff : Guarded step Observed init es ↔
      ∀ bs s, bs <+: es → run step init bs = some s → s.Ok :=
    guarded_iff_invariant (fun s e s' hok hs => ok_step_iff hok hs) ok_init hr
  constructor
  · intro hg bs s hbs hs
    refine ⟨hiff.mp hg bs s hbs hs, fun i a hpre c hc c' e hread => ?_⟩
    obtain ⟨cs, rfl⟩ := hpre
    exact UserCtx.read_error hread ((hg.append_left).last hs c hc)
  · intro h
    exact hiff.mpr fun bs s hbs hs => (h bs s hbs hs).1

def callOf (name : ℕ) : CommMsg := { CommMsg.zero with name := name, compId := 0x1001 }

def loneRoutine : Receiver :=
  .lone (ByteTable.callbackDesc 0x1001 0) ⟨fun _ => 0⟩ fun _ _ result => result

def openCallRead : List Event :=
  [.open, .call (callOf 1) true [], .read 0 ⟨104, true, false, false⟩]

instance (s : UserFiles) : ∀ e : Event, Decidable (s.Observed e)
  | .open | .close _ | .call _ _ _ => .isTrue trivial
  | .work i rx _ => inferInstanceAs (Decidable
      (∀ n ∈ s.work[i]?, callWorkDelivers rx n.msg = true → s.files = []))
  | .read i a => inferInstanceAs (Decidable (∀ c ∈ s.files[i]?, ¬ c.Faults a))

theorem delivery_read : ∃ t, run step init openCallRead = some t ∧
    t.files.map (fun c => c.reads.map MsgNode.call) = [[0]] ∧ t.Ok := by
  have hg : Guarded step Observed init openCallRead := by decide
  refine ⟨_, rfl, rfl, ?_⟩
  exact ((delivery_iff openCallRead _ rfl).mp hg openCallRead _ (prefix_refl _) rfl).1

/-- A CALL of command word 5 is delivered by `command_action` and by its work item. -/
theorem delivered_twice : ∃ t,
    run step init [.open, .call (callOf 5) true [], .work 0 loneRoutine []] = some t ∧
      t.files.map UserCtx.offered = [[0, 0]] ∧ ¬ t.Ok := by
  refine ⟨_, rfl, rfl, fun h => ?_⟩
  have honce := (h _ mem_cons_self).once
  cases honce

end UserFiles

end CpuComm
