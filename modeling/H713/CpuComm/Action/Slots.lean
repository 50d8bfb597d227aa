import H713.CpuComm.Action.Basic

/-!
# The call slots of the MIPS

The MIPS takes a slot of the FreeCall FIFO for each message. The driver gives it back with
`Comm_ReleaseFreeCall` in two places: in the work item of a CALL, and in `CPUComm_CallEx` once it
has found the RETURN of its session.
-/

namespace CpuComm

open Machine Function List

/-- An entry that `command_action` has handed over. The number tells one use of a slot from the
next. -/
structure Consumed where
  id : ℕ
  slot : ℕ
  msg : CommMsg

structure SlotFlow where
  /-- the FreeCall FIFOs -/
  free : Direction → List ℕ
  /-- the slots that the MIPS has taken and `command_action` has not seen yet -/
  held : Direction → List ℕ
  /-- how many entries `command_action` has handed over -/
  consumed : ℕ
  /-- the work items of `Comm_Add2Call2WQ` -/
  work : List Consumed
  /-- the ReturnCmd FIFO -/
  staging : List Consumed
  returnList : List Consumed
  /-- the sessions of the calls of `CPUComm_CallEx` that have not drained the ReturnCmd FIFO -/
  waiting : List ℕ
  /-- of those that have, and have not looked into the ReturnList -/
  drained : List ℕ
  /-- the entries that calls have taken from the ReturnList and not given back -/
  found : List Consumed
  /-- the entries given back -/
  released : List ℕ

namespace SlotFlow

def init : SlotFlow where
  free := fun _ => List.range 20
  held := fun _ => []
  consumed := 0
  work := []
  staging := []
  returnList := []
  waiting := []
  drained := []
  found := []
  released := []

def commReleaseFreeCall (s : SlotFlow) (d : Direction) (e : Consumed) : SlotFlow :=
  if (s.free d).length < 20 then
    { s with
      free := Function.update s.free d (s.free d ++ [e.slot])
      released := s.released ++ [e.id] }
  else s

def handCall (s : SlotFlow) (e : Consumed) (alloc : Bool) : SlotFlow :=
  if e.msg.name ≤ 4 then s
  else if alloc then { s with work := s.work ++ [{ e with msg := queuedCall cpuIdMips e.msg }] }
  else s

def handReturn (s : SlotFlow) (e : Consumed) : SlotFlow :=
  if s.staging.length < 20 then { s with staging := s.staging ++ [e] } else s

def consume (s : SlotFlow) (d : Direction) (slot : ℕ) : SlotFlow :=
  { s with held := Function.update s.held d ((s.held d).erase slot), consumed := s.consumed + 1 }

def runWork (s : SlotFlow) (i : ℕ) (e : Consumed) (rx : Receiver) : SlotFlow :=
  let s := { s with work := s.work.eraseIdx i }
  if (commCallWorkAction rx e.msg).released then s.commReleaseFreeCall .call e else s

/-- `returnPipeLine`, which `GetReturnbySessionId` starts with. -/
def drain (s : SlotFlow) (session : ℕ) : SlotFlow :=
  { s with
    staging := []
    returnList := s.returnList ++ s.staging
    waiting := s.waiting.erase session
    drained := s.drained ++ [session] }

/-- The rest of `GetReturnbySessionId`. -/
def look (s : SlotFlow) (session : ℕ) : SlotFlow :=
  let s := { s with drained := s.drained.erase session }
  match s.returnList.find? fun e => e.msg.session = session with
  | some e => { s with
      returnList := s.returnList.eraseP fun e => e.msg.session = session
      found := s.found ++ [e] }
  | none   => s

def leave (s : SlotFlow) (i : ℕ) (e : Consumed) : SlotFlow :=
  { s with found := s.found.eraseIdx i }.commReleaseFreeCall .ret e

inductive Event
  /-- the MIPS takes a slot from a FreeCall FIFO -/
  | take (d : Direction)
  /-- `command_action` consumes a CALL -/
  | call (slot : ℕ) (msg : CommMsg) (alloc : Bool)
  /-- `command_action` consumes a RETURN -/
  | ret (slot : ℕ) (msg : CommMsg)
  /-- the `i`-th queued work item is run -/
  | work (i : ℕ) (rx : Receiver)
  /-- a call of `CPUComm_CallEx` is under way -/
  | beginCall (session : ℕ)
  /-- it moves the staged RETURNs to the ReturnList -/
  | drain (session : ℕ)
  /-- it takes its RETURN from the ReturnList; without one it has nothing more to give back -/
  | look (session : ℕ)
  /-- the call with the `i`-th entry found gives it back and returns -/
  | leave (i : ℕ)
  /-- it returns without looking, since `SendComm2CPUEx` has failed -/
  | failCall (session : ℕ)

def step (s : SlotFlow) : Event → Option SlotFlow
  | .take d =>
    match s.free d with
    | []           => none
    | slot :: rest => some { s with
        free := Function.update s.free d rest
        held := Function.update s.held d (s.held d ++ [slot]) }
  | .call slot msg alloc =>
    if slot ∈ s.held .call then some ((s.consume .call slot).handCall ⟨s.consumed, slot, msg⟩ alloc)
    else none
  | .ret slot msg =>
    if slot ∈ s.held .ret then
      some ((s.consume .ret slot).handReturn ⟨s.consumed, slot, receivedMsg cpuIdMips msg⟩)
    else none
  | .work i rx => (s.work[i]?).map fun e => s.runWork i e rx
  | .beginCall q => some { s with waiting := s.waiting ++ [q] }
  | .drain q => if q ∈ s.waiting then some (s.drain q) else none
  | .look q => if q ∈ s.drained then some (s.look q) else none
  | .leave i => (s.found[i]?).map fun e => s.leave i e
  | .failCall q => if q ∈ s.waiting then some { s with waiting := s.waiting.erase q } else none

/-- The work items have run and the calls have nothing left to look for or to give back. -/
structure Quiet (s : SlotFlow) : Prop where
  work : s.work = []
  waiting : s.waiting = []
  drained : s.drained = []
  found : s.found = []

def AllReturned (s : SlotFlow) : Prop :=
  s.released.Perm (List.range s.consumed) ∧ ∀ d, (s.free d ++ s.held d).Perm (List.range 20)

/-- The CALLs get a work item, each RETURN is the only one of a call that has yet to drain, and no
call that fails has one. -/
def Ok (s : SlotFlow) : Event → Prop
  | .call _ msg alloc => 4 < msg.name ∧ alloc = true
  | .ret _ msg =>
    msg.session ∈ s.waiting ∧ ∀ e ∈ s.returnList ++ s.staging, e.msg.session ≠ msg.session
  | .failCall q => ∀ e ∈ s.returnList ++ s.staging, e.msg.session ≠ q
  | _ => True

instance (s : SlotFlow) (e : Event) : Decidable (s.Ok e) := by
  cases e <;> unfold Ok <;> infer_instance

/-! ### The invariant -/

def inFlight (s : SlotFlow) : Direction → List Consumed
  | .call => s.work
  | .ret  => s.returnList ++ s.staging ++ s.found

def other : Direction → Direction
  | .call => .ret
  | .ret  => .call

lemma inFlight_perm (s : SlotFlow) (d : Direction) :
    (s.inFlight .call ++ s.inFlight .ret).Perm (s.inFlight d ++ s.inFlight (other d)) := by
  cases d
  exacts [List.Perm.refl _, perm_append_comm]

/-- Each entry and each slot is in one place. -/
structure Ledger (s : SlotFlow) : Prop where
  ids : (s.released ++ (s.inFlight .call ++ s.inFlight .ret).map Consumed.id).Perm
    (List.range s.consumed)
  slots : ∀ d, (s.free d ++ s.held d ++ (s.inFlight d).map Consumed.slot).Perm (List.range 20)

structure Inv (s : SlotFlow) : Prop where
  ledger : s.Ledger
  /-- the checks of `comm_CallWorkAction` -/
  queued : ∀ e ∈ s.work, 4 < e.msg.name ∧ e.msg.cpu ≤ 1
  /-- a call has yet to drain, and then to look, for each RETURN -/
  staged : ∀ e ∈ s.staging, e.msg.session ∈ s.waiting
  listed : ∀ e ∈ s.returnList, e.msg.session ∈ s.waiting ++ s.drained
  /-- one of its own -/
  once : ((s.returnList ++ s.staging).map fun e => e.msg.session).Nodup

variable {s s' : SlotFlow} {d : Direction} {e : Consumed}

lemma Inv.init : init.Inv where
  ledger := ⟨List.Perm.refl [], fun d => by cases d <;> exact List.Perm.refl _⟩
  queued := by simp [SlotFlow.init]
  staged := by simp [SlotFlow.init]
  listed := by simp [SlotFlow.init]
  once := nodup_nil

lemma Inv.allReturned (h : s.Inv) (hq : s.Quiet) : s.AllReturned := by
  have hstaging : s.staging = [] := eq_nil_iff_forall_not_mem.mpr fun e he => by
    simpa [hq.waiting] using h.staged e he
  have hlist : s.returnList = [] := eq_nil_iff_forall_not_mem.mpr fun e he => by
    simpa [hq.waiting, hq.drained] using h.listed e he
  have hnone (d : Direction) : s.inFlight d = [] := by
    cases d
    · exact hq.work
    · simp [inFlight, hstaging, hlist, hq.found]
  exact ⟨by simpa [hnone] using h.ledger.ids, fun d => by simpa [hnone] using h.ledger.slots d⟩

lemma Ledger.room (h : s.Ledger) (he : e ∈ s.inFlight d) : (s.free d).length < 20 := by
  have hlen := (h.slots d).length_eq
  have hpos : 0 < (s.inFlight d).length := length_pos_of_mem he
  simp only [length_append, length_map, length_range] at hlen
  omega

lemma Ledger.count_ids (h : s.Ledger) (d : Direction) (k : ℕ) :
    s.released.count k + ((s.inFlight d).map Consumed.id).count k
      + ((s.inFlight (other d)).map Consumed.id).count k = (List.range s.consumed).count k := by
  have hk := perm_iff_count.mp h.ids k
  have hsplit := perm_iff_count.mp ((s.inFlight_perm d).map Consumed.id) k
  simp only [count_append, map_append] at hk hsplit
  omega

lemma Ledger.of_count (d : Direction)
    (hids : ∀ k, s.released.count k + ((s.inFlight d).map Consumed.id).count k
      + ((s.inFlight (other d)).map Consumed.id).count k = (List.range s.consumed).count k)
    (hslots : ∀ d,
      (s.free d ++ s.held d ++ (s.inFlight d).map Consumed.slot).Perm (List.range 20)) :
    s.Ledger := by
  refine ⟨perm_iff_count.mpr fun k => ?_, hslots⟩
  have hsplit := perm_iff_count.mp ((s.inFlight_perm d).map Consumed.id) k
  have hk := hids k
  simp only [count_append, map_append] at hsplit ⊢
  omega

lemma eq_or_eq_other (d d' : Direction) : d' = d ∨ d' = other d := by
  cases d <;> cases d' <;> decide

lemma Ledger.consume (h : s.Ledger) (hfree : s'.free = s.free)
    (hheld : s'.held = update s.held d ((s.held d).erase e.slot))
    (hmem : e.slot ∈ s.held d) (hid : e.id = s.consumed) (hcount : s'.consumed = s.consumed + 1)
    (hrel : s'.released = s.released) (he : (s'.inFlight d).Perm (e :: s.inFlight d))
    (hother : s'.inFlight (other d) = s.inFlight (other d)) : s'.Ledger := by
  refine Ledger.of_count d (fun k => ?_) fun d' => ?_
  · have hk := h.count_ids d k
    have hek := perm_iff_count.mp (he.map Consumed.id) k
    simp only [hrel, hcount, hother, range_succ, count_append, map_cons,
      count_cons, count_nil, hid] at hk hek ⊢
    omega
  · obtain rfl | rfl := eq_or_eq_other d d'
    · rw [perm_iff_count]
      intro k
      have hk := perm_iff_count.mp (h.slots d') k
      have hek := perm_iff_count.mp (he.map Consumed.slot) k
      have hheldk := perm_iff_count.mp (perm_cons_erase hmem) k
      simp only [hfree, hheld, update_self, count_append, map_cons,
        count_cons] at hk hek hheldk ⊢
      omega
    · rw [hfree, hheld, hother, update_of_ne (by cases d <;> decide)]
      exact h.slots (other d)

lemma Ledger.release (h : s.Ledger)
    (hfree : s'.free = update s.free d (s.free d ++ [e.slot])) (hheld : s'.held = s.held)
    (hcount : s'.consumed = s.consumed) (hrel : s'.released = s.released ++ [e.id])
    (he : (s.inFlight d).Perm (e :: s'.inFlight d))
    (hother : s'.inFlight (other d) = s.inFlight (other d)) : s'.Ledger := by
  refine Ledger.of_count d (fun k => ?_) fun d' => ?_
  · have hk := h.count_ids d k
    have hek := perm_iff_count.mp (he.map Consumed.id) k
    simp only [hrel, hcount, hother, count_append, map_cons, count_cons,
      count_nil] at hk hek ⊢
    omega
  · obtain rfl | rfl := eq_or_eq_other d d'
    · rw [perm_iff_count]
      intro k
      have hk := perm_iff_count.mp (h.slots d') k
      have hek := perm_iff_count.mp (he.map Consumed.slot) k
      simp only [hfree, hheld, update_self, count_append, map_cons,
        count_cons, count_nil] at hk hek ⊢
      omega
    · rw [hfree, hheld, hother, update_of_ne (by cases d <;> decide)]
      exact h.slots (other d)

/-! ### Steps -/

lemma Inv.take {slot : ℕ} {rest : List ℕ} (h : s.Inv) (hd : s.free d = slot :: rest) :
    Inv { s with
      free := update s.free d rest
      held := update s.held d (s.held d ++ [slot]) } := by
  refine ⟨⟨h.ledger.ids, fun d' => ?_⟩, h.queued, h.staged, h.listed, h.once⟩
  by_cases hd' : d' = d
  · subst hd'
    have hperm := h.ledger.slots d'
    rw [hd] at hperm
    refine (List.Perm.append_right _ ?_).trans hperm
    simp only [update_self]
    rw [← append_assoc]
    exact perm_append_singleton slot (rest ++ s.held d')
  · simp only [update_of_ne hd']
    exact h.ledger.slots d'

lemma Inv.call {slot : ℕ} {msg : CommMsg} (h : s.Inv) (hmem : slot ∈ s.held .call)
    (hname : 4 < msg.name) :
    Inv ((s.consume .call slot).handCall ⟨s.consumed, slot, msg⟩ true) := by
  have hhand : (s.consume .call slot).handCall ⟨s.consumed, slot, msg⟩ true
      = { s.consume .call slot with
          work := s.work ++ [⟨s.consumed, slot, queuedCall cpuIdMips msg⟩] } := by
    rw [handCall, if_neg (Nat.not_le.mpr hname), if_pos rfl]
    rfl
  rw [hhand]
  refine ⟨h.ledger.consume (e := ⟨s.consumed, slot, queuedCall cpuIdMips msg⟩) rfl rfl hmem rfl rfl
    rfl (perm_append_singleton _ _) rfl, fun e he => ?_, h.staged, h.listed, h.once⟩
  rcases mem_append.mp he with he | he
  · exact h.queued e he
  · obtain rfl := mem_singleton.mp he
    exact ⟨hname, le_rfl⟩

lemma Inv.ret {slot : ℕ} {msg : CommMsg} (h : s.Inv) (hmem : slot ∈ s.held .ret)
    (hcaller : msg.session ∈ s.waiting)
    (hnew : ∀ e ∈ s.returnList ++ s.staging, e.msg.session ≠ msg.session) :
    Inv ((s.consume .ret slot).handReturn ⟨s.consumed, slot, receivedMsg cpuIdMips msg⟩) := by
  -- the slot itself is neither staged nor listed
  have hroom : s.staging.length < 20 := by
    have hlen := (h.ledger.slots .ret).length_eq
    have hheld : 0 < (s.held .ret).length := length_pos_of_mem hmem
    simp only [inFlight, length_append, length_map, length_range] at hlen
    omega
  have hhand : (s.consume .ret slot).handReturn ⟨s.consumed, slot, receivedMsg cpuIdMips msg⟩
      = { s.consume .ret slot with
          staging := s.staging ++ [⟨s.consumed, slot, receivedMsg cpuIdMips msg⟩] } := by
    rw [handReturn, if_pos (by exact hroom)]
    rfl
  have hlist : (s.consume .ret slot).returnList
      ++ (s.staging ++ [⟨s.consumed, slot, receivedMsg cpuIdMips msg⟩])
      = s.returnList ++ s.staging ++ [⟨s.consumed, slot, receivedMsg cpuIdMips msg⟩] :=
    (append_assoc _ _ _).symm
  rw [hhand]
  refine ⟨h.ledger.consume (e := ⟨s.consumed, slot, receivedMsg cpuIdMips msg⟩) rfl rfl hmem rfl rfl
    rfl ?_ rfl, h.queued, ?_, h.listed, ?_⟩
  · simp only [inFlight, hlist]
    exact (perm_append_singleton _ _).append_right s.found
  · intro e he
    rcases mem_append.mp he with he | he
    · exact h.staged e he
    · obtain rfl := mem_singleton.mp he
      exact hcaller
  · simp only [hlist, map_append, map_cons, map_nil]
    rw [← map_append]
    refine List.Nodup.append h.once (nodup_singleton _) ?_
    rw [disjoint_singleton, mem_map]
    rintro ⟨e, he, heq⟩
    exact hnew e he heq

lemma commCallWorkAction_released (rx : Receiver) {m : CommMsg} (hname : 4 < m.name)
    (hcpu : m.cpu ≤ 1) : (commCallWorkAction rx m).released = true := by
  unfold commCallWorkAction
  rw [if_neg (Nat.not_le.mpr hname), if_neg (Nat.not_lt.mpr hcpu)]
  split
  · rfl
  next r _ =>
    by_cases hr : r.cpu ≠ rx.curCpu
    · rw [if_pos hr]
    · rw [if_neg hr]
      split <;> rfl

lemma Inv.work {i : ℕ} {rx : Receiver} (h : s.Inv) (hi : s.work[i]? = some e) :
    (s.runWork i e rx).Inv := by
  have hmem : e ∈ s.work := mem_of_getElem? hi
  obtain ⟨hname, hcpu⟩ := h.queued e hmem
  have hreleased : (commCallWorkAction rx e.msg).released = true :=
    commCallWorkAction_released rx hname hcpu
  have hroom : (s.free .call).length < 20 := h.ledger.room (d := .call) hmem
  have hperm : s.work.Perm (e :: s.work.eraseIdx i) := by
    obtain ⟨hlt, rfl⟩ := List.getElem?_eq_some_iff.mp hi
    exact (getElem_cons_eraseIdx_perm hlt).symm
  simp only [runWork, hreleased, if_true, commReleaseFreeCall, hroom]
  exact ⟨h.ledger.release (d := .call) rfl rfl rfl rfl hperm rfl,
    fun x hx => h.queued x (mem_of_mem_eraseIdx hx), h.staged, h.listed, h.once⟩

lemma Ledger.congr (h : s.Ledger) (hfree : s'.free = s.free) (hheld : s'.held = s.held)
    (hcount : s'.consumed = s.consumed) (hrel : s'.released = s.released)
    (hflight : ∀ d, (s'.inFlight d).Perm (s.inFlight d)) : s'.Ledger := by
  refine ⟨?_, fun d => ?_⟩
  · rw [hrel, hcount]
    refine (List.Perm.append_left _ (List.Perm.map _ ?_)).trans h.ids
    exact (hflight .call).append (hflight .ret)
  · rw [hfree, hheld]
    exact (List.Perm.append_left _ ((hflight d).map _)).trans (h.slots d)

lemma Inv.drain (h : s.Inv) (q : ℕ) : (s.drain q).Inv := by
  have hmove {x : ℕ} (hx : x ∈ s.waiting) : x ∈ s.waiting.erase q ++ (s.drained ++ [q]) := by
    by_cases heq : x = q
    · simp [heq]
    · exact mem_append_left _ ((mem_erase_of_ne heq).mpr hx)
  refine ⟨h.ledger.congr rfl rfl rfl rfl fun d => ?_, h.queued, ?_, fun e he => ?_, ?_⟩
  · cases d
    · exact List.Perm.refl _
    · simp [inFlight, SlotFlow.drain]
  · simp [SlotFlow.drain]
  · rcases mem_append.mp he with he | he
    · rcases mem_append.mp (h.listed e he) with hw | hd
      · exact hmove hw
      · exact mem_append_right _ (mem_append_left _ hd)
    · exact hmove (h.staged e he)
  · simpa only [SlotFlow.drain, append_nil] using h.once

lemma Inv.failCall (h : s.Inv) {q : ℕ}
    (hq : ∀ e ∈ s.returnList ++ s.staging, e.msg.session ≠ q) :
    Inv { s with waiting := s.waiting.erase q } := by
  have hkeep {e : Consumed} (he : e ∈ s.returnList ++ s.staging) (hw : e.msg.session ∈ s.waiting) :
      e.msg.session ∈ s.waiting.erase q := (mem_erase_of_ne (hq e he)).mpr hw
  refine ⟨⟨h.ledger.ids, h.ledger.slots⟩, h.queued, fun e he => ?_, fun e he => ?_, h.once⟩
  · exact hkeep (mem_append_right _ he) (h.staged e he)
  · exact mem_append.mpr ((mem_append.mp (h.listed e he)).imp_left
      (hkeep (mem_append_left _ he)))

/-- The call that looks takes its own RETURN, so the others still have theirs. -/
lemma Inv.look (h : s.Inv) (q : ℕ) : (s.look q).Inv := by
  have hkeep {e : Consumed} (he : e ∈ s.returnList) (hne : e.msg.session ≠ q) :
      e.msg.session ∈ s.waiting ++ s.drained.erase q :=
    mem_append.mpr ((mem_append.mp (h.listed e he)).imp_right
      (mem_erase_of_ne hne).mpr)
  simp only [SlotFlow.look]
  split
  next e hfind =>
    obtain ⟨hq, before, after, hl, hbefore⟩ := List.find?_eq_some_iff_append.mp hfind
    have hsession : e.msg.session = q := by simpa using hq
    have herase : s.returnList.eraseP (fun e => e.msg.session = q) = before ++ after := by
      rw [hl, eraseP_append_right _ (by simpa using hbefore)]
      simp [hsession]
    have honce : (q :: ((before ++ after) ++ s.staging).map fun e => e.msg.session).Nodup := by
      have h := h.once
      rw [hl, append_assoc, cons_append, map_append, map_cons,
        nodup_middle, hsession] at h
      simpa using h
    obtain ⟨hnot, hnodup⟩ := nodup_cons.mp honce
    rw [herase]
    refine ⟨h.ledger.congr rfl rfl rfl rfl fun d => ?_, h.queued, h.staged, fun x hx => ?_,
      hnodup⟩
    · cases d
      · exact List.Perm.refl _
      · simp only [inFlight, hl, append_assoc, cons_append]
        refine List.Perm.append_left before ?_
        simpa only [append_assoc] using
          perm_append_singleton e (after ++ s.staging ++ s.found)
    · refine hkeep ?_ fun heq => hnot (mem_map.mpr ⟨x, mem_append_left _ hx, heq⟩)
      rw [hl]
      exact perm_middle.mem_iff.mpr (mem_cons_of_mem e hx)
  next hfind =>
    refine ⟨⟨h.ledger.ids, h.ledger.slots⟩, h.queued, h.staged, fun e he => hkeep he ?_, h.once⟩
    simpa using List.find?_eq_none.mp hfind e he

lemma Inv.leave {i : ℕ} (h : s.Inv) (hi : s.found[i]? = some e) : (s.leave i e).Inv := by
  have hroom : (s.free .ret).length < 20 :=
    h.ledger.room (d := .ret) (mem_append_right _ (mem_of_getElem? hi))
  have hperm : s.found.Perm (e :: s.found.eraseIdx i) := by
    obtain ⟨hlt, rfl⟩ := List.getElem?_eq_some_iff.mp hi
    exact (getElem_cons_eraseIdx_perm hlt).symm
  simp only [SlotFlow.leave, commReleaseFreeCall, hroom, if_true]
  refine ⟨h.ledger.release (d := .ret) rfl rfl rfl rfl ?_ rfl, h.queued, h.staged, h.listed, h.once⟩
  exact (hperm.append_left _).trans perm_middle

lemma Inv.step {ev : Event} (h : s.Inv) (hok : s.Ok ev) (hs : s.step ev = some s') : s'.Inv := by
  cases ev with
  | take d =>
    simp only [SlotFlow.step] at hs
    split at hs
    · cases hs
    next slot rest hd =>
      obtain rfl := Option.some.inj hs
      exact h.take hd
  | call slot msg alloc =>
    obtain ⟨hname, rfl⟩ := hok
    simp only [SlotFlow.step] at hs
    split at hs
    next hmem =>
      obtain rfl := Option.some.inj hs
      exact h.call hmem hname
    · cases hs
  | ret slot msg =>
    simp only [SlotFlow.step] at hs
    split at hs
    next hmem =>
      obtain rfl := Option.some.inj hs
      exact h.ret hmem hok.1 hok.2
    · cases hs
  | work i rx =>
    obtain ⟨e, hi, rfl⟩ := Option.map_eq_some_iff.mp hs
    exact h.work hi
  | beginCall q =>
    obtain rfl := Option.some.inj hs
    refine ⟨⟨h.ledger.ids, h.ledger.slots⟩, h.queued,
      fun e he => mem_append_left [q] (h.staged e he), fun e he => ?_, h.once⟩
    exact mem_append.mpr ((mem_append.mp (h.listed e he)).imp_left
      (mem_append_left [q]))
  | drain q =>
    simp only [SlotFlow.step] at hs
    split at hs
    · exact Option.some.inj hs ▸ h.drain q
    · cases hs
  | look q =>
    simp only [SlotFlow.step] at hs
    split at hs
    · exact Option.some.inj hs ▸ h.look q
    · cases hs
  | leave i =>
    obtain ⟨e, hi, rfl⟩ := Option.map_eq_some_iff.mp hs
    exact h.leave hi
  | failCall q =>
    simp only [SlotFlow.step] at hs
    split at hs
    · exact Option.some.inj hs ▸ h.failCall hok
    · cases hs

/-- In every run whose CALLs and RETURNs meet `Ok`, once the work items and calls are done, every
consumed entry has been given back exactly once. -/
theorem slots_returned {es : List Event} {t : SlotFlow} (hg : Guarded step Ok init es)
    (ht : run step init es = some t) (hquiet : t.Quiet) : t.AllReturned :=
  (hg.invariant (fun _ _ _ => Inv.step) Inv.init ht).allReturned hquiet

def bareReceiver : Receiver :=
  .lone (ByteTable.callbackDesc 1 0) ⟨fun _ => 0⟩ fun _ _ result => result

/-- Two calls, of which the first drains the RETURNs of both. -/
def callAndReturn : List Event :=
  [.take .call, .take .ret, .take .ret, .beginCall 7, .beginCall 8,
    .call 0 { CommMsg.zero with name := 5 } true, .ret 1 { CommMsg.zero with session := 8 },
    .ret 0 { CommMsg.zero with session := 7 }, .drain 7, .work 0 bareReceiver, .drain 8, .look 8,
    .look 7, .leave 1, .leave 0]

theorem slots_returned_both :
    ∃ t, run step init callAndReturn = some t ∧ t.consumed = 3 ∧ t.AllReturned := by
  have hg : Guarded step Ok init callAndReturn := by decide +kernel
  exact ⟨_, rfl, rfl, slots_returned hg rfl ⟨rfl, rfl, rfl, rfl⟩⟩

/-- The slots of a CALL with command word 4 and of a RETURN that comes after its call has drained
are never given back. -/
theorem slots_lost :
    (run step init [.take .call, .call 0 { CommMsg.zero with name := 4 } true, .beginCall 7,
        .drain 7, .take .ret, .ret 0 { CommMsg.zero with session := 7 }, .look 7]).map
      (fun t => (t.consumed, t.released, t.work.length, t.waiting, t.drained, t.found.length))
    = some (2, [], 0, [], [], 0) := by
  decide +kernel

end SlotFlow

end CpuComm
