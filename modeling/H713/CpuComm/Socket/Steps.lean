import H713.CpuComm.Socket.Basic

/-!
# The steps of a send or call

`act` is one step of thread number `i`, `env` one step of the environment, and `socket` puts any
number of threads on one socket together. `Acts` says once what `act` can do; the invariants of
the socket are proved by cases on it.
-/

namespace CpuComm

open Machine Option

variable (dir : Direction)

def act (s : Socket) (i : ℕ) (t : Thread) (e : Event) :
    Option (Socket × Thread) :=
  match t.pc, e with
  -- bad arguments, unknown routine, fault or reset before the semaphore is touched
  | .start, .bail r => if r ≠ 0 then some (s, { t with pc := .done, ret := r }) else none
  | .start, .go => some (s, { t with pc := .acquire })
  | .acquire, .go =>
    if 0 < s.sendSem then some ({ s with sendSem := s.sendSem - 1 }, { t with pc := .locked })
    else none
  -- a timeout after 100 ms is logged and ignored
  | .acquire, .timeout => if s.sendSem = 0 then some (s, { t with pc := .locked }) else none
  -- reset, application not ready, command FIFO full or no free call slot
  | .locked, .bail r => if r ≠ 0 then some (s, { t with pc := .up, ret := r }) else none
  | .locked, .go => some (s, { t with pc := .slotted })
  | .slotted, .fault =>
    if t.job.fromUser then some (s, { t with pc := .up, ret := -14 }) else none
  | .slotted, .go => some (s, { t with pc := .verify })
  -- the only exit from the section that skips `out_up_sem`
  | .verify, .mismatch => some (s, { t with pc := .done, ret := -22 })
  | .verify, .go =>
    match dir with
    | .call => some (s, { t with pc := .session })
    | .ret  => some (s, { t with pc := .copyBack, session := t.job.slotSession })
  | .session, .go =>
    let q := (s.callSession + 1) % 1073741824
    some ({ s with callSession := q },
      { t with session := q, pc := if t.job.fireAndForget then .copyBack else .peek })
  | .peek, .go =>
    match s.freeWait with
    | []     => some (s, t)
    | w :: _ => some (s, { t with wait := some w, pc := .take })
  | .take, .go =>
    t.wait.map fun w => (s.takeFreeWait w, { t with pc := .link, takenAt := s.epoch w + 1 })
  | .link, .go =>
    t.wait.map fun w => (s.addtoWaitComm w t.session, { t with pc := .copyBack })
  | .copyBack, .fault =>
    if t.job.fromUser then some (s, { t with pc := .up, ret := -14 }) else none
  | .copyBack, .go => some (s, { t with pc := .dispatch })
  | .dispatch, .go => some ({ s with unacked := s.unacked ++ [i] }, { t with pc := .ackWait })
  | .ackWait, .go =>
    match s.ackSem with
    | []      => none
    | k :: ks => some ({ s with ackSem := ks }, { t with pc := .up, ackToken := some k, ret := 0 })
  | .ackWait, .timeout =>
    if s.ackSem = [] then
      some (s, { t with pc := if t.wait.isSome then .unlink else .up, ret := -62 })
    else none
  | .unlink, .go =>
    t.wait.map fun w => (s.getWaitbySessionId (s.waitSession w), { t with pc := .release })
  | .release, .go =>
    t.wait.bind fun w => (s.releaseWaitComm w).map fun s' => (s', { t with pc := .up })
  | .up, .go =>
    some ({ s with sendSem := s.sendSem + 1 },
      { t with pc := if t.job.isCall && t.ret == 0 then .find else .done })
  | .find, .go =>
    let w := s.findWaitBySessionId t.session
    some (s, { t with found := w, pc := if w.isSome then .await else .drain })
  | .await, .go =>
    t.found.bind fun w =>
      match s.waitSem w with
      | []      => none
      | k :: ks =>
        some ({ s with waitSem := Function.update s.waitSem w ks },
          { t with pc := .drain, wakeToken := some k })
  | .await, .timeout =>
    t.found.bind fun w => if s.waitSem w = [] then some (s, { t with pc := .drain }) else none
  | .drain, .go => some (s.returnPipeLine, { t with pc := .lookup })
  | .lookup, .go =>
    some ({ s with returnList := s.returnList.eraseP (·.session == t.session) },
      { t with pc := .finish, entry := s.returnList.find? (·.session == t.session) })
  -- a missing entry, or one with an odd result count, still ends the call with 0
  | .finish, .go =>
    some (s, { t with
      pc := .unlinkEnd
      copied := t.entry.filter fun e => e.count ≠ 15 && e.count ≤ 10 })
  | .unlinkEnd, .go =>
    match s.findWaitBySessionId t.session with
    | none   => some (s, { t with pc := .done })
    | some w =>
      some (s.getWaitbySessionId t.session, { t with pc := .releaseEnd, found := some w })
  | .releaseEnd, .go =>
    t.found.bind fun w => (s.releaseWaitComm w).map fun s' => (s', { t with pc := .done })
  | _, _ => none

/-- What happens around the threads. -/
inductive Env where
  /-- sends to the other socket move the common session counter -/
  | otherSession (q : ℕ)
  /-- the other CPU deposits its ACK of message `i` -/
  | mipsAck (i : ℕ)
  | ackAction
  /-- `command_action` queues a RETURN -/
  | recvReturn (e : ReturnEntry)
  /-- `command_action` checks the session of the wait object it looks up, or of the embedded one -/
  | matchReturn (q : ℕ) (embedded : Option ℕ)
  /-- the handler at position `k` of `matched` wakes its object -/
  | signal (k : ℕ)
deriving DecidableEq, Repr

def env (s : Socket) : Env → Option Socket
  | .otherSession q => some { s with callSession := q % 1073741824 }
  | .mipsAck i =>
    if i ∈ s.unacked ∧ s.ackPending = none then
      some { s with unacked := s.unacked.erase i, ackPending := some i }
    else none
  | .ackAction =>
    match s.ackPending with
    | none   => some s
    | some i => some { s with ackPending := none, ackSem := s.ackSem ++ [i] }
  | .recvReturn e => some (s.addReturn2Fifo e)
  | .matchReturn q none =>
    match s.findWaitBySessionId q with
    | none   => some s
    | some w => some { s with matched := s.matched ++ [(w, q)] }
  | .matchReturn q (some w) =>
    if w < maxWaitEntries ∧ s.waitSession w = q then
      some { s with matched := s.matched ++ [(w, q)] }
    else some s
  | .signal k =>
    (s.matched[k]?).map fun m => Socket.wake { s with matched := s.matched.eraseIdx k } m.1 m.2

def starts (t : Thread) : Bool :=
  decide (t = t.job.start) &&
    (!t.job.isCall || (decide (dir = .call) && decide (t.job = cpuCommCallEx)))

def socket : System Socket Thread Event Env where
  act := act dir
  env := env
  start := starts dir

def socketInit : Pool Socket Thread := ⟨initCommSeqMem, []⟩

lemma starts_spec {dir : Direction} {t : Thread} (h : starts dir t = true) :
    t = t.job.start ∧ (t.job.isCall = true → dir = .call ∧ t.job = cpuCommCallEx) := by
  simp only [starts, Bool.and_eq_true, decide_eq_true_eq, Bool.or_eq_true,
    Bool.not_eq_true'] at h
  refine ⟨h.1, fun hc => ?_⟩
  rcases h.2 with hn | hd
  · rw [hc] at hn
    cases hn
  · exact hd

/-- All that a step of a thread can be. -/
inductive Acts (dir : Direction) (s : Socket) (i : ℕ) (t : Thread) : Event → Socket → Thread → Prop
  | reject {r : ℤ} (hpc : t.pc = .start) (hr : r ≠ 0) :
      Acts dir s i t (.bail r) s { t with pc := .done, ret := r }
  | resolve (hpc : t.pc = .start) : Acts dir s i t .go s { t with pc := .acquire }
  | acquire (hpc : t.pc = .acquire) (hsem : 0 < s.sendSem) :
      Acts dir s i t .go { s with sendSem := s.sendSem - 1 } { t with pc := .locked }
  | bypass (hpc : t.pc = .acquire) (hsem : s.sendSem = 0) :
      Acts dir s i t .timeout s { t with pc := .locked }
  | bail {r : ℤ} (hpc : t.pc = .locked) (hr : r ≠ 0) :
      Acts dir s i t (.bail r) s { t with pc := .up, ret := r }
  | slot (hpc : t.pc = .locked) : Acts dir s i t .go s { t with pc := .slotted }
  | copyFault (hpc : t.pc = .slotted) (hu : t.job.fromUser = true) :
      Acts dir s i t .fault s { t with pc := .up, ret := -14 }
  | copyIn (hpc : t.pc = .slotted) : Acts dir s i t .go s { t with pc := .verify }
  | mismatch (hpc : t.pc = .verify) :
      Acts dir s i t .mismatch s { t with pc := .done, ret := -22 }
  | forward (hpc : t.pc = .verify) (hd : dir = .call) :
      Acts dir s i t .go s { t with pc := .session }
  | backward (hpc : t.pc = .verify) (hd : dir = .ret) :
      Acts dir s i t .go s { t with pc := .copyBack, session := t.job.slotSession }
  | forget {q : ℕ} (hpc : t.pc = .session) (hq : q = (s.callSession + 1) % 1073741824)
      (hj : t.job.fireAndForget = true) :
      Acts dir s i t .go { s with callSession := q } { t with session := q, pc := .copyBack }
  | session {q : ℕ} (hpc : t.pc = .session) (hq : q = (s.callSession + 1) % 1073741824)
      (hj : t.job.fireAndForget = false) :
      Acts dir s i t .go { s with callSession := q } { t with session := q, pc := .peek }
  | spin (hpc : t.pc = .peek) (hf : s.freeWait = []) : Acts dir s i t .go s t
  | peek {w : ℕ} (hpc : t.pc = .peek) (hf : s.freeWait.head? = some w) :
      Acts dir s i t .go s { t with wait := some w, pc := .take }
  | take {w : ℕ} (hpc : t.pc = .take) (hw : t.wait = some w) :
      Acts dir s i t .go (s.takeFreeWait w) { t with pc := .link, takenAt := s.epoch w + 1 }
  | link {w : ℕ} (hpc : t.pc = .link) (hw : t.wait = some w) :
      Acts dir s i t .go (s.addtoWaitComm w t.session) { t with pc := .copyBack }
  | backFault (hpc : t.pc = .copyBack) (hu : t.job.fromUser = true) :
      Acts dir s i t .fault s { t with pc := .up, ret := -14 }
  | copyBack (hpc : t.pc = .copyBack) : Acts dir s i t .go s { t with pc := .dispatch }
  | dispatch (hpc : t.pc = .dispatch) :
      Acts dir s i t .go { s with unacked := s.unacked ++ [i] } { t with pc := .ackWait }
  | acked {k : ℕ} {ks : List ℕ} (hpc : t.pc = .ackWait) (hk : s.ackSem = k :: ks) :
      Acts dir s i t .go { s with ackSem := ks }
        { t with pc := .up, ackToken := some k, ret := 0 }
  | ackTimeout (hpc : t.pc = .ackWait) (hk : s.ackSem = []) (hw : t.wait = none) :
      Acts dir s i t .timeout s { t with pc := .up, ret := -62 }
  | ackTimeoutHeld {w : ℕ} (hpc : t.pc = .ackWait) (hk : s.ackSem = []) (hw : t.wait = some w) :
      Acts dir s i t .timeout s { t with pc := .unlink, ret := -62 }
  | unlink {w : ℕ} (hpc : t.pc = .unlink) (hw : t.wait = some w) :
      Acts dir s i t .go (s.getWaitbySessionId (s.waitSession w)) { t with pc := .release }
  | release {w : ℕ} {s' : Socket} (hpc : t.pc = .release) (hw : t.wait = some w)
      (hs : s.releaseWaitComm w = some s') : Acts dir s i t .go s' { t with pc := .up }
  | up (hpc : t.pc = .up) (hc : ¬(t.job.isCall = true ∧ t.ret = 0)) :
      Acts dir s i t .go { s with sendSem := s.sendSem + 1 } { t with pc := .done }
  | upCall (hpc : t.pc = .up) (hc : t.job.isCall = true) (hr : t.ret = 0) :
      Acts dir s i t .go { s with sendSem := s.sendSem + 1 } { t with pc := .find }
  | findNone (hpc : t.pc = .find) (hf : s.findWaitBySessionId t.session = none) :
      Acts dir s i t .go s { t with found := none, pc := .drain }
  | find {w : ℕ} (hpc : t.pc = .find) (hf : s.findWaitBySessionId t.session = some w) :
      Acts dir s i t .go s { t with found := some w, pc := .await }
  | woken {w : ℕ} {k : WakeToken} {ks : List WakeToken} (hpc : t.pc = .await)
      (hf : t.found = some w) (hk : s.waitSem w = k :: ks) :
      Acts dir s i t .go { s with waitSem := Function.update s.waitSem w ks }
        { t with pc := .drain, wakeToken := some k }
  | wakeTimeout {w : ℕ} (hpc : t.pc = .await) (hf : t.found = some w) (hk : s.waitSem w = []) :
      Acts dir s i t .timeout s { t with pc := .drain }
  | drain (hpc : t.pc = .drain) : Acts dir s i t .go s.returnPipeLine { t with pc := .lookup }
  | lookup (hpc : t.pc = .lookup) :
      Acts dir s i t .go
        { s with returnList := s.returnList.eraseP (·.session == t.session) }
        { t with pc := .finish, entry := s.returnList.find? (·.session == t.session) }
  | finish (hpc : t.pc = .finish) :
      Acts dir s i t .go s
        { t with
          pc := .unlinkEnd
          copied := t.entry.filter fun e => e.count ≠ 15 && e.count ≤ 10 }
  | notLinked (hpc : t.pc = .unlinkEnd) (hf : s.findWaitBySessionId t.session = none) :
      Acts dir s i t .go s { t with pc := .done }
  | unlinkEnd {w : ℕ} (hpc : t.pc = .unlinkEnd)
      (hf : s.findWaitBySessionId t.session = some w) :
      Acts dir s i t .go (s.getWaitbySessionId t.session)
        { t with pc := .releaseEnd, found := some w }
  | releaseEnd {w : ℕ} {s' : Socket} (hpc : t.pc = .releaseEnd) (hf : t.found = some w)
      (hs : s.releaseWaitComm w = some s') : Acts dir s i t .go s' { t with pc := .done }

/-- `act` does nothing but what `Acts` lists. -/
theorem acts_of_act {dir : Direction} {s s' : Socket} {i : ℕ} {t t' : Thread} {e : Event}
    (h : act dir s i t e = some (s', t')) : Acts dir s i t e s' t' := by
  unfold act at h
  -- one case for each line of `act`, in order
  split at h <;> rename_i hpc
  · split_ifs at h with hr
    cases h
    exact .reject hpc hr
  · cases h
    exact .resolve hpc
  · split_ifs at h with hsem
    cases h
    exact .acquire hpc hsem
  · split_ifs at h with hsem
    cases h
    exact .bypass hpc hsem
  · split_ifs at h with hr
    cases h
    exact .bail hpc hr
  · cases h
    exact .slot hpc
  · split_ifs at h with hu
    cases h
    exact .copyFault hpc hu
  · cases h
    exact .copyIn hpc
  · cases h
    exact .mismatch hpc
  · split at h <;> cases h
    · exact .forward hpc rfl
    · exact .backward hpc rfl
  · cases h
    cases hj : t.job.fireAndForget
    · exact .session hpc rfl hj
    · exact .forget hpc rfl hj
  · split at h <;> cases h
    · exact .spin hpc ‹_›
    · exact .peek hpc (by simp [*])
  · obtain ⟨w, hw, ⟨⟩⟩ := map_eq_some_iff.mp h
    exact .take hpc hw
  · obtain ⟨w, hw, ⟨⟩⟩ := map_eq_some_iff.mp h
    exact .link hpc hw
  · split_ifs at h with hu
    cases h
    exact .backFault hpc hu
  · cases h
    exact .copyBack hpc
  · cases h
    exact .dispatch hpc
  · split at h <;> cases h
    exact .acked hpc ‹_›
  · split at h <;> cases h
    by_cases hw : t.wait.isSome = true
    · obtain ⟨w, hw'⟩ := isSome_iff_exists.mp hw
      rw [if_pos hw]
      exact .ackTimeoutHeld hpc ‹_› hw'
    · rw [if_neg hw]
      exact .ackTimeout hpc ‹_› (by simpa using hw)
  · obtain ⟨w, hw, ⟨⟩⟩ := map_eq_some_iff.mp h
    exact .unlink hpc hw
  · obtain ⟨w, hw, hr⟩ := bind_eq_some_iff.mp h
    obtain ⟨s₁, hs, ⟨⟩⟩ := map_eq_some_iff.mp hr
    exact .release hpc hw hs
  · cases h
    cases hc : (t.job.isCall && t.ret == 0)
    · exact .up hpc (by simpa using hc)
    · rw [Bool.and_eq_true, beq_iff_eq] at hc
      exact .upCall hpc hc.1 hc.2
  · cases h
    cases hf : s.findWaitBySessionId t.session
    · exact .findNone hpc hf
    · exact .find hpc hf
  · obtain ⟨w, hf, hr⟩ := bind_eq_some_iff.mp h
    split at hr <;> cases hr
    exact .woken hpc hf ‹_›
  · obtain ⟨w, hf, hr⟩ := bind_eq_some_iff.mp h
    split_ifs at hr with hk
    cases hr
    exact .wakeTimeout hpc hf hk
  · cases h
    exact .drain hpc
  · cases h
    exact .lookup hpc
  · cases h
    exact .finish hpc
  · split at h <;> cases h
    · exact .notLinked hpc ‹_›
    · exact .unlinkEnd hpc ‹_›
  · obtain ⟨w, hf, hr⟩ := bind_eq_some_iff.mp h
    obtain ⟨s₁, hs, ⟨⟩⟩ := map_eq_some_iff.mp hr
    exact .releaseEnd hpc hf hs
  · cases h

/-- All that a step of the environment can be. -/
inductive Envs (s : Socket) : Env → Socket → Prop
  | otherSession (q : ℕ) : Envs s (.otherSession q) { s with callSession := q % 1073741824 }
  | mipsAck {i : ℕ} (hi : i ∈ s.unacked) (hp : s.ackPending = none) :
      Envs s (.mipsAck i) { s with unacked := s.unacked.erase i, ackPending := some i }
  | ack {i : ℕ} (hp : s.ackPending = some i) :
      Envs s .ackAction { s with ackPending := none, ackSem := s.ackSem ++ [i] }
  | recvReturn (e : ReturnEntry) : Envs s (.recvReturn e) (s.addReturn2Fifo e)
  | matched {q w : ℕ} {m : Option ℕ} (hw : s.waitSession w = q) :
      Envs s (.matchReturn q m) { s with matched := s.matched ++ [(w, q)] }
  | ignored {x : Env} : Envs s x s
  | signal {k w q : ℕ} (hk : s.matched[k]? = some (w, q)) :
      Envs s (.signal k) (Socket.wake { s with matched := s.matched.eraseIdx k } w q)

/-- `env` does nothing but what `Envs` lists. -/
theorem envs_of_env {s s' : Socket} {x : Env} (h : env s x = some s') : Envs s x s' := by
  unfold env at h
  split at h
  · cases h
    exact .otherSession _
  · split_ifs at h with hi
    cases h
    exact .mipsAck hi.1 hi.2
  · split at h <;> cases h
    · exact .ignored
    · exact .ack ‹_›
  · cases h
    exact .recvReturn _
  · split at h <;> cases h
    · exact .ignored
    · exact .matched (Socket.findWaitBySessionId_spec ‹_›).2
  · split_ifs at h with hw <;> cases h
    · exact .matched hw.2
    · exact .ignored
  · obtain ⟨⟨w, q⟩, hk, rfl⟩ := map_eq_some_iff.mp h
    exact .signal hk

end CpuComm
