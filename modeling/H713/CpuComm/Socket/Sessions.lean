import H713.CpuComm.Socket.Steps
import H713.Machine.Section
import H713.Machine.Tickets

/-!
# The sessions of all sends

Sends to both CPUs share a session counter. A send reads it, stores the next number and reads it
again, with nothing to keep the others out. The number of sessions issued so far is not in the code.
-/

namespace CpuComm

open Machine Function List Option

abbrev Place : Type := Fin 2 × Direction

/-- Where a send is between its three accesses to the session counter. -/
inductive Access where
  | idle
  | read (v : ℕ)
  | stored
deriving DecidableEq, Repr

structure Sender where
  place : Place
  thread : Thread
  access : Access
  stamp : ℕ
deriving DecidableEq

structure Sockets where
  /-- `s_CallSessionId` -/
  callSessionId : ℕ
  sock : Place → Socket
  /-- sessions issued so far -/
  issued : ℕ
  /-- the number of the session of each wait object -/
  waitStamp : Place → ℕ → ℕ

namespace Sockets

def actSession (b : Sockets) (u : Sender) : Sockets × Sender :=
  match u.access with
  | .idle => (b, { u with access := .read b.callSessionId })
  | .read v =>
    ({ b with callSessionId := (v + 1) % 1073741824, issued := b.issued + 1 },
      { u with access := .stored, stamp := b.issued + 1 })
  -- `getCurCPUID(0)` is `0`
  | .stored =>
    (b, { u with
      access := .idle
      thread := { u.thread with
        session := b.callSessionId
        pc := if u.thread.job.fireAndForget then .copyBack else .peek } })

def stampWait (b : Sockets) (u : Sender) : Place → ℕ → ℕ :=
  if u.thread.pc = .link then
    u.thread.wait.elim b.waitStamp fun w =>
      Function.update b.waitStamp u.place (Function.update (b.waitStamp u.place) w u.stamp)
  else b.waitStamp

def act (b : Sockets) (i : ℕ) (u : Sender) (e : Event) : Option (Sockets × Sender) :=
  if u.thread.pc = .session then if e = .go then some (b.actSession u) else none
  else (CpuComm.act u.place.2 (b.sock u.place) i u.thread e).map fun r =>
    ({ b with sock := Function.update b.sock u.place r.1, waitStamp := b.stampWait u },
      { u with thread := r.2 })

def env (b : Sockets) : Place × Env → Option Sockets
  | (_, .otherSession _) => none
  | (a, x) => (CpuComm.env (b.sock a) x).map fun s =>
    { b with sock := Function.update b.sock a s }

def system : System Sockets Sender Event (Place × Env) where
  act := act
  env := env
  start u := starts u.place.2 u.thread && decide (u.access = .idle) && decide (u.stamp = 0)

def init : Pool Sockets Sender := ⟨⟨0, fun _ => initCommSeqMem, 0, fun _ _ => 0⟩, []⟩

end Sockets

/-! ### The conditions -/

namespace Sender

variable (u : Sender)

def Holds : Prop :=
  u.access = .stored ∨ u.thread.pc = .peek ∨ u.thread.pc = .take ∨ u.thread.pc = .link

instance : Decidable u.Holds := inferInstanceAs (Decidable (_ ∨ _))

def held : Option ℕ := if u.Holds then some u.stamp else none

def Inside : Prop := u.access ≠ .idle

end Sender

namespace Sockets

/-- Who has a session: a send, or a wait object in SendCmdWaitList of a CPU. -/
inductive Carrier where
  | sender (i : ℕ)
  | object (cpu : Fin 2) (w : ℕ)
deriving DecidableEq

variable (p : Pool Sockets Sender)

def heldAt : Carrier → Option ℕ
  | .sender i => p.threads[i]?.bind Sender.held
  | .object cpu w =>
    if w ∈ (p.shared.sock (cpu, .call)).waitList then some (p.shared.waitStamp (cpu, .call) w)
    else none

def Unshared : Label Sender Event (Place × Env) → Prop
  | .act i _ => ∀ u ∈ p.threads[i]?, u.thread.pc = .session → u.access = .idle →
      ∀ v ∈ p.threads.eraseIdx i, v.access = .idle
  | _ => True

instance (l : Label Sender Event (Place × Env)) :
    Decidable (Unshared p l) :=
  match l with
  | .act i _ => inferInstanceAs (Decidable (∀ u ∈ p.threads[i]?, _ → _ → ∀ v ∈ _, _))
  | .env _   => .isTrue trivial
  | .spawn _ => .isTrue trivial

def InTime : Label Sender Event (Place × Env) → Prop
  | .act i _ => ∀ u ∈ p.threads[i]?, u.thread.pc = .session → u.access ≠ .idle →
      (∀ v ∈ p.threads.eraseIdx i, v.Holds → p.shared.issued + 1 < v.stamp + 1073741824) ∧
      ∀ cpu, ∀ w ∈ (p.shared.sock (cpu, .call)).waitList,
        p.shared.issued + 1 < p.shared.waitStamp (cpu, .call) w + 1073741824
  | _ => True

instance (l : Label Sender Event (Place × Env)) :
    Decidable (InTime p l) :=
  match l with
  | .act i _ => inferInstanceAs (Decidable (∀ u ∈ p.threads[i]?, _ → _ →
      (∀ v ∈ p.threads.eraseIdx i, _) ∧ ∀ _ : Fin 2, ∀ w ∈ _, _))
  | .env _   => .isTrue trivial
  | .spawn _ => .isTrue trivial

def Distinct (b : Sockets) (cpu : Fin 2) : Prop :=
  ∀ w ∈ (b.sock (cpu, .call)).waitList, ∀ w' ∈ (b.sock (cpu, .call)).waitList, w ≠ w' →
    (b.sock (cpu, .call)).waitSession w ≠ (b.sock (cpu, .call)).waitSession w'

/-! ### Steps -/

variable {b b' : Sockets} {i : ℕ} {u u' : Sender} {e : Event}

/-- All that a step of a send can be. -/
inductive SendActs (b : Sockets) (i : ℕ) (u : Sender) (e : Event) : Sockets → Sender → Prop
  | read (hpc : u.thread.pc = .session) (ha : u.access = .idle) :
      SendActs b i u e b { u with access := .read b.callSessionId }
  | store {v : ℕ} (hpc : u.thread.pc = .session) (ha : u.access = .read v) :
      SendActs b i u e
        { b with callSessionId := (v + 1) % 1073741824, issued := b.issued + 1 }
        { u with access := .stored, stamp := b.issued + 1 }
  | reread {pc : Pc} (hpc : u.thread.pc = .session) (ha : u.access = .stored)
      (hpc' : pc = .copyBack ∨ pc = .peek) :
      SendActs b i u e b { u with
        access := .idle
        thread := { u.thread with session := b.callSessionId, pc := pc } }
  | other {s' : Socket} {t' : Thread} (hpc : u.thread.pc ≠ .session)
      (h : Acts u.place.2 (b.sock u.place) i u.thread e s' t') :
      SendActs b i u e
        { b with sock := Function.update b.sock u.place s', waitStamp := b.stampWait u }
        { u with thread := t' }

lemma sendActs_of_act (h : b.act i u e = some (b', u')) : SendActs b i u e b' u' := by
  rw [act] at h
  split_ifs at h with hpc he
  · have hact := Option.some.inj h
    rw [actSession] at hact
    cases ha : u.access with
    | idle =>
      rw [ha] at hact
      cases hact
      exact .read hpc ha
    | read v =>
      rw [ha] at hact
      cases hact
      exact .store hpc ha
    | stored =>
      rw [ha] at hact
      cases hact
      refine .reread hpc ha ?_
      split_ifs
      · exact .inl rfl
      · exact .inr rfl
  · obtain ⟨⟨s', t'⟩, hs, hr⟩ := map_eq_some_iff.mp h
    cases hr
    exact .other hpc (acts_of_act hs)

end Sockets

/-- What a step on a socket does to its wait objects. -/
inductive Waits (s s' : Socket) (t t' : Thread) : Prop
  | link {w : ℕ} (hpc : t.pc = .link) (hw : t.wait = some w) (hpc' : t'.pc = .copyBack)
      (hlist : s'.waitList = s.waitList ++ [w])
      (hsession : s'.waitSession = Function.update s.waitSession w t.session)
  | other (hpc : t.pc ≠ .link) (hlist : s'.waitList ⊆ s.waitList)
      (hsession : s'.waitSession = s.waitSession)
      (hholds : t'.pc = .peek ∨ t'.pc = .take ∨ t'.pc = .link →
        (t.pc = .peek ∨ t.pc = .take) ∧ t'.session = t.session)

lemma Socket.waitList_getWaitbySessionId (s : Socket) (q : ℕ) :
    (s.getWaitbySessionId q).waitList ⊆ s.waitList := by
  rw [Socket.getWaitbySessionId]
  cases s.findWaitBySessionId q with
  | none => exact List.Subset.refl _
  | some w => exact erase_subset

lemma Acts.waits {dir : Direction} {s s' : Socket} {i : ℕ} {t t' : Thread} {e : Event}
    (h : Acts dir s i t e s' t') (hpc : t.pc ≠ .session) : Waits s s' t t' := by
  cases h with
  | link hl hw => exact .link hl hw rfl rfl rfl
  | session hs | forget hs => exact absurd hs hpc
  | spin hp => exact .other (by simp [hp]) (List.Subset.refl _) rfl fun _ => ⟨.inl hp, rfl⟩
  | peek hp => exact .other (by simp [hp]) (List.Subset.refl _) rfl fun _ => ⟨.inl hp, rfl⟩
  | take hp => exact .other (by simp [hp]) (List.Subset.refl _) rfl fun _ => ⟨.inr hp, rfl⟩
  | unlink hp | unlinkEnd hp =>
    exact .other (by simp [hp]) (Socket.waitList_getWaitbySessionId _ _) rfl (by simp)
  | release hp _ hs | releaseEnd hp _ hs =>
    rw [Socket.releaseWaitComm_frame hs]
    exact .other (by simp [hp]) (List.Subset.refl _) rfl (by simp)
  | _ => exact .other (by simp [*]) (List.Subset.refl _) rfl (by simp)

lemma Envs.waits {s s' : Socket} {x : Env} (h : Envs s x s') :
    s'.waitList = s.waitList ∧ s'.waitSession = s.waitSession := by
  cases h with
  | recvReturn r =>
    rw [Socket.addReturn2Fifo]
    split_ifs <;> exact ⟨rfl, rfl⟩
  | _ => exact ⟨rfl, rfl⟩

/-! ### The invariant -/

/-- What a send knows about its session. -/
structure Sender.Ok (u : Sender) : Prop where
  inside : u.access ≠ .idle → u.thread.pc = .session
  session : u.thread.pc = .peek ∨ u.thread.pc = .take ∨ u.thread.pc = .link →
    u.thread.session = u.stamp % 1073741824

namespace Sockets

variable {b b' : Sockets} {i : ℕ} {u u' : Sender} {e : Event} {p p' : Pool Sockets Sender}
  {l : Label Sender Event (Place × Env)}

def Counts (b : Sockets) : Prop := b.callSessionId = b.issued % 1073741824

/-- The counter while a send is between its accesses. -/
structure Busy (b : Sockets) (u : Sender) : Prop where
  counts : b.Counts
  read : ∀ v, u.access = .read v → v = b.callSessionId
  stored : u.access = .stored → u.stamp = b.issued

structure Inv (p : Pool Sockets Sender) : Prop where
  owned : System.Owned Sender.Inside Counts Busy p
  senders : ∀ u ∈ p.threads, u.Ok
  tickets : Tickets (heldAt p) p.shared.issued 1073741824
  words : ∀ cpu, ∀ w ∈ (p.shared.sock (cpu, .call)).waitList,
    (p.shared.sock (cpu, .call)).waitSession w = p.shared.waitStamp (cpu, .call) w % 1073741824

lemma alone_of_unshared (h : Unshared p (.act i e)) (hu : p.threads[i]? = some u)
    (hpc : u.thread.pc = .session) (ha : u.access = .idle) :
    System.Alone Sender.Inside p i :=
  fun v hv hin => hin (h u hu hpc ha v hv)

lemma env_eq {x : Place × Env} (h : b.env x = some b') :
    ∃ s', Envs (b.sock x.1) x.2 s' ∧ b' = { b with sock := update b.sock x.1 s' } := by
  obtain ⟨a, x⟩ := x
  cases x with
  | otherSession q => cases h
  | _ =>
    simp only [env] at h
    obtain ⟨s', hs', rfl⟩ := map_eq_some_iff.mp h
    exact ⟨s', envs_of_env hs', rfl⟩

lemma start_spec (h : system.start u = true) :
    u.thread.pc = .start ∧ u.access = .idle := by
  simp only [system, Bool.and_eq_true, decide_eq_true_eq] at h
  refine ⟨?_, h.1.2⟩
  rw [(starts_spec h.1.1).1]
  rfl

lemma owned_step (hp : System.Owned Sender.Inside Counts Busy p) (hl : Unshared p l)
    (h : system.step p l = some p') : System.Owned Sender.Inside Counts Busy p' := by
  refine System.owned_step ?_ ?_ ?_ ?_ ?_ h hp
  · -- outside the accesses the counter stays
    intro i u e b' u' _ _ hact hout hout'
    cases sendActs_of_act hact with
    | read hpc ha => exact absurd Access.noConfusion hout'
    | store hpc ha => exact absurd (fun h => Access.noConfusion (ha.symm.trans h)) hout
    | reread hpc ha => exact absurd (fun h => Access.noConfusion (ha.symm.trans h)) hout
    | other hpc h => exact ⟨id, fun v hv => ⟨hv.counts, hv.read, hv.stored⟩⟩
  · intro i u e b' u' hl' hu hact hout hin
    cases sendActs_of_act hact with
    | read hpc ha =>
      subst hl'
      exact ⟨alone_of_unshared hl hu hpc ha, fun hcounts =>
        ⟨hcounts, fun v hv => (Access.read.inj hv).symm, fun hv => Access.noConfusion hv⟩⟩
    | store hpc ha => exact absurd (fun h => Access.noConfusion (ha.symm.trans h)) hout
    | reread hpc ha => exact absurd rfl hin
    | other hpc h => exact absurd hin hout
  · intro i u e b' u' _ _ hact hin hbusy
    cases sendActs_of_act hact with
    | read hpc ha => exact absurd ha hin
    | store hpc ha =>
      have hv := hbusy.read _ ha
      have hb := hbusy.counts
      rw [Counts, ← hv] at hb
      refine ⟨fun _ => ⟨?_, fun v hv' => Access.noConfusion hv', fun _ => rfl⟩,
        fun hout => absurd Access.noConfusion hout⟩
      simp only [Counts, hb]
      omega
    | reread hpc ha => exact ⟨fun hin' => absurd rfl hin', fun _ => hbusy.counts⟩
    | other hpc h =>
      exact ⟨fun _ => ⟨hbusy.counts, hbusy.read, hbusy.stored⟩, fun hout => absurd hin hout⟩
  · intro x b' _ hx
    obtain ⟨s', hs', rfl⟩ := env_eq hx
    exact ⟨id, fun v hv => ⟨hv.counts, hv.read, hv.stored⟩⟩
  · intro u hu hin
    exact hin (start_spec hu).2

/-! ### The numbers of the sessions -/

lemma heldAt_sender_set {s' : Sockets} {j n : ℕ}
    (h : heldAt ⟨s', p.threads.set i u'⟩ (.sender j) = some n) :
    (j = i ∧ u'.held = some n) ∨ (j ≠ i ∧ heldAt p (.sender j) = some n) := by
  obtain ⟨v, hv, hn⟩ := bind_eq_some_iff.mp h
  rcases System.getElem?_set_cases hv with ⟨rfl, rfl⟩ | ⟨hne, hv'⟩
  · exact .inl ⟨rfl, hn⟩
  · exact .inr ⟨hne, bind_eq_some_iff.mpr ⟨v, hv', hn⟩⟩

lemma heldAt_sender (hu : p.threads[i]? = some u) (hh : u.Holds) :
    heldAt p (.sender i) = some u.stamp := by
  rw [heldAt, hu, bind_some, Sender.held, if_pos hh]

lemma eq_stamp_of_held {n : ℕ} (h : u.held = some n) : u.Holds ∧ n = u.stamp := by
  rw [Sender.held] at h
  split_ifs at h with hh
  exact ⟨hh, (Option.some.inj h).symm⟩

lemma Inv.tickets_keep (hp : Inv p) (hu : p.threads[i]? = some u)
    (hissued : b'.issued = p.shared.issued) (hheld : u'.Holds → u.Holds ∧ u'.stamp = u.stamp)
    (hlist : ∀ cpu, (b'.sock (cpu, .call)).waitList ⊆ (p.shared.sock (cpu, .call)).waitList)
    (hstamp : ∀ cpu, b'.waitStamp (cpu, .call) = p.shared.waitStamp (cpu, .call)) :
    Tickets (heldAt ⟨b', p.threads.set i u'⟩) b'.issued 1073741824 := by
  rw [hissued]
  refine hp.tickets.sub fun c n hc => ?_
  cases c with
  | sender j =>
    rcases heldAt_sender_set hc with ⟨rfl, hn⟩ | ⟨-, hn⟩
    · obtain ⟨hh, rfl⟩ := eq_stamp_of_held hn
      rw [(hheld hh).2]
      exact heldAt_sender hu (hheld hh).1
    · exact hn
  | object cpu w =>
    simp only [heldAt] at hc ⊢
    split_ifs at hc with hw
    rw [if_pos (hlist cpu hw), ← hstamp cpu]
    exact hc

lemma Inv.tickets_store (hp : Inv p) (hu : p.threads[i]? = some u)
    (hpc : u.thread.pc = .session) (ha : u.access ≠ .idle) (hl : InTime p (.act i e)) {q : ℕ} :
    Tickets (heldAt ⟨{ p.shared with callSessionId := q, issued := p.shared.issued + 1 },
      p.threads.set i { u with access := .stored, stamp := p.shared.issued + 1 }⟩)
      (p.shared.issued + 1) 1073741824 := by
  obtain ⟨hsenders, hobjects⟩ := hl u hu hpc ha
  refine hp.tickets.issue (by decide) (.sender i) (fun c n hne hc => ?_) (fun c n hne hc => ?_)
    fun n hn => ?_
  · cases c with
    | sender j =>
      obtain ⟨v, hv, hn⟩ := bind_eq_some_iff.mp hc
      rcases System.getElem?_set_cases hv with ⟨rfl, -⟩ | ⟨hji, hv'⟩
      · exact absurd rfl hne
      · obtain ⟨hh, rfl⟩ := eq_stamp_of_held hn
        exact hsenders v (mem_eraseIdx_iff_getElem?.mpr ⟨j, hji, hv'⟩) hh
    | object cpu w =>
      simp only [heldAt] at hc
      split_ifs at hc with hw
      obtain rfl := Option.some.inj hc
      exact hobjects cpu w hw
  · cases c with
    | sender j =>
      rcases heldAt_sender_set hc with ⟨rfl, -⟩ | ⟨-, hn⟩
      · exact absurd rfl hne
      · exact hn
    | object cpu w => exact hc
  · rcases heldAt_sender_set hn with ⟨-, hn⟩ | ⟨hne, -⟩
    · exact (eq_stamp_of_held hn).2
    · exact absurd rfl hne

lemma Inv.tickets_link (hp : Inv p) (w : ℕ) (cpu : Fin 2)
    (hu : p.threads[i]? = some u) (hh : u.Holds) (hh' : ¬ u'.Holds)
    (hissued : b'.issued = p.shared.issued)
    (hlist : ∀ c, (b'.sock (c, .call)).waitList = if c = cpu
      then (p.shared.sock (c, .call)).waitList ++ [w] else (p.shared.sock (c, .call)).waitList)
    (hstamp : ∀ c v, b'.waitStamp (c, .call) v =
      if c = cpu ∧ v = w then u.stamp else p.shared.waitStamp (c, .call) v) :
    Tickets (heldAt ⟨b', p.threads.set i u'⟩) b'.issued 1073741824 := by
  rw [hissued]
  have hsender : ∀ j n, heldAt ⟨b', p.threads.set i u'⟩ (.sender j) = some n →
      j ≠ i ∧ heldAt p (.sender j) = some n := by
    intro j n hc
    rcases heldAt_sender_set hc with ⟨-, hn⟩ | hother
    · exact absurd (eq_stamp_of_held hn).1 hh'
    · exact hother
  refine hp.tickets.comap (fun c => if c = .object cpu w then .sender i else c)
    (fun c n hc => ?_) fun c c' n hc hc' hcc => ?_
  · cases c with
    | sender j =>
      rw [if_neg Carrier.noConfusion]
      exact (hsender j n hc).2
    | object c v =>
      simp only [heldAt] at hc
      split_ifs at hc with hv
      obtain rfl := Option.some.inj hc
      by_cases hcv : c = cpu ∧ v = w
      · rw [if_pos (by rw [hcv.1, hcv.2]), hstamp, if_pos hcv]
        exact heldAt_sender hu hh
      · have hne : Carrier.object c v ≠ .object cpu w :=
          fun h => hcv ⟨(Carrier.object.inj h).1, (Carrier.object.inj h).2⟩
        have hmem : v ∈ (p.shared.sock (c, .call)).waitList := by
          rw [hlist] at hv
          split_ifs at hv with hcpu
          · rcases mem_append.mp hv with hv | hv
            · exact hv
            · exact absurd ⟨hcpu, mem_singleton.mp hv⟩ hcv
          · exact hv
        rw [if_neg hne, hstamp, if_neg hcv, heldAt, if_pos hmem]
  · -- only the new wait object takes the place of the send
    split_ifs at hcc with hcw hcw' hcw'
    · rw [hcw, hcw']
    · subst hcc
      exact absurd rfl (hsender i n hc').1
    · subst hcc
      exact absurd rfl (hsender i n hc).1
    · exact hcc

lemma stampWait_of_ne (h : u.thread.pc ≠ .link) : b.stampWait u = b.waitStamp := if_neg h

lemma stampWait_link {w : ℕ} (h : u.thread.pc = .link) (hw : u.thread.wait = some w) (a : Place)
    (v : ℕ) :
    b.stampWait u a v = if a = u.place ∧ v = w then u.stamp else b.waitStamp a v := by
  rw [stampWait, if_pos h, hw, elim_some]
  by_cases ha : a = u.place
  · subst ha
    rw [update_self]
    by_cases hv : v = w
    · rw [hv, update_self, if_pos ⟨rfl, rfl⟩]
    · rw [update_of_ne hv, if_neg fun h => hv h.2]
  · rw [update_of_ne ha, if_neg fun h => ha h.1]

lemma Inv.senders_set (hp : Inv p) (hu' : u'.Ok) : ∀ v ∈ p.threads.set i u', v.Ok := by
  intro v hv
  rcases mem_or_eq_of_mem_set hv with hv | rfl
  · exact hp.senders v hv
  · exact hu'

lemma Inv.act_other {s' : Socket} {t' : Thread} (hp : Inv p) (hu : p.threads[i]? = some u)
    (hpc : u.thread.pc ≠ .session)
    (h : Acts u.place.2 (p.shared.sock u.place) i u.thread e s' t') :
    ({ u with thread := t' } : Sender).Ok ∧
    Tickets (heldAt ⟨{ p.shared with
        sock := update p.shared.sock u.place s', waitStamp := p.shared.stampWait u },
      p.threads.set i { u with thread := t' }⟩) p.shared.issued 1073741824 ∧
    ∀ cpu, ∀ w ∈ (update p.shared.sock u.place s' (cpu, .call)).waitList,
      (update p.shared.sock u.place s' (cpu, .call)).waitSession w =
        p.shared.stampWait u (cpu, .call) w % 1073741824 := by
  have hok := hp.senders u (mem_of_getElem? hu)
  have hidle : u.access = .idle := by
    by_contra hin
    exact hpc (hok.inside hin)
  cases h.waits hpc with
  | @link w hl hw hpc' hlist hsession =>
    have hh' : ¬ ({ u with thread := t' } : Sender).Holds := by
      simp [Sender.Holds, hidle, hpc']
    refine ⟨⟨fun hin => absurd hidle hin, fun hpcs => ?_⟩, ?_, fun cpu v hv => ?_⟩
    · simp [hpc'] at hpcs
    · by_cases hdir : u.place.2 = .call
      · have hplace : ∀ c, (c, Direction.call) = u.place ↔ c = u.place.1 := fun c =>
          ⟨fun h => congrArg Prod.fst h, fun h => Prod.ext h hdir.symm⟩
        refine hp.tickets_link w u.place.1 hu (.inr (.inr (.inr hl))) hh' rfl
          (fun c => ?_) fun c v => ?_
        · simp only [update_apply, hplace]
          split_ifs with hc
          · rw [hlist, ← (hplace c).mpr hc]
          · rfl
        · simp only [stampWait_link hl hw, hplace]
      · have hplace : ∀ c, (c, Direction.call) ≠ u.place := fun c h => hdir (by rw [← h])
        refine hp.tickets_keep hu rfl (fun h => absurd h hh') (fun c => ?_) fun c => ?_
        · simp only [update_of_ne (hplace c), List.Subset.refl]
        · funext v
          exact (stampWait_link hl hw _ v).trans (if_neg fun h => hplace c h.1)
    · rw [stampWait_link hl hw]
      rw [update_apply] at hv ⊢
      split_ifs at hv ⊢ with hc hcv hcv
      · rw [hsession, hcv.2, update_self]
        exact hok.session (.inr (.inr hl))
      · have hvw : v ≠ w := fun h => hcv ⟨hc, h⟩
        rw [hlist] at hv
        have hmem : v ∈ (p.shared.sock u.place).waitList :=
          (mem_append.mp hv).resolve_right fun h => hvw (mem_singleton.mp h)
        rw [hsession, update_of_ne hvw]
        rw [← hc] at hmem ⊢
        exact hp.words cpu v hmem
      · exact absurd hcv.1 hc
      · exact hp.words cpu v hv
  | other hl hlist hsession hholds =>
    rw [stampWait_of_ne hl]
    have hpcs : ∀ {pc : Pc}, (pc = .peek ∨ pc = .take) → pc = .peek ∨ pc = .take ∨ pc = .link :=
      fun h => h.imp_right .inl
    refine ⟨⟨fun hin => absurd hidle hin, fun h => ?_⟩, ?_, fun cpu w hw => ?_⟩
    · rw [(hholds h).2]
      exact hok.session (hpcs (hholds h).1)
    · refine hp.tickets_keep hu rfl (fun h => ?_) (fun c => ?_) fun c => rfl
      · have h := h.resolve_left fun ha => Access.noConfusion (hidle.symm.trans ha)
        exact ⟨.inr (hpcs (hholds h).1), rfl⟩
      · simp only [update_apply]
        split_ifs with hc
        · rw [hc]
          exact hlist
        · exact List.Subset.refl _
    · rw [update_apply] at hw ⊢
      split_ifs at hw ⊢ with hc
      · have hmem := hlist hw
        rw [hsession]
        rw [← hc] at hmem ⊢
        exact hp.words cpu w hmem
      · exact hp.words cpu w hw

lemma Inv.step (hp : Inv p) (hl : Unshared p l) (ht : InTime p l)
    (h : system.step p l = some p') : Inv p' := by
  have howned := owned_step hp.owned hl h
  cases System.steps_of_step h with
  | @act i e u u' b' hu hact =>
    have hok := hp.senders u (mem_of_getElem? hu)
    cases sendActs_of_act hact with
    | read hpc ha =>
      refine ⟨howned, hp.senders_set ⟨fun _ => hpc, hok.session⟩, ?_, hp.words⟩
      refine hp.tickets_keep hu rfl (fun hh => ?_) (fun c => List.Subset.refl _) fun c => rfl
      simp [Sender.Holds, hpc] at hh
    | store hpc ha =>
      refine ⟨howned, hp.senders_set ⟨fun _ => hpc, fun h => ?_⟩,
        hp.tickets_store hu hpc (fun h => Access.noConfusion (ha.symm.trans h)) ht, hp.words⟩
      simp [hpc] at h
    | reread hpc ha hpc' =>
      have hbusy := hp.owned.busy i u hu fun h => Access.noConfusion (ha.symm.trans h)
      refine ⟨howned, hp.senders_set ⟨fun h => absurd rfl h, fun _ => ?_⟩, ?_, hp.words⟩
      · rw [hbusy.stored ha]
        exact hbusy.counts
      · exact hp.tickets_keep hu rfl (fun _ => ⟨.inl ha, rfl⟩) (fun c => List.Subset.refl _)
          fun c => rfl
    | other hpc hacts =>
      obtain ⟨hok', htickets, hwords⟩ := hp.act_other hu hpc hacts
      exact ⟨howned, hp.senders_set hok', htickets, hwords⟩
  | @env x b' hx =>
    obtain ⟨s', hs', rfl⟩ := env_eq hx
    obtain ⟨hlist, hsession⟩ := hs'.waits
    have hsock : ∀ c : Fin 2,
        (update p.shared.sock x.1 s' (c, .call)).waitList =
          (p.shared.sock (c, .call)).waitList ∧
        (update p.shared.sock x.1 s' (c, .call)).waitSession =
          (p.shared.sock (c, .call)).waitSession := by
      intro c
      rw [update_apply]
      split_ifs with hc
      · rw [hc]
        exact ⟨hlist, hsession⟩
      · exact ⟨rfl, rfl⟩
    refine ⟨howned, hp.senders, hp.tickets.sub fun c n hc => ?_, fun cpu w hw => ?_⟩
    · cases c with
      | sender j => exact hc
      | object cpu w =>
        simp only [heldAt, (hsock cpu).1] at hc
        exact hc
    · simp only [(hsock cpu).1, (hsock cpu).2] at hw ⊢
      exact hp.words cpu w hw
  | @spawn u hu =>
    obtain ⟨hpc, ha⟩ := start_spec hu
    refine ⟨howned, fun v hv => ?_, hp.tickets.sub fun c n hc => ?_, hp.words⟩
    · rcases mem_append.mp hv with hv | hv
      · exact hp.senders v hv
      · obtain rfl := mem_singleton.mp hv
        exact ⟨fun h => absurd ha h, fun h => by simp [hpc] at h⟩
    · cases c with
      | object cpu w => exact hc
      | sender j =>
        obtain ⟨v, hv, hn⟩ := bind_eq_some_iff.mp hc
        rcases System.getElem?_concat_cases hv with ⟨-, rfl⟩ | hv'
        · have hh := (eq_stamp_of_held hn).1
          simp [Sender.Holds, hpc, ha] at hh
        · exact bind_eq_some_iff.mpr ⟨v, hv', hn⟩

lemma inv_init : Inv init where
  owned := ⟨fun i j t u ht => by simp [init] at ht, fun i t ht => by simp [init] at ht,
    fun _ => rfl⟩
  senders u hu := absurd hu not_mem_nil
  tickets := by
    have hnone : ∀ c n, heldAt init c ≠ some n := by
      intro c n hc
      cases c with
      | sender i => simp [heldAt, init] at hc
      | object cpu w => simp [heldAt, init, initCommSeqMem] at hc
    exact ⟨fun c n hc => absurd hc (hnone c n), fun c n hc => absurd hc (hnone c n),
      fun c _ n hc => absurd hc (hnone c n)⟩
  words cpu w hw := absurd hw not_mem_nil

/-- If no send reads the session counter between the accesses of another, and fewer than `2 ^ 30`
sessions are issued while one is linked, no two wait objects linked for a CPU have the same session.
-/
theorem sessions_distinct {ls : List (Label Sender Event (Place × Env))}
    {p : Pool Sockets Sender} (hrun : run system.step init ls = some p)
    (hok : Guarded system.step (fun p l => Unshared p l ∧ InTime p l) init ls) (cpu : Fin 2) :
    p.shared.Distinct cpu := by
  have hinv : Inv p := hok.invariant (fun q l q' hq hl hs => hq.step hl.1 hl.2 hs) inv_init hrun
  intro w hw w' hw' hne
  rw [hinv.words cpu w hw, hinv.words cpu w' hw']
  have hheld : ∀ v ∈ (p.shared.sock (cpu, .call)).waitList,
      heldAt p (.object cpu v) = some (p.shared.waitStamp (cpu, .call) v) := fun v hv => if_pos hv
  exact hinv.tickets.mod_ne (hheld w hw) (hheld w' hw') fun h => hne (Carrier.object.inj h).2

def callMips : Sender := ⟨(1, .call), cpuCommCallEx.start, .idle, 0⟩

def toSession (i : ℕ) (acquire : Event) : List (Label Sender Event (Place × Env)) :=
  [.act i .go, .act i acquire] ++ List.replicate 3 (.act i .go)

def twoCalls : List (Label Sender Event (Place × Env)) :=
  [.spawn callMips, .spawn callMips] ++ toSession 0 .go ++ List.replicate 6 (.act 0 .go) ++
    toSession 1 .timeout ++ List.replicate 6 (.act 1 .go)

theorem sessions_distinct_twoCalls :
    ∃ p, run system.step init twoCalls = some p ∧
      (p.shared.sock (1, .call)).waitList = [0, 1] ∧ p.shared.Distinct 1 := by
  have hok : Guarded system.step (fun p l => Unshared p l ∧ InTime p l) init twoCalls := by
    decide +kernel
  obtain ⟨p, hrun, hlist⟩ := map_eq_some_iff.mp (show (run system.step init twoCalls).map
    (fun p => (p.shared.sock (1, .call)).waitList) = some [0, 1] by decide +kernel)
  exact ⟨p, hrun, hlist, sessions_distinct hrun hok 1⟩

def racingCalls : List (Label Sender Event (Place × Env)) :=
  [.spawn callMips, .spawn callMips] ++ toSession 0 .go ++ toSession 1 .timeout ++
    [.act 0 .go, .act 1 .go, .act 0 .go, .act 1 .go, .act 0 .go, .act 1 .go] ++
    List.replicate 3 (.act 0 .go) ++ List.replicate 3 (.act 1 .go)

theorem racingCalls_same_session :
    ∃ p, run system.step init racingCalls = some p ∧
      Guarded system.step InTime init racingCalls ∧ p.shared.issued = 2 ∧
      (p.shared.sock (1, .call)).waitList = [0, 1] ∧
      (p.shared.sock (1, .call)).waitSession 0 = 1 ∧
      (p.shared.sock (1, .call)).waitSession 1 = 1 ∧ ¬ p.shared.Distinct 1 := by
  obtain ⟨p, hrun, hp⟩ := map_eq_some_iff.mp
    (show (run system.step init racingCalls).map (fun p => (p.shared.issued,
        (p.shared.sock (1, .call)).waitList, (p.shared.sock (1, .call)).waitSession 0,
        (p.shared.sock (1, .call)).waitSession 1)) = some (2, [0, 1], 1, 1) by decide +kernel)
  simp only [Prod.mk.injEq] at hp
  obtain ⟨hissued, hlist, h0, h1⟩ := hp
  refine ⟨p, hrun, by decide +kernel, hissued, hlist, h0, h1, fun h => ?_⟩
  refine h 0 ?_ 1 ?_ (by decide) (h0.trans h1.symm)
  · rw [hlist]
    decide
  · rw [hlist]
    decide

end Sockets

end CpuComm
