import H713.CpuComm.Socket.WaitSem

/-!
# The result of a call

`CPUComm_CallEx` returns 0 whenever its send succeeded: neither a wait that timed out, nor an empty
lookup in ReturnList, nor a RETURN with an odd result count changes its return value.
-/

namespace CpuComm

open Machine List

/-- A call between the draw of its session and its lookup. -/
def Thread.pending (t : Thread) : Bool :=
  t.job.isCall && match t.pc with
    | .peek | .take | .link | .copyBack | .dispatch | .ackWait | .unlink | .release => true
    | .find | .await | .drain | .lookup => true
    | .up => t.ret == 0
    | _ => false

def Socket.nextSession (s : Socket) : ℕ := (s.callSession + 1) % 1073741824

/-- The RETURNs among the events. -/
def returns (past : List (Label Thread Event Env)) : List ReturnEntry :=
  past.filterMap fun
    | .env (.recvReturn e) => some e
    | _                    => none

/-- A call draws a session that no pending call has and no RETURN has had, its RETURN comes before
it drains the ReturnCmd FIFO, and the RETURNs for pending calls have at most ten results and find
room. -/
def Answered (x : Pool Socket Thread × List (Label Thread Event Env)) :
    Label Thread Event Env → Prop
  | .act i _ => ∀ t ∈ x.1.threads[i]?, t.job.isCall = true →
      (t.pc = .session → (∀ u ∈ x.1.threads, u.pending = true →
          u.session ≠ x.1.shared.nextSession) ∧
        ∀ e ∈ returns x.2, e.session ≠ x.1.shared.nextSession) ∧
      (t.pc = .drain → ∃ e ∈ returns x.2, e.session = t.session)
  | .env (.recvReturn e) =>
      (∃ t ∈ x.1.threads, t.pending = true ∧ t.session = e.session) →
        e.count ≤ 10 ∧ x.1.shared.staging.length < 20
  | _ => True

instance (x : Pool Socket Thread × List (Label Thread Event Env)) (l : Label Thread Event Env) :
    Decidable (Answered x l) :=
  match l with
  | .act i _ => inferInstanceAs (Decidable (∀ t ∈ x.1.threads[i]?, t.job.isCall = true → _))
  | .env (.recvReturn _) => inferInstanceAs (Decidable ((∃ t ∈ x.1.threads, _) → _))
  | .env (.otherSession _) | .env (.mipsAck _) | .env .ackAction | .env (.matchReturn _ _)
  | .env (.signal _) | .spawn _ => .isTrue trivial

def Thread.CopiedOwn (t : Thread) : Prop := ∃ e, t.copied = some e ∧ e.session = t.session

/-- What a call knows about its RETURN from the lookup on. -/
structure CallOk (t : Thread) : Prop where
  entry : t.pc = .finish → ∃ e, t.entry = some e ∧ e.session = t.session ∧ e.count ≤ 10
  copied : t.pc = .unlinkEnd ∨ t.pc = .releaseEnd → t.CopiedOwn
  returned : t.job.isCall = true → t.pc = .done → t.ret = 0 → t.CopiedOwn

lemma CallOk.act {dir : Direction} {s s' : Socket} {i : ℕ} {t t' : Thread} {e : Event}
    (hok : CallOk t) (h : Acts dir s i t e s' t')
    (hanswered : t.pc = .lookup → (∃ e ∈ s.returnList, e.session = t.session) ∧
      ∀ e ∈ s.returnList, e.session = t.session → e.count ≤ 10) :
    CallOk t' := by
  cases h with
  | lookup hpc =>
    refine ⟨fun _ => ?_, by simp, by simp⟩
    obtain ⟨⟨e, he, hsession⟩, hcount⟩ := hanswered hpc
    cases hfind : s.returnList.find? (·.session == t.session) with
    | none => simpa [hsession] using List.find?_eq_none.mp hfind e he
    | some e' =>
      have hown : e'.session = t.session := by simpa using List.find?_some hfind
      exact ⟨e', rfl, hown, hcount e' (mem_of_find?_eq_some hfind) hown⟩
  | finish hpc =>
    refine ⟨by simp, fun _ => ?_, by simp⟩
    obtain ⟨e, he, hsession, hcopy⟩ := hok.entry hpc
    refine ⟨e, ?_, hsession⟩
    simp only [he, Option.filter_some]
    rw [if_pos]
    simp only [Bool.and_eq_true, decide_eq_true_eq]
    omega
  | notLinked hpc hf => exact ⟨by simp, by simp, fun _ _ _ => hok.copied (.inl hpc)⟩
  | unlinkEnd hpc hf => exact ⟨by simp, fun _ => hok.copied (.inl hpc), by simp⟩
  | releaseEnd hpc hf hs => exact ⟨by simp, by simp, fun _ _ _ => hok.copied (.inr hpc)⟩
  | reject hpc hr => exact ⟨by simp, by simp, fun _ _ h => absurd h hr⟩
  | mismatch hpc => exact ⟨by simp, by simp, fun _ _ h => absurd h (by simp)⟩
  | up hpc hc => exact ⟨by simp, by simp, fun hcall _ h => absurd ⟨hcall, h⟩ hc⟩
  | spin hpc hf => exact hok
  | _ => exact ⟨by simp, by simp, by simp⟩

/-! ### RETURNs on their way to pending calls -/

/-- What a thread's step means for the RETURNs: only the draw of a session makes a call pending, and
only `drain` and `lookup` touch staged and listed RETURNs. -/
lemma Acts.pending_cases {dir : Direction} {s s' : Socket} {i : ℕ} {t t' : Thread} {e : Event}
    (hdir : t.job.isCall = true → dir = .call) (h : Acts dir s i t e s' t') :
    t'.job = t.job ∧
      (t.pc = .session ∧ s'.staging = s.staging ∧ s'.returnList = s.returnList ∧
        t'.session = s.nextSession ∧ t'.pc ≠ .lookup ∨
      t.pc = .drain ∧ s' = s.returnPipeLine ∧ t' = { t with pc := .lookup } ∨
      t.pc = .lookup ∧ s'.staging = s.staging ∧
        s'.returnList = s.returnList.eraseP (·.session == t.session) ∧ t'.pc = .finish ∨
      s'.staging = s.staging ∧ s'.returnList = s.returnList ∧ t'.pc ≠ .lookup ∧
        (t'.pending = true → t.pending = true ∧ t'.session = t.session)) := by
  cases h with
  | forget hpc hq hj => exact ⟨rfl, .inl ⟨hpc, rfl, rfl, hq, by simp⟩⟩
  | session hpc hq hj => exact ⟨rfl, .inl ⟨hpc, rfl, rfl, hq, by simp⟩⟩
  | drain hpc => exact ⟨rfl, .inr (.inl ⟨hpc, rfl, rfl⟩)⟩
  | lookup hpc => exact ⟨rfl, .inr (.inr (.inl ⟨hpc, rfl, rfl, rfl⟩))⟩
  | backward hpc hd =>
    refine ⟨rfl, .inr (.inr (.inr ⟨rfl, rfl, by simp, fun hp => ?_⟩))⟩
    simp only [Thread.pending, Bool.and_eq_true] at hp
    cases (hdir hp.1).symm.trans hd
  | release hpc hw hs =>
    rw [Socket.releaseWaitComm_frame hs]
    exact ⟨rfl, .inr (.inr (.inr ⟨rfl, rfl, by simp, fun hp => by simp_all [Thread.pending]⟩))⟩
  | releaseEnd hpc hf hs =>
    rw [Socket.releaseWaitComm_frame hs]
    exact ⟨rfl, .inr (.inr (.inr ⟨rfl, rfl, by simp, fun hp => by simp_all [Thread.pending]⟩))⟩
  | spin hpc hf => exact ⟨rfl, .inr (.inr (.inr ⟨rfl, rfl, by simp [hpc], fun hp => ⟨hp, rfl⟩⟩))⟩
  | _ =>
    exact ⟨rfl, .inr (.inr (.inr ⟨rfl, rfl, by simp, fun hp => by simp_all [Thread.pending]⟩))⟩

/-- No two pending calls have one session. -/
def Distinct (l : List Thread) : Prop :=
  ∀ ⦃i j : ℕ⦄ ⦃t u : Thread⦄, l[i]? = some t → l[j]? = some u → i ≠ j → t.pending = true →
    u.pending = true → t.session ≠ u.session

lemma Distinct.set {l : List Thread} {i : ℕ} {v : Thread} (h : Distinct l)
    (hv : v.pending = true → ∀ j u, j ≠ i → l[j]? = some u → u.pending = true →
      u.session ≠ v.session) : Distinct (l.set i v) := by
  intro j k t u ht hu hjk hpt hpu
  rcases System.getElem?_set_cases ht with ⟨rfl, rfl⟩ | ⟨hj, ht'⟩ <;>
    rcases System.getElem?_set_cases hu with ⟨rfl, rfl⟩ | ⟨hk, hu'⟩
  · exact absurd rfl hjk
  · exact (hv hpt k u hk hu' hpu).symm
  · exact hv hpu j t hj ht' hpt
  · exact h ht' hu' hjk hpt hpu

/-- The RETURNs of pending calls are staged or listed, and listed for a call at its lookup. -/
structure Delivers (dir : Direction) (x : Pool Socket Thread × List (Label Thread Event Env)) :
    Prop where
  threads : ∀ t ∈ x.1.threads, t.Ok dir ∧ CallOk t
  distinct : Distinct x.1.threads
  known : ∀ e ∈ x.1.shared.staging ++ x.1.shared.returnList, e ∈ returns x.2
  kept : ∀ t ∈ x.1.threads, t.pending = true → ∀ e ∈ returns x.2, e.session = t.session →
    e.count ≤ 10 ∧ e ∈ x.1.shared.staging ++ x.1.shared.returnList
  listed : ∀ t ∈ x.1.threads, t.pc = .lookup →
    ∃ e ∈ x.1.shared.returnList, e.session = t.session

lemma Thread.Ok.pending {dir : Direction} {t : Thread} (h : t.Ok dir)
    (hpc : t.pc = .drain ∨ t.pc = .lookup) : t.pending = true := by
  have hcall := (h.calling (by rcases hpc with hpc | hpc <;> simp [hpc])).1
  rcases hpc with hpc | hpc <;> simp [Thread.pending, hcall, hpc]

namespace Delivers

variable {dir : Direction} {p : Pool Socket Thread} {past : List (Label Thread Event Env)}

lemma own_lookup (h : Delivers dir (p, past)) {t : Thread} (ht : t ∈ p.threads)
    (hpc : t.pc = .lookup) : (∃ e ∈ p.shared.returnList, e.session = t.session) ∧
      ∀ e ∈ p.shared.returnList, e.session = t.session → e.count ≤ 10 :=
  ⟨h.listed t ht hpc, fun e he hsession =>
    (h.kept t ht ((h.threads t ht).1.pending (.inr hpc)) e
      (h.known e (mem_append_right _ he)) hsession).1⟩

/-- A step that leaves the RETURNs alone. -/
lemma quiet (h : Delivers dir (p, past)) {i : ℕ} {v' : Thread} {s' : Socket}
    {l : Label Thread Event Env} (hl : returns (past ++ [l]) = returns past)
    (hok : v'.Ok dir ∧ CallOk v') (hstaging : s'.staging = p.shared.staging)
    (hlist : s'.returnList = p.shared.returnList) (hpc : v'.pc ≠ .lookup)
    (hpending : v'.pending = true →
      (∀ j u, j ≠ i → p.threads[j]? = some u → u.pending = true → u.session ≠ v'.session) ∧
      ∀ e ∈ returns past, e.session = v'.session →
        e.count ≤ 10 ∧ e ∈ p.shared.staging ++ p.shared.returnList) :
    Delivers dir (⟨s', p.threads.set i v'⟩, past ++ [l]) where
  threads t ht := by
    rcases mem_or_eq_of_mem_set ht with ht | rfl
    exacts [h.threads t ht, hok]
  distinct := h.distinct.set fun hp => (hpending hp).1
  known e he := by
    simp only [hstaging, hlist] at he
    exact hl ▸ h.known e he
  kept t ht hp e he hsession := by
    simp only [hl, hstaging, hlist] at he ⊢
    rcases mem_or_eq_of_mem_set ht with ht | rfl
    exacts [h.kept t ht hp e he hsession, (hpending hp).2 e he hsession]
  listed t ht hlookup := by
    simp only [hlist]
    rcases mem_or_eq_of_mem_set ht with ht | rfl
    exacts [h.listed t ht hlookup, absurd hlookup hpc]

lemma drain (h : Delivers dir (p, past)) {i : ℕ} {v : Thread} {l : Label Thread Event Env}
    (hl : returns (past ++ [l]) = returns past) (hv : p.threads[i]? = some v)
    (hpc : v.pc = .drain) (hok : ({ v with pc := .lookup } : Thread).Ok dir ∧
      CallOk { v with pc := .lookup })
    (hcame : ∃ e ∈ returns past, e.session = v.session) :
    Delivers dir (⟨p.shared.returnPipeLine, p.threads.set i { v with pc := .lookup }⟩,
      past ++ [l]) := by
  have hmem := mem_of_getElem? hv
  have hvp := (h.threads v hmem).1.pending (.inl hpc)
  have hmove : ∀ e, e ∈ ([] : List ReturnEntry) ++ (p.shared.returnList ++ p.shared.staging) ↔
      e ∈ p.shared.staging ++ p.shared.returnList := by
    simp [or_comm]
  refine ⟨fun t ht => ?_, h.distinct.set fun _ j u hj hu hpu => ?_,
    fun e he => hl ▸ h.known e ((hmove e).mp he), fun t ht hp e he hsession => ?_,
    fun t ht hlookup => ?_⟩
  · rcases mem_or_eq_of_mem_set ht with ht | rfl
    exacts [h.threads t ht, hok]
  · have hne := h.distinct hu hv hj hpu hvp
    exact hne
  · rw [hl] at he
    rcases mem_or_eq_of_mem_set ht with ht | rfl
    · exact (h.kept t ht hp e he hsession).imp_right (hmove e).mpr
    · exact (h.kept v hmem hvp e he hsession).imp_right (hmove e).mpr
  · rcases mem_or_eq_of_mem_set ht with ht | rfl
    · obtain ⟨e, he, hsession⟩ := h.listed t ht hlookup
      exact ⟨e, mem_append_left _ he, hsession⟩
    · obtain ⟨e, he, hsession⟩ := hcame
      exact ⟨e, (hmove e).mpr (h.kept v hmem hvp e he hsession).2, hsession⟩

/-- A lookup takes the RETURN of its own session and no other. -/
lemma lookup (h : Delivers dir (p, past)) {i : ℕ} {v v' : Thread} {s' : Socket}
    {l : Label Thread Event Env} (hl : returns (past ++ [l]) = returns past)
    (hv : p.threads[i]? = some v) (hpc : v.pc = .lookup) (hok : v'.Ok dir ∧ CallOk v')
    (hstaging : s'.staging = p.shared.staging)
    (hlist : s'.returnList = p.shared.returnList.eraseP (·.session == v.session))
    (hpc' : v'.pc = .finish) :
    Delivers dir (⟨s', p.threads.set i v'⟩, past ++ [l]) := by
  have hvp := (h.threads v (mem_of_getElem? hv)).1.pending (.inr hpc)
  have hnot : v'.pending ≠ true := by simp [Thread.pending, hpc']
  have hstays {j : ℕ} {u : Thread} {e : ReturnEntry} (hj : j ≠ i) (hu : p.threads[j]? = some u)
      (hpu : u.pending = true) (hsession : e.session = u.session)
      (he : e ∈ p.shared.returnList) : e ∈ s'.returnList := by
    rw [hlist]
    refine (mem_eraseP_of_neg ?_).mpr he
    simpa [hsession] using h.distinct hu hv hj hpu hvp
  refine ⟨fun t ht => ?_, h.distinct.set fun hp => absurd hp hnot, fun e he => ?_,
    fun t ht hp e he hsession => ?_, fun t ht hlookup => ?_⟩
  · rcases mem_or_eq_of_mem_set ht with ht | rfl
    exacts [h.threads t ht, hok]
  · simp only [hstaging, hlist] at he
    refine hl ▸ h.known e (mem_append.mpr ?_)
    exact (mem_append.mp he).imp_right mem_of_mem_eraseP
  · rw [hl] at he
    obtain ⟨j, hj⟩ := mem_iff_getElem?.mp ht
    rcases System.getElem?_set_cases hj with ⟨-, rfl⟩ | ⟨hji, hj⟩
    · exact absurd hp hnot
    · obtain ⟨hcount, hin⟩ := h.kept t (mem_of_getElem? hj) hp e he hsession
      refine ⟨hcount, mem_append.mpr ?_⟩
      rw [hstaging]
      exact (mem_append.mp hin).imp_right (hstays hji hj hp hsession)
  · obtain ⟨j, hj⟩ := mem_iff_getElem?.mp ht
    rcases System.getElem?_set_cases hj with ⟨-, rfl⟩ | ⟨hji, hj⟩
    · cases hpc'.symm.trans hlookup
    · have htm := mem_of_getElem? hj
      obtain ⟨e, he, hsession⟩ := h.listed t htm hlookup
      exact ⟨e, hstays hji hj ((h.threads t htm).1.pending (.inr hlookup)) hsession he, hsession⟩

lemma act (h : Delivers dir (p, past)) {i : ℕ} {ev : Event} {v v' : Thread} {s' : Socket}
    (hv : p.threads[i]? = some v) (ha : Acts dir p.shared i v ev s' v')
    (hg : Answered (p, past) (.act i ev)) :
    Delivers dir (⟨s', p.threads.set i v'⟩, past ++ [.act i ev]) := by
  have hmem := mem_of_getElem? hv
  obtain ⟨hok, hcall⟩ := h.threads v hmem
  have hl : returns (past ++ [.act i ev]) = returns past := by simp [returns]
  have hok' : v'.Ok dir ∧ CallOk v' := ⟨hok.act ha, hcall.act ha (h.own_lookup hmem)⟩
  obtain ⟨hjob, ⟨hpc, hst, hli, hsession, hpc'⟩ | ⟨hpc, rfl, rfl⟩ | ⟨hpc, hst, hli, hpc'⟩ |
    ⟨hst, hli, hpc', hpending⟩⟩ := ha.pending_cases fun hc => (hok.job hc).1
  · refine h.quiet hl hok' hst hli hpc' fun hp => ?_
    simp only [Thread.pending, Bool.and_eq_true, hjob] at hp
    obtain ⟨hfresh, hnone⟩ := (hg v hv hp.1).1 hpc
    rw [hsession]
    exact ⟨fun j u _ hu => hfresh u (mem_of_getElem? hu), fun e he heq =>
      absurd heq (hnone e he)⟩
  · exact h.drain hl hv hpc hok' ((hg v hv (hok.calling (by simp [hpc])).1).2 hpc)
  · exact h.lookup hl hv hpc hok' hst hli hpc'
  · refine h.quiet hl hok' hst hli hpc' fun hp => ?_
    obtain ⟨hp, heq⟩ := hpending hp
    rw [heq]
    exact ⟨fun j u hj hu hpu => h.distinct hu hv hj hpu hp, h.kept v hmem hp⟩

lemma recvReturn (h : Delivers dir (p, past)) {e : ReturnEntry}
    (hg : Answered (p, past) (.env (.recvReturn e))) :
    Delivers dir (⟨p.shared.addReturn2Fifo e, p.threads⟩, past ++ [.env (.recvReturn e)]) := by
  have hl : returns (past ++ [.env (.recvReturn e)]) = returns past ++ [e] := by simp [returns]
  have hlist : (p.shared.addReturn2Fifo e).returnList = p.shared.returnList := by
    unfold Socket.addReturn2Fifo
    split_ifs <;> rfl
  refine ⟨h.threads, h.distinct, fun r hr => ?_, fun t ht hp r hr hsession => ?_,
    fun t ht hlookup => hlist ▸ h.listed t ht hlookup⟩
  · rw [hl, mem_append, mem_singleton]
    unfold Socket.addReturn2Fifo at hr
    split_ifs at hr
    · simp only [mem_append, mem_singleton] at hr
      rcases hr with (hr | hr) | hr
      exacts [.inl (h.known r (mem_append_left _ hr)), .inr hr,
        .inl (h.known r (mem_append_right _ hr))]
    · exact .inl (h.known r hr)
  · rw [hl, mem_append, mem_singleton] at hr
    simp only [hlist]
    rcases hr with hr | rfl
    · refine (h.kept t ht hp r hr hsession).imp_right fun hin => ?_
      unfold Socket.addReturn2Fifo
      split_ifs
      · simp only [mem_append] at hin ⊢
        exact hin.imp_left .inl
      · exact hin
    · obtain ⟨hcount, hroom⟩ := hg ⟨t, ht, hp, hsession.symm⟩
      refine ⟨hcount, ?_⟩
      simp [Socket.addReturn2Fifo, hroom]

lemma env (h : Delivers dir (p, past)) {x : Env} {s' : Socket}
    (hx : CpuComm.env p.shared x = some s') (hg : Answered (p, past) (.env x)) :
    Delivers dir (⟨s', p.threads⟩, past ++ [.env x]) := by
  have hkeep (hl : returns (past ++ [.env x]) = returns past)
      (hst : s'.staging = p.shared.staging) (hli : s'.returnList = p.shared.returnList) :
      Delivers dir (⟨s', p.threads⟩, past ++ [.env x]) := by
    refine ⟨h.threads, h.distinct, ?_, ?_, ?_⟩ <;> simp only [hl, hst, hli]
    exacts [h.known, h.kept, h.listed]
  cases x with
  | recvReturn e => exact Option.some.inj hx ▸ h.recvReturn hg
  | _ => cases envs_of_env hx <;> exact hkeep (by simp [returns]) rfl rfl

lemma spawn (h : Delivers dir (p, past)) {t : Thread} (ht : starts dir t = true) :
    Delivers dir (⟨p.shared, p.threads ++ [t]⟩, past ++ [.spawn t]) := by
  have hl : returns (past ++ [.spawn t]) = returns past := by simp [returns]
  have hpc : t.pc = .start := by
    rw [(starts_spec ht).1]
    rfl
  have hnot : t.pending ≠ true := by simp [Thread.pending, hpc]
  refine ⟨fun u hu => ?_, fun j k u v hu hv hjk hpu hpv => ?_, hl ▸ h.known,
    fun u hu hp e he hsession => ?_, fun u hu hlookup => ?_⟩
  · rcases mem_append.mp hu with hu | hu
    · exact h.threads u hu
    · obtain rfl := mem_singleton.mp hu
      exact ⟨.start ht, by simp [hpc], by simp [hpc], by simp [hpc]⟩
  · rcases System.getElem?_concat_cases hu with ⟨-, rfl⟩ | hu
    · exact absurd hpu hnot
    · rcases System.getElem?_concat_cases hv with ⟨-, rfl⟩ | hv
      · exact absurd hpv hnot
      · exact h.distinct hu hv hjk hpu hpv
  · rw [hl] at he
    rcases mem_append.mp hu with hu | hu
    · exact h.kept u hu hp e he hsession
    · exact absurd hp (mem_singleton.mp hu ▸ hnot)
  · rcases mem_append.mp hu with hu | hu
    · exact h.listed u hu hlookup
    · cases hpc.symm.trans (mem_singleton.mp hu ▸ hlookup)

theorem step {x x' : Pool Socket Thread × List (Label Thread Event Env)}
    {l : Label Thread Event Env} (h : Delivers dir x) (hg : Answered x l)
    (hs : remember (socket dir).step x l = some x') : Delivers dir x' := by
  obtain ⟨p', hp, rfl⟩ := Option.map_eq_some_iff.mp hs
  cases System.steps_of_step hp with
  | act hv ha => exact h.act hv (acts_of_act ha) hg
  | env hx => exact h.env hx hg
  | spawn ht => exact h.spawn ht

end Delivers

/-- When calls draw fresh sessions and each call's RETURN comes in time, has at most ten results and
finds room, a call that returns 0 has copied its result from a RETURN of its own session. -/
theorem call_returns_zero_with_own_result {dir : Direction} {ls : List (Label Thread Event Env)}
    {p : Pool Socket Thread} (hrun : run (socket dir).step socketInit ls = some p)
    (hok : Guarded (remember (socket dir).step) Answered (socketInit, []) ls) {t : Thread}
    (ht : t ∈ p.threads) (hcall : t.job.isCall = true) (hdone : t.pc = .done) (hret : t.ret = 0) :
    t.CopiedOwn := by
  have hinit : Delivers dir (socketInit, []) := by
    refine ⟨by simp [socketInit], fun i j t u ht => ?_, by simp [socketInit, initCommSeqMem],
      by simp [socketInit], by simp [socketInit]⟩
    simp [socketInit] at ht
  have hrun' : run (remember (socket dir).step) (socketInit, []) ls = some (p, ls) := by
    rw [run_remember, hrun]
    rfl
  have hinv := hok.invariant (fun _ _ _ h hg hs => h.step hg hs) hinit hrun'
  exact (hinv.threads t ht).2.returned hcall hdone hret

/-- Two calls whose RETURNs come in the other order. -/
def crossedCalls : List (Label Thread Event Env) :=
  toAckWait 0 cpuCommCallEx ++ ackAndReturn 0 ++ toAckWait 1 cpuCommCallEx ++ ackAndReturn 1
    ++ [.act 0 .go, .act 1 .go] ++ mipsReturn 2 1 ++ mipsReturn 1 0
    ++ List.replicate 6 (.act 0 .go) ++ List.replicate 6 (.act 1 .go)

theorem call_returns_zero_with_own_result_answered :
    ∃ p t u, run (socket .call).step socketInit crossedCalls = some p ∧ p.threads = [t, u] ∧
      t.copied = some ⟨1, 1⟩ ∧ t.CopiedOwn ∧ u.copied = some ⟨2, 1⟩ ∧ u.CopiedOwn := by
  have hok : Guarded (remember (socket .call).step) Answered (socketInit, []) crossedCalls := by
    decide +kernel
  exact ⟨_, _, _, rfl, rfl, rfl,
    call_returns_zero_with_own_result rfl hok (.head _) rfl rfl rfl, rfl,
    call_returns_zero_with_own_result rfl hok (.tail _ (.head _)) rfl rfl rfl⟩

/-- A call whose RETURN never comes returns 0 without having copied anything. -/
theorem call_returns_zero_without_result :
    ∃ ls p t, run (socket .call).step socketInit ls = some p ∧ t ∈ p.threads ∧
      t.job = cpuCommCallEx ∧ t.pc = .done ∧ t.ret = 0 ∧ t.copied = none :=
  ⟨unansweredCall 0, _, _, rfl, .head _, rfl, rfl, rfl, rfl⟩

end CpuComm
