import H713.CpuComm.Socket.SendSem

/-!
# The ACK semaphore

An ACK is an anonymous `up` on a semaphore of the socket, so a send cannot tell whose ACK it takes.
A late ACK leaves its token to the next send.
-/

namespace CpuComm

open Machine List Option

variable (p : Pool Socket Thread)

def Sequential : Label Thread Event Env → Prop
  | .act i _ => ∀ t ∈ p.threads[i]?, t.pc = .acquire → insideCount p = 0
  | _ => True

def TimelyAck : Label Thread Event Env → Prop
  | .env .ackAction => ∀ i ∈ p.shared.ackPending, ∀ t ∈ p.threads[i]?, t.pc = .ackWait
  | _ => True

instance (l : Label Thread Event Env) : Decidable (Sequential p l) :=
  match l with
  | .act i _ => inferInstanceAs (Decidable (∀ t ∈ p.threads[i]?, t.pc = .acquire → _))
  | .env _   => .isTrue trivial
  | .spawn _ => .isTrue trivial

instance (l : Label Thread Event Env) : Decidable (TimelyAck p l) :=
  match l with
  | .env .ackAction =>
    inferInstanceAs (Decidable (∀ i ∈ p.shared.ackPending, ∀ t ∈ p.threads[i]?, _))
  | .env (.otherSession _)  => .isTrue trivial
  | .env (.mipsAck _)       => .isTrue trivial
  | .env (.recvReturn _)    => .isTrue trivial
  | .env (.matchReturn _ _) => .isTrue trivial
  | .env (.signal _)        => .isTrue trivial
  | .act _ _                => .isTrue trivial
  | .spawn _                => .isTrue trivial

def Pc.preDispatch : Pc → Bool
  | .start | .acquire | .locked | .slotted | .verify | .session
  | .peek | .take | .link | .copyBack | .dispatch => true
  | _ => false

def Pc.returned : Pc → Bool
  | .find | .await | .drain | .lookup | .finish | .unlinkEnd | .releaseEnd | .done => true
  | _ => false

def Socket.acks (s : Socket) (i : ℕ) : ℕ :=
  s.unacked.count i + s.ackPending.toList.count i + s.ackSem.count i

def AckOk (s : Socket) (i : ℕ) (t : Thread) : Prop :=
  (t.pc.preDispatch = true → s.acks i = 0) ∧
  (t.pc = .unlink ∨ t.pc = .release → t.ret ≠ 0) ∧
  (t.pc = .up ∨ t.pc.returned = true → t.ret = 0 → t.ackToken = some i)

structure AckInv (p : Pool Socket Thread) : Prop where
  inside : insideCount p ≤ 1
  acks_le : ∀ i, p.shared.acks i ≤ 1
  acks_new : ∀ i, p.threads.length ≤ i → p.shared.acks i = 0
  tokens : ∀ k ∈ p.shared.ackSem, ∃ t, p.threads[k]? = some t ∧ t.pc = .ackWait
  threads : System.Forall AckOk p

/-! ### What a thread does to the ACKs -/

/-- A step that is neither a dispatch nor the end of a successful wait. -/
structure AckIdle (s s' : Socket) (i : ℕ) (t t' : Thread) : Prop where
  ackSem : s'.ackSem = s.ackSem
  acks : ∀ j, s'.acks j = s.acks j
  waiting : t.pc = .ackWait → s.ackSem = []
  ok : AckOk s i t → AckOk s' i t'

lemma ack_act {dir : Direction} {s s' : Socket} {i : ℕ} {t t' : Thread} {e : Event}
    (h : Acts dir s i t e s' t') :
    AckIdle s s' i t t' ∨
    (t.pc = .dispatch ∧ s' = { s with unacked := s.unacked ++ [i] } ∧
      t' = { t with pc := .ackWait }) ∨
    (∃ k ks, t.pc = .ackWait ∧ s.ackSem = k :: ks ∧ s' = { s with ackSem := ks } ∧
      t' = { t with pc := .up, ackToken := some k, ret := 0 }) := by
  cases h with
  | dispatch hpc => exact .inr (.inl ⟨hpc, rfl, rfl⟩)
  | @acked k ks hpc hk => exact .inr (.inr ⟨k, ks, hpc, hk, rfl, rfl⟩)
  | @release w s' hpc hw hs =>
    rw [Socket.releaseWaitComm_frame hs]
    exact .inl ⟨rfl, fun _ => rfl, by simp [hpc],
      fun h => ⟨by simp [Pc.preDispatch], by simp, fun _ hr => absurd hr (h.2.1 (.inr hpc))⟩⟩
  | @releaseEnd w s' hpc hw hs =>
    rw [Socket.releaseWaitComm_frame hs]
    exact .inl ⟨rfl, fun _ => rfl, by simp [hpc],
      fun h => ⟨by simp [Pc.preDispatch], by simp, fun _ => h.2.2 (by simp [hpc, Pc.returned])⟩⟩
  | _ =>
    refine .inl ⟨rfl, fun _ => rfl, ?_, ?_⟩
    all_goals simp_all [AckOk, Pc.preDispatch, Pc.returned, Socket.acks, Socket.returnPipeLine,
      Socket.getWaitbySessionId, Socket.takeFreeWait, Socket.addtoWaitComm]

/-! ### Runs -/

namespace AckInv

variable {dir : Direction} {p p' : Pool Socket Thread} {s' : Socket} {i : ℕ} {t t' : Thread}

lemma init : AckInv socketInit where
  inside := by simp [insideCount, socketInit]
  acks_le := fun i => by simp [Socket.acks, socketInit, initCommSeqMem]
  acks_new := fun i _ => by simp [Socket.acks, socketInit, initCommSeqMem]
  tokens := by simp [socketInit, initCommSeqMem]
  threads := fun i t h => by simp [socketInit] at h

lemma inside_set {e : Event} (h : AckInv p) (ht : p.threads[i]? = some t)
    (ha : Acts dir p.shared i t e s' t') (hseq : Sequential p (.act i e)) :
    insideCount ⟨s', p.threads.set i t'⟩ ≤ 1 := by
  have hsum := System.sum_map_set t' Thread.inside ht
  have hone : t'.inside ≤ 1 := by
    unfold Thread.inside
    split_ifs <;> omega
  have hin := h.inside
  unfold insideCount at hin ⊢
  by_cases hpc : t.pc = .acquire
  · have hzero := hseq t ht hpc
    unfold insideCount at hzero
    simp only
    omega
  · have := inside_act ha hpc
    simp only
    omega

lemma eq_of_token (h : AckInv p) (ht : p.threads[i]? = some t) (hpc : t.pc = .ackWait) {k : ℕ}
    (hk : k ∈ p.shared.ackSem) : k = i := by
  obtain ⟨u, hu, hupc⟩ := h.tokens k hk
  by_contra hne
  have hsum := System.add_le_sum_map Thread.inside hu ht hne
  have hin := h.inside
  simp only [insideCount, Thread.inside, hpc, hupc, Pc.inside] at hsum hin
  simp only [if_true] at hsum
  omega

lemma tokens_set {toks : List ℕ} (h : AckInv p) (hsub : ∀ k ∈ toks, k ∈ p.shared.ackSem)
    (hi : i ∉ toks) :
    ∀ k ∈ toks, ∃ u, (p.threads.set i t')[k]? = some u ∧ u.pc = .ackWait := by
  intro k hk
  obtain ⟨u, hu, hpc⟩ := h.tokens k (hsub k hk)
  have hne : i ≠ k := fun heq => hi (heq ▸ hk)
  exact ⟨u, (List.getElem?_set_ne hne).trans hu, hpc⟩

lemma idle {e : Event} (h : AckInv p) (ht : p.threads[i]? = some t)
    (ha : Acts dir p.shared i t e s' t') (hseq : Sequential p (.act i e))
    (hidle : AckIdle p.shared s' i t t') : AckInv ⟨s', p.threads.set i t'⟩ where
  inside := h.inside_set ht ha hseq
  acks_le := fun j => (hidle.acks j).symm ▸ h.acks_le j
  acks_new := fun j hj => by
    rw [length_set] at hj
    exact (hidle.acks j).trans (h.acks_new j hj)
  tokens := by
    rw [hidle.ackSem]
    refine h.tokens_set (fun _ => id) fun hi => ?_
    obtain ⟨u, hu, hpc⟩ := h.tokens i hi
    obtain rfl : t = u := Option.some.inj (ht.symm.trans hu)
    rw [hidle.waiting hpc] at hi
    cases hi
  threads := by
    intro j u hu
    rcases System.getElem?_set_cases hu with ⟨rfl, rfl⟩ | ⟨-, hu'⟩
    · exact hidle.ok (h.threads j t ht)
    · have hok := h.threads j u hu'
      exact ⟨fun hpre => (hidle.acks j).trans (hok.1 hpre), hok.2⟩

lemma dispatch {e : Event} (h : AckInv p) (ht : p.threads[i]? = some t)
    (ha : Acts dir p.shared i t e s' t') (hseq : Sequential p (.act i e))
    (hpc : t.pc = .dispatch) (hs : s' = { p.shared with unacked := p.shared.unacked ++ [i] })
    (ht' : t' = { t with pc := .ackWait }) : AckInv ⟨s', p.threads.set i t'⟩ := by
  have hacks : ∀ j, s'.acks j = p.shared.acks j + if i = j then 1 else 0 := by
    intro j
    subst hs
    simp only [Socket.acks, count_append, count_singleton, beq_iff_eq]
    omega
  have hzero : p.shared.acks i = 0 := (h.threads i t ht).1 (by simp [hpc, Pc.preDispatch])
  have hlt : i < p.threads.length := (List.getElem?_eq_some_iff.mp ht).1
  refine ⟨h.inside_set ht ha hseq, fun j => ?_, fun j hj => ?_, ?_, ?_⟩
  · rw [hacks]
    split_ifs with hij
    · subst hij
      omega
    · exact h.acks_le j
  · rw [length_set] at hj
    rw [hacks, if_neg (by omega), h.acks_new j hj]
  · subst hs
    refine h.tokens_set (fun _ => id) fun hi => ?_
    obtain ⟨u, hu, hupc⟩ := h.tokens i hi
    obtain rfl : t = u := Option.some.inj (ht.symm.trans hu)
    rw [hpc] at hupc
    cases hupc
  · intro j u hu
    rcases System.getElem?_set_cases hu with ⟨rfl, rfl⟩ | ⟨hne, hu'⟩
    · subst ht'
      simp [AckOk, Pc.preDispatch, Pc.returned]
    · have hok := h.threads j u hu'
      refine ⟨fun hpre => ?_, hok.2⟩
      rw [hacks, if_neg (Ne.symm hne), hok.1 hpre]

lemma acked {e : Event} {k : ℕ} {ks : List ℕ} (h : AckInv p) (ht : p.threads[i]? = some t)
    (ha : Acts dir p.shared i t e s' t') (hseq : Sequential p (.act i e))
    (hpc : t.pc = .ackWait) (hk : p.shared.ackSem = k :: ks)
    (hs : s' = { p.shared with ackSem := ks })
    (ht' : t' = { t with pc := .up, ackToken := some k, ret := 0 }) :
    AckInv ⟨s', p.threads.set i t'⟩ := by
  obtain rfl : k = i := h.eq_of_token ht hpc (by simp [hk])
  have hacks : ∀ j, s'.acks j ≤ p.shared.acks j := by
    intro j
    subst hs
    have := count_le_count_cons (a := j) (b := k) (l := ks)
    simp only [Socket.acks, hk]
    omega
  have hks : k ∉ ks := by
    have hle := h.acks_le k
    simp only [Socket.acks, hk, count_cons_self] at hle
    exact count_eq_zero.mp (by omega)
  refine ⟨h.inside_set ht ha hseq, fun j => (hacks j).trans (h.acks_le j), fun j hj => ?_, ?_, ?_⟩
  · rw [length_set] at hj
    exact Nat.le_zero.mp ((hacks j).trans (h.acks_new j hj).le)
  · subst hs
    exact h.tokens_set (fun j hj => by simp [hk, hj]) hks
  · intro j u hu
    rcases System.getElem?_set_cases hu with ⟨rfl, rfl⟩ | ⟨hne, hu'⟩
    · subst ht'
      simp [AckOk, Pc.preDispatch]
    · have hok := h.threads j u hu'
      exact ⟨fun hpre => Nat.le_zero.mp ((hacks j).trans (hok.1 hpre).le), hok.2⟩

lemma acks_env {s s' : Socket} {x : Env} (h : Envs s x s') (j : ℕ) : s'.acks j = s.acks j := by
  cases h with
  | mipsAck hi hp =>
    simp only [Socket.acks, hp, count_erase, toList_some, toList_none,
      count_nil, count_singleton, beq_iff_eq]
    rename_i i
    split_ifs with hij
    · subst hij
      have := count_pos_iff.mpr hi
      omega
    · omega
  | ack hp =>
    simp only [Socket.acks, hp, count_append, toList_some, toList_none,
      count_nil]
    omega
  | recvReturn e =>
    unfold Socket.addReturn2Fifo
    split_ifs <;> rfl
  | _ => rfl

lemma env {x : Env} (h : AckInv p) (hx : Envs p.shared x s') (htimely : TimelyAck p (.env x)) :
    AckInv ⟨s', p.threads⟩ where
  inside := h.inside
  acks_le := fun j => (acks_env hx j).symm ▸ h.acks_le j
  acks_new := fun j hj => (acks_env hx j).trans (h.acks_new j hj)
  tokens := by
    cases hx with
    | @ack i hp =>
      intro k hk
      rcases mem_append.mp hk with hk | hk
      · exact h.tokens k hk
      · obtain rfl := mem_singleton.mp hk
        -- the message was dispatched, so its thread exists
        have hlt : k < p.threads.length := by
          by_contra hge
          have := h.acks_new k (Nat.le_of_not_lt hge)
          simp [Socket.acks, hp] at this
        exact ⟨_, List.getElem?_eq_getElem hlt,
          htimely k hp _ (List.getElem?_eq_getElem hlt)⟩
    | recvReturn e =>
      have hsem : (p.shared.addReturn2Fifo e).ackSem = p.shared.ackSem := by
        unfold Socket.addReturn2Fifo
        split_ifs <;> rfl
      rw [hsem]
      exact h.tokens
    | _ => exact h.tokens
  threads := fun j u hu =>
    ⟨fun hpre => (acks_env hx j).trans ((h.threads j u hu).1 hpre), (h.threads j u hu).2⟩

lemma spawn (h : AckInv p) (ht : starts dir t = true) :
    AckInv ⟨p.shared, p.threads ++ [t]⟩ where
  inside := by
    have hzero : t.inside = 0 := by
      rw [(starts_spec ht).1]
      rfl
    simpa [insideCount, hzero] using h.inside
  acks_le := h.acks_le
  acks_new := fun j hj => h.acks_new j (by simp at hj; omega)
  tokens := by
    intro k hk
    obtain ⟨u, hu, hpc⟩ := h.tokens k hk
    exact ⟨u, (List.getElem?_append_left (List.getElem?_eq_some_iff.mp hu).1).trans hu, hpc⟩
  threads := by
    intro j u hu
    rcases System.getElem?_concat_cases hu with ⟨rfl, rfl⟩ | hu'
    · have hpc : u.pc = .start := by
        rw [(starts_spec ht).1]
        rfl
      refine ⟨fun _ => h.acks_new _ le_rfl, ?_, ?_⟩ <;> simp [hpc, Pc.returned]
    · exact h.threads j u hu'

theorem step {l : Label Thread Event Env} (h : AckInv p)
    (hok : Sequential p l ∧ TimelyAck p l) (hs : (socket dir).step p l = some p') : AckInv p' := by
  cases System.steps_of_step hs with
  | act ht ha =>
    have hacts := acts_of_act ha
    rcases ack_act hacts with hidle | ⟨hpc, hs', ht'⟩ | ⟨k, ks, hpc, hk, hs', ht'⟩
    · exact h.idle ht hacts hok.1 hidle
    · exact h.dispatch ht hacts hok.1 hpc hs' ht'
    · exact h.acked ht hacts hok.1 hpc hk hs' ht'
  | env hx => exact h.env (envs_of_env hx) hok.2
  | spawn ht => exact h.spawn ht

end AckInv

/-- When sends follow one another and each ACK comes while it is awaited, a send that returns 0 has
consumed the token of its own message. -/
theorem send_consumes_own_ack {dir : Direction} {ls : List (Label Thread Event Env)}
    {p : Pool Socket Thread} (hrun : run (socket dir).step socketInit ls = some p)
    (hok : Guarded (socket dir).step (fun q l => Sequential q l ∧ TimelyAck q l) socketInit ls)
    {i : ℕ} {t : Thread} (ht : p.threads[i]? = some t) (hret : t.pc.returned = true)
    (hzero : t.ret = 0) : t.ackToken = some i := by
  have hinv := hok.invariant (fun _ _ _ h hok hs => AckInv.step h hok hs) AckInv.init hrun
  exact (hinv.threads i t ht).2.2 (.inr hret) hzero

def notifyToAckWait (i : ℕ) : List (Label Thread Event Env) :=
  .spawn cpuCommNotify.start :: List.replicate 8 (.act i .go)

/-- A notification that is acknowledged in time. -/
theorem send_consumes_own_ack_notify :
    ∃ p t, run (socket .call).step socketInit
        (notifyToAckWait 0 ++ [.env (.mipsAck 0), .env .ackAction, .act 0 .go, .act 0 .go])
          = some p ∧
      p.threads[0]? = some t ∧ t.ret = 0 ∧ t.ackToken = some 0 := by
  have hok : Guarded (socket .call).step (fun q l => Sequential q l ∧ TimelyAck q l) socketInit
      (notifyToAckWait 0 ++ [.env (.mipsAck 0), .env .ackAction, .act 0 .go, .act 0 .go]) := by
    decide
  exact ⟨_, _, rfl, rfl, rfl, send_consumes_own_ack rfl hok rfl rfl rfl⟩

/-- A notification times out, its ACK arrives late, and the next one returns 0 on that ACK. -/
theorem send_consumes_late_ack :
    ∃ ls p t, run (socket .call).step socketInit ls = some p ∧
      Guarded (socket .call).step Sequential socketInit ls ∧
      p.threads[1]? = some t ∧ t.pc = .done ∧ t.ret = 0 ∧ t.ackToken = some 0 ∧
      p.shared.unacked = [1] :=
  ⟨notifyToAckWait 0 ++ [.act 0 .timeout, .act 0 .go, .env (.mipsAck 0), .env .ackAction]
      ++ notifyToAckWait 1 ++ [.act 1 .go, .act 1 .go],
    _, _, rfl, by decide, rfl, rfl, rfl, rfl, rfl⟩

end CpuComm
