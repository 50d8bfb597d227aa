import H713.CpuComm.Socket.WaitInv

/-!
# The semaphore of a wait object

A call waits for its RETURN on a semaphore in its wait object, and `command_action` signals the
object of the session that a RETURN names. The object keeps its session after its release, so a
RETURN that comes too late leaves a token in a free object.
-/

namespace CpuComm

open Machine Function List Option

def Pc.spent : Pc → Bool
  | .unlink | .drain | .lookup | .finish | .unlinkEnd => true
  | _ => false

def Pc.early : Pc → Bool
  | .drain | .lookup | .finish | .unlinkEnd | .releaseEnd | .done => false
  | _ => true

def AwaitedReturn (p : Pool Socket Thread) : Label Thread Event Env → Prop
  | .env (.signal k) => ∀ m ∈ p.shared.matched[k]?,
      m.1 ∈ p.shared.waitList ∧ p.shared.waitSession m.1 = m.2 ∧ p.shared.waitSem m.1 = [] ∧
      ∀ t ∈ p.threads, t.linked = some m.1 → t.pc.spent = false
  | .act i .timeout => ∀ t ∈ p.threads[i]?, t.pc = .ackWait →
      ∀ w ∈ t.wait, p.shared.waitSem w = []
  | _ => True

instance (p : Pool Socket Thread) (l : Label Thread Event Env) : Decidable (AwaitedReturn p l) :=
  match l with
  | .env (.signal k) => inferInstanceAs (Decidable (∀ m ∈ p.shared.matched[k]?,
      _ ∧ _ ∧ _ ∧ ∀ t ∈ p.threads, _ → _))
  | .act i .timeout => inferInstanceAs (Decidable (∀ t ∈ p.threads[i]?, t.pc = .ackWait →
      ∀ w ∈ t.wait, _))
  | .act _ .go              => .isTrue trivial
  | .act _ (.bail _)        => .isTrue trivial
  | .act _ .fault           => .isTrue trivial
  | .act _ .mismatch        => .isTrue trivial
  | .env (.otherSession _)  => .isTrue trivial
  | .env (.mipsAck _)       => .isTrue trivial
  | .env .ackAction         => .isTrue trivial
  | .env (.recvReturn _)    => .isTrue trivial
  | .env (.matchReturn _ _) => .isTrue trivial
  | .spawn _                => .isTrue trivial

/-- What a thread knows about the tokens of its object. -/
structure WakeOk (s : Socket) (t : Thread) : Prop where
  linked : ∀ w ∈ t.linked, s.epoch w = t.takenAt ∧
    ∀ k ∈ s.waitSem w, k = ⟨t.session, t.takenAt⟩
  spent : t.pc.spent = true → ∀ w ∈ t.linked, s.waitSem w = []
  hand : t.pc = .link → ∀ w ∈ t.wait, s.epoch w = t.takenAt
  found : t.pc = .await → t.found = t.wait
  token : ∀ k ∈ t.wakeToken, k = ⟨t.session, t.takenAt⟩
  early : t.pc.early = true → t.wakeToken = none

structure WakeInv (dir : Direction) (p : Pool Socket Thread) : Prop where
  pool : PoolInv dir p
  free : ∀ w, w ∉ p.shared.waitList → p.shared.waitSem w = []
  atMost : ∀ w, (p.shared.waitSem w).length ≤ 1
  threads : System.Forall (fun s _ t => WakeOk s t) p

/-! ### Other threads -/

lemma PoolInv.linked_unique {dir : Direction} {p : Pool Socket Thread} (h : PoolInv dir p)
    {i j w : ℕ} {t u : Thread} (ht : p.threads[i]? = some t) (hu : p.threads[j]? = some u)
    (htw : t.linked = some w) (huw : u.linked = some w) : j = i := by
  by_contra hne
  have hle := System.add_le_sum_map (Thread.inList w) hu ht hne
  have hone := h.count_le_one w
  simp only [Thread.inList, htw, huw, if_true] at hle
  omega

lemma PoolInv.not_free {dir : Direction} {p : Pool Socket Thread} (h : PoolInv dir p)
    {j w : ℕ} {u : Thread} (hu : p.threads[j]? = some u)
    (hw : u.linked = some w ∨ u.hand = some w) : w ∉ p.shared.freeWait := by
  rcases hw with hw | hw
  · have hle := System.le_sum_map (Thread.inList w) hu
    simp only [Thread.inList, hw, if_true] at hle
    have hone := h.count_le_one w
    exact count_eq_zero.mp (by omega)
  · exact (h.of_hand hu hw).1

lemma PoolInv.hand_not_linked {dir : Direction} {p : Pool Socket Thread} (h : PoolInv dir p)
    {i j w : ℕ} {t u : Thread} (ht : p.threads[i]? = some t) (hu : p.threads[j]? = some u)
    (htw : t.linked = some w) : u.hand ≠ some w :=
  fun huw => (h.of_hand hu huw).2.1 (h.mem_waitList ht htw)

lemma WakeOk.congr {s s' : Socket} {u : Thread} (hok : WakeOk s u)
    (hsame : ∀ w, u.linked = some w ∨ u.hand = some w →
      s'.epoch w = s.epoch w ∧ s'.waitSem w = s.waitSem w) : WakeOk s' u where
  linked := fun w hw => by
    rw [(hsame w (.inl hw)).1, (hsame w (.inl hw)).2]
    exact hok.linked w hw
  spent := fun hpc w hw => by
    rw [(hsame w (.inl hw)).2]
    exact hok.spent hpc w hw
  hand := fun hpc w hw => by
    rw [(hsame w (.inr (by simpa [Thread.hand, hpc] using hw))).1]
    exact hok.hand hpc w hw
  found := hok.found
  token := hok.token
  early := hok.early

lemma WakeInv.other {dir : Direction} {p : Pool Socket Thread} (h : WakeInv dir p) {s' : Socket}
    {i j : ℕ} {t t' u : Thread} {e : Event} (ht : p.threads[i]? = some t)
    (hu : p.threads[j]? = some u) (hne : j ≠ i) (ha : Acts dir p.shared i t e s' t') :
    ∀ w, u.linked = some w ∨ u.hand = some w →
      s'.epoch w = p.shared.epoch w ∧ s'.waitSem w = p.shared.waitSem w := by
  intro w hw
  cases ha with
  | @take v hpc hv =>
    have hhead := (h.pool.threads i t ht).2.2 hpc
    rw [hv] at hhead
    have hne' : w ≠ v := by
      rintro rfl
      exact h.pool.not_free hu hw (mem_of_mem_head? hhead)
    exact ⟨update_of_ne hne' _ _, rfl⟩
  | @woken v k ks hpc hf hk =>
    have hlinked : t.linked = some v := by
      rw [(h.threads i t ht).found hpc] at hf
      simpa [Thread.linked, hpc] using hf
    have hne' : w ≠ v := by
      rintro rfl
      rcases hw with hw | hw
      · exact hne (h.pool.linked_unique ht hu hlinked hw)
      · exact h.pool.hand_not_linked ht hu hlinked hw
    exact ⟨rfl, update_of_ne hne' _ _⟩
  | release hpc hw hs | releaseEnd hpc hw hs =>
    rw [Socket.releaseWaitComm_frame hs]
    exact ⟨rfl, rfl⟩
  | _ => exact ⟨rfl, rfl⟩

/-! ### The acting thread -/

lemma WakeOk.trivial {s : Socket} {t : Thread} (hlinked : t.linked = none) (hpc : t.pc ≠ .link)
    (hawait : t.pc ≠ .await) (htoken : ∀ k ∈ t.wakeToken, k = ⟨t.session, t.takenAt⟩)
    (hearly : t.pc.early = true → t.wakeToken = none) : WakeOk s t where
  linked := by simp [hlinked]
  spent := by simp [hlinked]
  hand := fun h => absurd h hpc
  found := fun h => absurd h hawait
  token := htoken
  early := hearly

lemma WakeOk.keep {s s' : Socket} {t t' : Thread} (hok : WakeOk s t) (hepoch : s'.epoch = s.epoch)
    (hsem : s'.waitSem = s.waitSem) (hlinked : t'.linked = t.linked)
    (hsession : t'.session = t.session) (htaken : t'.takenAt = t.takenAt)
    (htoken : t'.wakeToken = t.wakeToken)
    (hspent : t'.pc.spent = true → ∀ w ∈ t.linked, s.waitSem w = []) (hpc : t'.pc ≠ .link)
    (hfound : t'.pc = .await → t'.found = t'.wait)
    (hearly : t'.pc.early = true → t.pc.early = true) : WakeOk s' t' where
  linked := by
    rw [hlinked, hsession, htaken, hepoch, hsem]
    exact hok.linked
  spent := by
    rw [hlinked, hsem]
    exact hspent
  hand := fun h => absurd h hpc
  found := hfound
  token := by
    rw [htoken, hsession, htaken]
    exact hok.token
  early := fun h => htoken.trans (hok.early (hearly h))

namespace WakeInv

variable {dir : Direction} {p p' : Pool Socket Thread} {s' : Socket} {i : ℕ} {t t' : Thread}

lemma self {e : Event} (h : WakeInv dir p) (ht : p.threads[i]? = some t)
    (ha : Acts dir p.shared i t e s' t') (hret : AwaitedReturn p (.act i e)) : WakeOk s' t' := by
  have hok := h.threads i t ht
  have hlocal := (h.pool.threads i t ht).1
  cases ha with
  | reject hpc hr | resolve hpc | acquire hpc hr | bypass hpc hr | bail hpc hr | slot hpc
  | copyFault hpc hr | copyIn hpc | mismatch hpc | forward hpc hr | backward hpc hr
  | forget hpc hr hj | session hpc hr hj | spin hpc hr | peek hpc hr =>
    have hw := hlocal.before (by simp [hpc])
    have hnone := hok.early (by simp [hpc, Pc.early])
    refine .trivial ?_ ?_ ?_ ?_ ?_ <;> simp [Thread.linked, hpc, hw, hnone]
  | @take w hpc hw =>
    have hnone := hok.early (by simp [hpc, Pc.early])
    refine ⟨by simp [Thread.linked], by simp [Thread.linked], fun _ v hv => ?_, by simp,
      by simp [hnone], by simp [hnone]⟩
    obtain rfl : w = v := Option.some.inj (hw.symm.trans hv)
    exact update_self ..
  | @link w hpc hw =>
    have hnone := hok.early (by simp [hpc, Pc.early])
    -- the object comes from the hand, so it was not linked and has no token
    have hempty := h.free w (h.pool.of_hand ht (by simp [Thread.hand, hpc, hw])).2.1
    refine ⟨fun v hv => ?_, by simp [Pc.spent], by simp, by simp, by simp [hnone], by simp [hnone]⟩
    obtain rfl : w = v := by simpa [Thread.linked, hw] using hv
    refine ⟨hok.hand hpc w hw, fun k hk => ?_⟩
    rw [show (p.shared.addtoWaitComm w t.session).waitSem w = [] from hempty] at hk
    cases hk
  | backFault hpc | copyBack hpc | dispatch hpc | acked hpc =>
    refine hok.keep rfl rfl ?_ rfl rfl rfl ?_ ?_ ?_ ?_ <;>
      simp [Thread.linked, Pc.spent, Pc.early, hpc]
  | ackTimeout hpc hk hw =>
    have hnone := hok.early (by simp [hpc, Pc.early])
    refine .trivial ?_ ?_ ?_ ?_ ?_ <;> simp [Thread.linked, hnone]
  | @ackTimeoutHeld w hpc hk hw =>
    refine hok.keep rfl rfl ?_ rfl rfl rfl (fun _ v hv => ?_) ?_ ?_ ?_
    · simp [Thread.linked, hpc]
    · exact hret t ht hpc v (by simpa [Thread.linked, hpc] using hv)
    all_goals simp [Pc.early, hpc]
  | unlink hpc hw =>
    have hnone := hok.early (by simp [hpc, Pc.early])
    refine .trivial ?_ ?_ ?_ ?_ ?_ <;> simp [Thread.linked, hnone]
  | release hpc hw hs =>
    have hnone := hok.early (by simp [hpc, Pc.early])
    have hr := hlocal.timedOut (.inr hpc)
    refine .trivial ?_ ?_ ?_ ?_ ?_ <;> simp [Thread.linked, hnone, hr]
  | up hpc hc =>
    have hnone := hok.early (by simp [hpc, Pc.early])
    by_cases hcall : t.job.isCall = true
    · refine .trivial ?_ ?_ ?_ ?_ ?_ <;> simp [Thread.linked, hnone, hcall]
    · refine hok.keep rfl rfl ?_ rfl rfl rfl ?_ ?_ ?_ ?_ <;>
        simp [Thread.linked, Pc.spent, Pc.early, hpc, hcall]
  | upCall hpc hc hr =>
    refine hok.keep rfl rfl ?_ rfl rfl rfl ?_ ?_ ?_ ?_ <;>
      simp [Thread.linked, Pc.spent, Pc.early, hpc, hr]
  | findNone hpc hf =>
    obtain ⟨w, -, -, hfind⟩ := h.pool.find_calling ht (.inl hpc)
    cases hfind.symm.trans hf
  | @find v hpc hf =>
    obtain ⟨w, hw, -, hfind⟩ := h.pool.find_calling ht (.inl hpc)
    rw [hfind] at hf
    refine hok.keep rfl rfl ?_ rfl rfl rfl ?_ ?_ (fun _ => hf.symm.trans hw.symm) ?_ <;>
      simp [Thread.linked, Pc.spent, Pc.early, hpc]
  | @woken w k ks hpc hf hk =>
    have hw : t.wait = some w := (hok.found hpc).symm.trans hf
    obtain ⟨hepoch, htokens⟩ := hok.linked w (by simp [Thread.linked, hpc, hw])
    have hks : ks = [] := by
      have hle := h.atMost w
      rw [hk, length_cons] at hle
      exact length_eq_zero_iff.mp (by omega)
    have hown := htokens k (by simp [hk])
    refine ⟨fun v hv => ?_, fun _ v hv => ?_, by simp, by simp, ?_, by simp [Pc.early]⟩
    · obtain rfl : w = v := by simpa [Thread.linked, hw] using hv
      exact ⟨hepoch, by simp [hks]⟩
    · obtain rfl : w = v := by simpa [Thread.linked, hw] using hv
      simp [hks]
    · simpa using hown
  | @wakeTimeout w hpc hf hk =>
    have hw : t.wait = some w := (hok.found hpc).symm.trans hf
    refine hok.keep rfl rfl ?_ rfl rfl rfl (fun _ v hv => ?_) ?_ ?_ ?_
    · simp [Thread.linked, hpc]
    · obtain rfl : w = v := by simpa [Thread.linked, hpc, hw] using hv
      exact hk
    all_goals simp [Pc.early]
  | drain hpc | lookup hpc | finish hpc =>
    have hspent := hok.spent (by simp [hpc, Pc.spent])
    refine hok.keep rfl rfl ?_ rfl rfl rfl (fun _ => hspent) ?_ ?_ ?_ <;>
      simp [Thread.linked, Pc.early, hpc]
  | notLinked hpc hf =>
    obtain ⟨w, -, -, hfind⟩ := h.pool.find_calling ht (.inr hpc)
    cases hfind.symm.trans hf
  | unlinkEnd hpc hf =>
    refine .trivial ?_ ?_ ?_ hok.token ?_ <;> simp [Thread.linked, Pc.early]
  | releaseEnd hpc hf hs =>
    have hcall := (hlocal.calling (by simp [hpc])).1
    refine .trivial ?_ ?_ ?_ hok.token ?_ <;> simp [Thread.linked, Pc.early, hcall]

lemma free_unlinked {w : ℕ} (h : WakeInv dir p) (ht : p.threads[i]? = some t)
    (hw : t.linked = some w) (hspent : t.pc.spent = true) :
    ∀ v, v ∉ (p.shared.getWaitbySessionId t.session).waitList → p.shared.waitSem v = [] := by
  intro v hv
  simp only [Socket.getWaitbySessionId, h.pool.find_linked ht hw, elim_some] at hv
  by_cases hvw : v = w
  · subst hvw
    exact (h.threads i t ht).spent hspent v hw
  · exact h.free v fun hmem => hv ((mem_erase_of_ne hvw).mpr hmem)

lemma free_act {e : Event} (h : WakeInv dir p) (ht : p.threads[i]? = some t)
    (ha : Acts dir p.shared i t e s' t') : ∀ w, w ∉ s'.waitList → s'.waitSem w = [] := by
  cases ha with
  | @link w hpc hw => exact fun v hv => h.free v fun hmem => hv (mem_append_left _ hmem)
  | @unlink w hpc hw =>
    have hl : t.linked = some w := by simp [Thread.linked, hpc, hw]
    rw [(h.pool.threads i t ht).2.1 w hl]
    exact h.free_unlinked ht hl (by simp [hpc, Pc.spent])
  | unlinkEnd hpc hf =>
    obtain ⟨w, -, hlinked, -⟩ := h.pool.find_calling ht (.inr hpc)
    exact h.free_unlinked ht hlinked (by simp [hpc, Pc.spent])
  | release hpc hw hs | releaseEnd hpc hw hs =>
    rw [Socket.releaseWaitComm_frame hs]
    exact h.free
  | @woken w k ks hpc hf hk =>
    intro v hv
    have hw : t.wait = some w := ((h.threads i t ht).found hpc).symm.trans hf
    have hmem := h.pool.mem_waitList ht (w := w) (by simp [Thread.linked, hpc, hw])
    exact (update_of_ne (by rintro rfl; exact hv hmem) _ _).trans (h.free v hv)
  | _ => exact h.free

lemma atMost_act {e : Event} (h : WakeInv dir p) (ha : Acts dir p.shared i t e s' t') :
    ∀ w, (s'.waitSem w).length ≤ 1 := by
  cases ha with
  | release hpc hw hs | releaseEnd hpc hw hs =>
    rw [Socket.releaseWaitComm_frame hs]
    exact h.atMost
  | @woken w k ks hpc hf hk =>
    intro v
    have hle := h.atMost w
    rw [hk, length_cons] at hle
    by_cases hv : v = w
    · subst hv
      simp only [update_self]
      omega
    · simp only [update_of_ne hv]
      exact h.atMost v
  | _ => exact h.atMost

lemma signal {k w q : ℕ} (h : WakeInv dir p) (hk : p.shared.matched[k]? = some (w, q))
    (hret : AwaitedReturn p (.env (.signal k))) :
    WakeInv dir ⟨Socket.wake { p.shared with matched := p.shared.matched.eraseIdx k } w q,
      p.threads⟩ := by
  obtain ⟨hmem, hsession, hempty, hspent⟩ := hret (w, q) hk
  refine ⟨h.pool.env (.signal hk), fun v hv => ?_, fun v => ?_, fun j u hu => ?_⟩
  · exact (update_of_ne (by rintro rfl; exact hv hmem) _ _).trans (h.free v hv)
  · by_cases hv : v = w
    · subst hv
      simp [Socket.wake, hempty]
    · simp only [Socket.wake, update_of_ne hv]
      exact h.atMost v
  · have hok := h.threads j u hu
    by_cases hl : u.linked = some w
    · have hown := (h.pool.threads j u hu).2.1 w hl
      obtain ⟨hepoch, -⟩ := hok.linked w hl
      have hnot := hspent u (mem_of_getElem? hu) hl
      refine ⟨fun v hv => ?_, fun hs => ?_, hok.hand, hok.found, hok.token, hok.early⟩
      · obtain rfl : w = v := Option.some.inj (hl.symm.trans hv)
        simp [Socket.wake, hempty, hepoch, ← hown, hsession]
      · rw [hnot] at hs
        cases hs
    · refine hok.congr fun v hv => ⟨rfl, update_of_ne ?_ _ _⟩
      rintro rfl
      rcases hv with hv | hv
      · exact hl hv
      · exact (h.pool.of_hand hu hv).2.1 hmem

lemma env {x : Env} (h : WakeInv dir p) (hx : Envs p.shared x s')
    (hret : AwaitedReturn p (.env x)) : WakeInv dir ⟨s', p.threads⟩ := by
  have hpool := h.pool.env hx
  cases hx with
  | signal hk => exact h.signal hk hret
  | recvReturn e =>
    unfold Socket.addReturn2Fifo at hpool ⊢
    split_ifs at hpool ⊢
    · exact ⟨hpool, h.free, h.atMost, fun j u hu => (h.threads j u hu).congr fun _ _ => ⟨rfl, rfl⟩⟩
    · exact h
  | _ =>
    exact ⟨hpool, h.free, h.atMost, fun j u hu => (h.threads j u hu).congr fun _ _ => ⟨rfl, rfl⟩⟩

theorem step {l : Label Thread Event Env} (h : WakeInv dir p)
    (hok : Undisturbed p l ∧ AwaitedReturn p l) (hs : (socket dir).step p l = some p') :
    WakeInv dir p' := by
  have hpool := h.pool.step hok.1 hs
  cases System.steps_of_step hs with
  | @act i e t t' s' ht ha =>
    have hacts := acts_of_act ha
    refine ⟨hpool, h.free_act ht hacts, h.atMost_act hacts, fun j u hu => ?_⟩
    rcases System.getElem?_set_cases hu with ⟨rfl, rfl⟩ | ⟨hne, hu'⟩
    · exact h.self ht hacts hok.2
    · exact (h.threads j u hu').congr (h.other ht hu' hne hacts)
  | env hx => exact h.env (envs_of_env hx) hok.2
  | @spawn t ht =>
    refine ⟨hpool, h.free, h.atMost, fun j u hu => ?_⟩
    rcases System.getElem?_concat_cases hu with ⟨rfl, rfl⟩ | hu'
    · rw [(starts_spec ht).1]
      refine .trivial ?_ ?_ ?_ ?_ ?_ <;> simp [Job.start, Thread.linked]
    · exact h.threads j u hu'

lemma init : WakeInv dir socketInit where
  pool := PoolInv.init
  free := fun _ _ => rfl
  atMost := fun _ => Nat.zero_le 1
  threads := fun i t h => by simp [socketInit] at h

end WakeInv

/-- When each RETURN comes while it is awaited, a wait succeeds only on a RETURN of its own session
that came after the object was taken, and free objects carry no token. -/
theorem wait_succeeds_on_own_return {dir : Direction} {ls : List (Label Thread Event Env)}
    {p : Pool Socket Thread} (hrun : run (socket dir).step socketInit ls = some p)
    (hok : Guarded (socket dir).step (fun q l => Undisturbed q l ∧ AwaitedReturn q l)
      socketInit ls) :
    (∀ t ∈ p.threads, ∀ k ∈ t.wakeToken, k.session = t.session ∧ k.epoch = t.takenAt) ∧
    (∀ w ∈ p.shared.freeWait, p.shared.waitSem w = []) := by
  have hinv : WakeInv dir p := hok.invariant (fun _ _ _ h hok hs => h.step hok hs) WakeInv.init hrun
  refine ⟨fun t ht k hk => ?_, fun w hw => hinv.free w fun hmem => ?_⟩
  · obtain ⟨i, hi⟩ := mem_iff_getElem?.mp ht
    rw [(hinv.threads i t hi).token k hk]
    exact ⟨rfl, rfl⟩
  · have hfree := count_pos_iff.mpr hw
    have hlist := count_pos_iff.mpr hmem
    have hone := hinv.pool.count_le_one w
    rw [hinv.pool.list w] at hlist
    omega

/-- A call whose RETURN comes while it waits. -/
theorem wait_succeeds_on_own_return_call :
    ∃ p, run (socket .call).step socketInit (toAckWait 0 cpuCommCallEx ++ ackAndReturn 0
        ++ [.act 0 .go] ++ mipsReturn 1 0 ++ [.act 0 .go]) = some p ∧
      (p.threads.map Thread.wakeToken) = [some ⟨1, 1⟩] ∧
      ∀ t ∈ p.threads, ∀ k ∈ t.wakeToken, k.session = t.session ∧ k.epoch = t.takenAt := by
  have hok : Guarded (socket .call).step (fun q l => Undisturbed q l ∧ AwaitedReturn q l)
      socketInit (toAckWait 0 cpuCommCallEx ++ ackAndReturn 0
        ++ [.act 0 .go] ++ mipsReturn 1 0 ++ [.act 0 .go]) := by decide
  exact ⟨_, rfl, rfl, (wait_succeeds_on_own_return rfl hok).1⟩

def unansweredCall (i : ℕ) : List (Label Thread Event Env) :=
  toAckWait i cpuCommCallEx ++ ackAndReturn i ++ [.act i .go, .act i .timeout]
    ++ List.replicate 5 (.act i .go)

/-- The RETURN of the first call comes after its release. Twenty calls later the object is handed
out again, and the wait of that call succeeds on the old RETURN. -/
theorem wait_succeeds_on_late_return :
    ∃ ls p t k, run (socket .call).step socketInit ls = some p ∧ p.threads[20]? = some t ∧
      t.wakeToken = some k ∧ t.session = 21 ∧ k.session = 1 := by
  have h : ((run (socket .call).step socketInit
      (unansweredCall 0 ++ mipsReturn 1 0
        ++ (List.range 19).flatMap (fun n => unansweredCall (n + 1))
        ++ toAckWait 20 cpuCommCallEx ++ ackAndReturn 20 ++ [.act 20 .go, .act 20 .go])).bind
      (fun p => p.threads[20]?)).map (fun t => (t.wakeToken, t.session))
      = some (some ⟨1, 1⟩, 21) := by
    decide +kernel
  obtain ⟨t, ht, heq⟩ := map_eq_some_iff.mp h
  obtain ⟨p, hp, hpt⟩ := bind_eq_some_iff.mp ht
  rw [Prod.mk.injEq] at heq
  exact ⟨_, p, t, _, hp, hpt, heq.1, heq.2, rfl⟩

end CpuComm
