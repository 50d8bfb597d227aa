import H713.CpuComm.Socket.WaitPool
import Mathlib.Data.List.Nodup

/-!
# Where the wait objects are

Each of the 20 wait objects is in FreeWait, in SendCmdWaitList or in one thread's hand, in every run
in which no two threads read the head of FreeWait at once and no session is linked twice.
-/

namespace CpuComm

open Machine Function List Option

variable (p : Pool Socket Thread)

def Undisturbed : Label Thread Event Env → Prop
  | .act i _ => ∀ t ∈ p.threads[i]?,
      (t.pc = .peek → ∀ u ∈ p.threads, u.pc ≠ .take) ∧
      (t.pc = .link → ∀ w ∈ p.shared.waitList, p.shared.waitSession w ≠ t.session)
  | _ => True

instance (l : Label Thread Event Env) : Decidable (Undisturbed p l) :=
  match l with
  | .act i _ => inferInstanceAs (Decidable (∀ t ∈ p.threads[i]?,
      (t.pc = .peek → ∀ u ∈ p.threads, _) ∧ (t.pc = .link → ∀ w ∈ p.shared.waitList, _)))
  | .env _   => .isTrue trivial
  | .spawn _ => .isTrue trivial

def NoBackFault : Label Thread Event Env → Prop
  | .act i e => ∀ t ∈ p.threads[i]?, t.pc = .copyBack → e = .fault → t.wait = none
  | _ => True

instance (l : Label Thread Event Env) : Decidable (NoBackFault p l) :=
  match l with
  | .act i _ => inferInstanceAs (Decidable (∀ t ∈ p.threads[i]?, t.pc = .copyBack → _ → _))
  | .env _   => .isTrue trivial
  | .spawn _ => .isTrue trivial

def WaitOk (dir : Direction) (s : Socket) (t : Thread) : Prop :=
  t.Ok dir ∧ (∀ w ∈ t.linked, s.waitSession w = t.session) ∧
    (t.pc = .take → s.freeWait.head? = t.wait)

structure PoolInv (dir : Direction) (p : Pool Socket Thread) : Prop where
  releaseSem : p.shared.releaseSem = 1
  count : ∀ w, p.shared.freeWait.count w + (p.threads.map (Thread.inHand w)).sum
    + (p.threads.map (Thread.inList w)).sum = if w < maxWaitEntries then 1 else 0
  list : ∀ w, p.shared.waitList.count w = (p.threads.map (Thread.inList w)).sum
  sessions : ∀ w ∈ p.shared.waitList, ∀ v ∈ p.shared.waitList,
    p.shared.waitSession w = p.shared.waitSession v → w = v
  threads : System.Forall (fun s _ t => WaitOk dir s t) p
  one : ∀ (i j : ℕ) (t u : Thread), p.threads[i]? = some t → p.threads[j]? = some u →
    t.pc = .take → u.pc = .take → i = j

namespace PoolInv

variable {dir : Direction} {p p' : Pool Socket Thread} {s' : Socket} {i : ℕ} {t t' : Thread}
  {w : ℕ}

lemma init : PoolInv dir socketInit where
  releaseSem := rfl
  count := fun w => by
    simp only [socketInit, initCommSeqMem, map_nil, sum_nil, Nat.add_zero]
    split_ifs with hw
    · exact count_eq_one_of_mem nodup_range (mem_range.mpr hw)
    · exact count_eq_zero_of_not_mem (fun h => hw (mem_range.mp h))
  list := fun w => by simp [socketInit, initCommSeqMem]
  sessions := by simp [socketInit, initCommSeqMem]
  threads := fun i t h => by simp [socketInit] at h
  one := fun i j t u h => by simp [socketInit] at h

/-! ### Reading the counts -/

lemma mem_waitList (h : PoolInv dir p) (ht : p.threads[i]? = some t) (hw : t.linked = some w) :
    w ∈ p.shared.waitList := by
  have hle := System.le_sum_map (Thread.inList w) ht
  simp only [Thread.inList, hw, if_true] at hle
  refine count_pos_iff.mp ?_
  rw [h.list w]
  exact hle

lemma count_le_one (h : PoolInv dir p) (w : ℕ) :
    p.shared.freeWait.count w + (p.threads.map (Thread.inHand w)).sum
      + (p.threads.map (Thread.inList w)).sum ≤ 1 := by
  rw [h.count w]
  split_ifs <;> omega

lemma of_hand (h : PoolInv dir p) (ht : p.threads[i]? = some t) (hw : t.hand = some w) :
    w ∉ p.shared.freeWait ∧ w ∉ p.shared.waitList ∧ w < maxWaitEntries := by
  have hle := System.le_sum_map (Thread.inHand w) ht
  simp only [Thread.inHand, hw, if_true] at hle
  have hone := h.count_le_one w
  have hcount := h.count w
  refine ⟨count_eq_zero.mp (by omega), count_eq_zero.mp ?_, ?_⟩
  · rw [h.list w]
    omega
  · by_contra hw'
    rw [if_neg hw'] at hcount
    omega

lemma find_linked (h : PoolInv dir p) (ht : p.threads[i]? = some t) (hw : t.linked = some w) :
    p.shared.findWaitBySessionId t.session = some w := by
  have hmem := h.mem_waitList ht hw
  have hown := (h.threads i t ht).2.1 w hw
  obtain ⟨v, hv⟩ : ∃ v, p.shared.findWaitBySessionId t.session = some v := by
    rw [← isSome_iff_exists, Socket.findWaitBySessionId, List.find?_isSome]
    exact ⟨w, hmem, by simpa using hown⟩
  obtain ⟨hvmem, hvs⟩ := Socket.findWaitBySessionId_spec hv
  rw [hv, h.sessions v hvmem w hmem (hvs.trans hown.symm)]

lemma find_calling (h : PoolInv dir p) (ht : p.threads[i]? = some t)
    (hpc : t.pc = .find ∨ t.pc = .unlinkEnd) :
    ∃ w, t.wait = some w ∧ t.linked = some w ∧ p.shared.findWaitBySessionId t.session = some w := by
  have hcall := (h.threads i t ht).1.calling
    (hpc.imp_right fun hend => .inr (.inr (.inr (.inr (.inl hend)))))
  obtain ⟨w, hw⟩ := isSome_iff_exists.mp hcall.2
  have hlinked : t.linked = some w := by
    rcases hpc with hpc | hpc <;> simpa [Thread.linked, hpc] using hw
  exact ⟨w, hw, hlinked, h.find_linked ht hlinked⟩

lemma freeWait_length (h : PoolInv dir p) (ht : p.threads[i]? = some t) (hw : t.hand = some w) :
    p.shared.freeWait.length < maxWaitEntries := by
  obtain ⟨hfree, -, hlt⟩ := h.of_hand ht hw
  have hnodup : (w :: p.shared.freeWait).Nodup := by
    refine nodup_cons.mpr ⟨hfree, nodup_iff_count_le_one.mpr fun v => ?_⟩
    have := h.count_le_one v
    omega
  have hsub : w :: p.shared.freeWait ⊆ List.range maxWaitEntries := by
    intro v hv
    rw [mem_range]
    rcases mem_cons.mp hv with rfl | hv
    · exact hlt
    · by_contra hge
      have hc := h.count v
      rw [if_neg hge] at hc
      have := count_pos_iff.mpr hv
      omega
  have hle := (subperm_of_subset hnodup hsub).length_le
  rw [length_cons, length_range] at hle
  exact hle

/-! ### Steps -/

lemma set (h : PoolInv dir p) (ht : p.threads[i]? = some t) (hok : t'.Ok dir)
    (hrel : s'.releaseSem = 1)
    (hcount : ∀ v, s'.freeWait.count v + t'.inHand v + t'.inList v
      = p.shared.freeWait.count v + t.inHand v + t.inList v)
    (hlist : ∀ v, s'.waitList.count v + t.inList v = p.shared.waitList.count v + t'.inList v)
    (hsessions : ∀ w ∈ s'.waitList, ∀ v ∈ s'.waitList,
      s'.waitSession w = s'.waitSession v → w = v)
    (hown : ∀ v ∈ t'.linked, s'.waitSession v = t'.session)
    (hother : ∀ v ∈ p.shared.waitList, s'.waitSession v = p.shared.waitSession v)
    (hhead : t'.pc = .take → s'.freeWait.head? = t'.wait)
    (hheads : ∀ j u, p.threads[j]? = some u → j ≠ i → u.pc = .take →
      s'.freeWait.head? = p.shared.freeWait.head?)
    (hone : t'.pc = .take → ∀ u ∈ p.threads, u.pc ≠ .take) :
    PoolInv dir ⟨s', p.threads.set i t'⟩ where
  releaseSem := hrel
  count := fun v => by
    have hh := System.sum_map_set t' (Thread.inHand v) ht
    have hl := System.sum_map_set t' (Thread.inList v) ht
    have hc := h.count v
    have := hcount v
    simp only
    omega
  list := fun v => by
    have hl := System.sum_map_set t' (Thread.inList v) ht
    have hc := h.list v
    have := hlist v
    simp only
    omega
  sessions := hsessions
  threads := by
    intro j u hu
    rcases System.getElem?_set_cases hu with ⟨rfl, rfl⟩ | ⟨hne, hu'⟩
    · exact ⟨hok, hown, hhead⟩
    · have huok := h.threads j u hu'
      refine ⟨huok.1, fun v hv => ?_, fun hpc => ?_⟩
      · exact (hother v (h.mem_waitList hu' hv)).trans (huok.2.1 v hv)
      · exact (hheads j u hu' hne hpc).trans (huok.2.2 hpc)
  one := by
    intro j k u v hu hv hupc hvpc
    rcases System.getElem?_set_cases hu with ⟨rfl, rfl⟩ | ⟨hj, hu'⟩
    · rcases System.getElem?_set_cases hv with ⟨rfl, rfl⟩ | ⟨-, hv'⟩
      · rfl
      · exact absurd hvpc (hone hupc v (mem_of_getElem? hv'))
    · rcases System.getElem?_set_cases hv with ⟨rfl, rfl⟩ | ⟨-, hv'⟩
      · exact absurd hupc (hone hvpc u (mem_of_getElem? hu'))
      · exact h.one j k u v hu' hv' hupc hvpc

lemma idle (h : PoolInv dir p) (ht : p.threads[i]? = some t) (hok : t'.Ok dir)
    (hi : PoolIdle p.shared s' t t') : PoolInv dir ⟨s', p.threads.set i t'⟩ := by
  refine h.set ht hok (hi.releaseSem.trans h.releaseSem) (fun v => ?_) (fun v => ?_) ?_
    (fun v hv => ?_) (fun v _ => by rw [hi.waitSession]) (fun hpc => absurd hpc hi.notTake)
    (fun _ _ _ _ _ => by rw [hi.freeWait]) (fun hpc => absurd hpc hi.notTake)
  · simp only [Thread.inHand, Thread.inList, hi.freeWait, hi.hand, hi.linked]
  · simp only [Thread.inList, hi.waitList, hi.linked]
  · rw [hi.waitList, hi.waitSession]
    exact h.sessions
  · rw [hi.linked] at hv
    rw [hi.waitSession, hi.session (by simp [mem_def.mp hv])]
    exact (h.threads i t ht).2.1 v hv

lemma peek (h : PoolInv dir p) (ht : p.threads[i]? = some t)
    (hok : Thread.Ok dir { t with wait := some w, pc := .take }) (hpc : t.pc = .peek)
    (hf : p.shared.freeWait.head? = some w) (halone : ∀ u ∈ p.threads, u.pc ≠ .take) :
    PoolInv dir ⟨p.shared, p.threads.set i { t with wait := some w, pc := .take }⟩ := by
  refine h.set ht hok h.releaseSem (fun v => ?_) (fun v => ?_) h.sessions ?_ (fun _ _ => rfl)
    (fun _ => hf) (fun _ _ _ _ _ => rfl) (fun _ => halone)
  all_goals simp [Thread.inHand, Thread.inList, Thread.hand, Thread.linked, hpc]

lemma take (h : PoolInv dir p) (ht : p.threads[i]? = some t)
    (hok : Thread.Ok dir { t with pc := .link, takenAt := p.shared.epoch w + 1 })
    (hpc : t.pc = .take) (hw : t.wait = some w) :
    PoolInv dir ⟨p.shared.takeFreeWait w,
      p.threads.set i { t with pc := .link, takenAt := p.shared.epoch w + 1 }⟩ := by
  have hhead := (h.threads i t ht).2.2 hpc
  rw [hw] at hhead
  obtain ⟨rest, hrest⟩ : ∃ rest, p.shared.freeWait = w :: rest := by
    cases hf : p.shared.freeWait with
    | nil => simp [hf] at hhead
    | cons v rest =>
      rw [hf, List.head?_cons, Option.some.injEq] at hhead
      exact ⟨rest, by rw [hhead]⟩
  refine h.set ht hok h.releaseSem (fun v => ?_) (fun v => ?_) h.sessions ?_ (fun _ _ => rfl)
    (fun hpc => by cases hpc) (fun j u hu hne hupc => ?_) (fun hpc => by cases hpc)
  · simp only [Socket.takeFreeWait, hrest, tail_cons, count_cons, Thread.inHand,
      Thread.inList, Thread.hand, Thread.linked, hpc, hw, Option.some.injEq, beq_iff_eq]
    simp
  · simp [Socket.takeFreeWait, Thread.inList, Thread.linked, hpc]
  · simp [Thread.linked]
  · exact absurd (h.one j i u t hu ht hupc hpc) hne

lemma link (h : PoolInv dir p) (ht : p.threads[i]? = some t)
    (hok : Thread.Ok dir { t with pc := .copyBack }) (hpc : t.pc = .link) (hw : t.wait = some w)
    (hfresh : ∀ v ∈ p.shared.waitList, p.shared.waitSession v ≠ t.session) :
    PoolInv dir ⟨p.shared.addtoWaitComm w t.session,
        p.threads.set i { t with pc := .copyBack }⟩ := by
  obtain ⟨-, hnot, -⟩ := h.of_hand ht (w := w) (by simp [Thread.hand, hpc, hw])
  have hold : ∀ v ∈ p.shared.waitList,
      update p.shared.waitSession w t.session v = p.shared.waitSession v :=
    fun v hv => update_of_ne (by rintro rfl; exact hnot hv) _ _
  refine h.set ht hok h.releaseSem (fun v => ?_) (fun v => ?_) ?_ ?_ hold
    (fun hpc => by cases hpc) (fun _ _ _ _ _ => rfl) (fun hpc => by cases hpc)
  · simp [Socket.addtoWaitComm, Thread.inHand, Thread.inList, Thread.hand, Thread.linked, hpc, hw]
  · simp [Socket.addtoWaitComm, count_append, count_singleton, Thread.inList,
      Thread.linked, hpc, hw]
  · -- only the new object carries the new session
    intro v hv u hu heq
    simp only [Socket.addtoWaitComm, mem_append, mem_singleton] at hv hu heq
    rcases hv with hv | rfl <;> rcases hu with hu | rfl
    · rw [hold v hv, hold u hu] at heq
      exact h.sessions v hv u hu heq
    · rw [hold v hv, update_self] at heq
      exact absurd heq (hfresh v hv)
    · rw [hold u hu, update_self] at heq
      exact absurd heq.symm (hfresh u hu)
    · rfl
  · intro v hv
    obtain rfl : w = v := by simpa [Thread.linked, hw] using hv
    exact update_self ..

lemma unlinked (h : PoolInv dir p) (ht : p.threads[i]? = some t) (hok : t'.Ok dir)
    (hw : t.linked = some w) (hh : t.hand = none) (hw' : t'.hand = some w)
    (hl' : t'.linked = none) (hpc : t'.pc ≠ .take) :
    PoolInv dir ⟨p.shared.getWaitbySessionId t.session, p.threads.set i t'⟩ := by
  have hmem := h.mem_waitList ht hw
  have hlist : (p.shared.getWaitbySessionId t.session).waitList = p.shared.waitList.erase w := by
    simp only [Socket.getWaitbySessionId, h.find_linked ht hw, elim_some]
  have hsub : ∀ v ∈ p.shared.waitList.erase w, v ∈ p.shared.waitList :=
    fun v hv => mem_of_mem_erase hv
  refine h.set ht hok h.releaseSem (fun v => ?_) (fun v => ?_) ?_ (fun v hv => ?_) (fun _ _ => rfl)
    (fun h => absurd h hpc) (fun _ _ _ _ _ => rfl) (fun h => absurd h hpc)
  · simp only [Thread.inHand, Thread.inList, hw, hh, hw', hl', Socket.getWaitbySessionId]
    simp
  · have hpos := count_pos_iff.mpr hmem
    simp only [hlist, Thread.inList, hw, hl', count_erase, beq_iff_eq, Option.some.injEq,
      reduceCtorEq, if_false]
    by_cases hv : w = v
    · subst hv
      simp only [if_true]
      omega
    · simp only [if_neg hv]
      omega
  · rw [hlist]
    exact fun v hv u hu => h.sessions v (hsub v hv) u (hsub u hu)
  · rw [hl'] at hv
    cases hv

lemma released (h : PoolInv dir p) (ht : p.threads[i]? = some t) (hok : t'.Ok dir)
    (hw : t.hand = some w) (hl : t.linked = none) (hs : p.shared.releaseWaitComm w = some s')
    (hh : t'.hand = none) (hl' : t'.linked = none) (hpc : t'.pc ≠ .take) :
    PoolInv dir ⟨s', p.threads.set i t'⟩ := by
  obtain rfl : { p.shared with freeWait := p.shared.freeWait ++ [w] } = s' := by
    simpa [Socket.releaseWaitComm, h.releaseSem, h.freeWait_length ht hw] using hs
  refine h.set ht hok h.releaseSem (fun v => ?_) (fun v => ?_) h.sessions (fun v hv => ?_)
    (fun _ _ => rfl) (fun h => absurd h hpc) (fun j u hu _ hupc => ?_) (fun h => absurd h hpc)
  · simp [count_append, count_singleton, Thread.inHand, Thread.inList, hw, hl, hh, hl']
  · simp [Thread.inList, hl, hl']
  · rw [hl'] at hv
    cases hv
  · -- a thread about to take has seen a head, so the new object goes behind it
    obtain ⟨huok, -, hhead⟩ := h.threads j u hu
    obtain ⟨v, hv⟩ := isSome_iff_exists.mp (huok.during (.inl hupc))
    have hv' := (hhead hupc).trans hv
    simp only [List.head?_append, hv', some_or]

theorem act {e : Event} (h : PoolInv dir p) (ht : p.threads[i]? = some t)
    (ha : Acts dir p.shared i t e s' t') (hun : Undisturbed p (.act i e)) :
    PoolInv dir ⟨s', p.threads.set i t'⟩ := by
  have hok := (h.threads i t ht).1
  have hok' := hok.act ha
  rcases pool_act hok ha with hidle | hacts
  · exact h.idle ht hok' hidle
  · cases hacts with
    | peek hpc hf => exact h.peek ht hok' hpc hf ((hun t ht).1 hpc)
    | take hpc hw => exact h.take ht hok' hpc hw
    | link hpc hw => exact h.link ht hok' hpc hw ((hun t ht).2 hpc)
    | @unlink w hpc hw =>
      have hl : t.linked = some w := by simp [Thread.linked, hpc, hw]
      rw [(h.threads i t ht).2.1 w hl]
      refine h.unlinked ht hok' hl ?_ ?_ ?_ ?_ <;> simp [Thread.hand, Thread.linked, hpc, hw]
    | notLinked hpc hf =>
      -- the thread's own object is linked, so the lookup cannot fail
      obtain ⟨w, -, -, hfind⟩ := h.find_calling ht (.inr hpc)
      cases hfind.symm.trans hf
    | @unlinkEnd w hpc hf =>
      obtain ⟨v, -, hl, hfind⟩ := h.find_calling ht (.inr hpc)
      obtain rfl : v = w := Option.some.inj (hfind.symm.trans hf)
      refine h.unlinked ht hok' hl ?_ ?_ ?_ ?_ <;> simp [Thread.hand, Thread.linked, hpc]
    | release hw hl hs hh hl' hpc => exact h.released ht hok' hw hl hs hh hl' hpc

lemma env {x : Env} (h : PoolInv dir p) (hx : Envs p.shared x s') :
    PoolInv dir ⟨s', p.threads⟩ := by
  have hsame : s'.freeWait = p.shared.freeWait ∧ s'.waitList = p.shared.waitList ∧
      s'.waitSession = p.shared.waitSession ∧ s'.releaseSem = p.shared.releaseSem := by
    cases hx with
    | recvReturn e =>
      unfold Socket.addReturn2Fifo
      split_ifs <;> exact ⟨rfl, rfl, rfl, rfl⟩
    | _ => exact ⟨rfl, rfl, rfl, rfl⟩
  obtain ⟨hfree, hlist, hsession, hrel⟩ := hsame
  refine ⟨hrel.trans h.releaseSem, ?_, ?_, ?_, fun j u hu => ?_, h.one⟩
  · rw [hfree]
    exact h.count
  · rw [hlist]
    exact h.list
  · rw [hlist, hsession]
    exact h.sessions
  · obtain ⟨hok, hown, hhead⟩ := h.threads j u hu
    refine ⟨hok, ?_, ?_⟩
    · rw [hsession]
      exact hown
    · rw [hfree]
      exact hhead

lemma spawn (h : PoolInv dir p) (ht : starts dir t = true) :
    PoolInv dir ⟨p.shared, p.threads ++ [t]⟩ := by
  have hpc : t.pc = .start := by
    rw [(starts_spec ht).1]
    rfl
  refine ⟨h.releaseSem, fun v => ?_, fun v => ?_, h.sessions, fun j u hu => ?_, ?_⟩
  · simpa [Thread.inHand, Thread.inList, Thread.hand, Thread.linked, hpc] using h.count v
  · simpa [Thread.inList, Thread.linked, hpc] using h.list v
  · rcases System.getElem?_concat_cases hu with ⟨rfl, rfl⟩ | hu'
    · refine ⟨.start ht, ?_, ?_⟩ <;> simp [Thread.linked, hpc]
    · exact h.threads j u hu'
  · intro j k u v hu hv hupc hvpc
    rcases System.getElem?_concat_cases hu with ⟨rfl, rfl⟩ | hu'
    · rw [hpc] at hupc
      cases hupc
    · rcases System.getElem?_concat_cases hv with ⟨rfl, rfl⟩ | hv'
      · rw [hpc] at hvpc
        cases hvpc
      · exact h.one j k u v hu' hv' hupc hvpc

theorem step {l : Label Thread Event Env} (h : PoolInv dir p) (hun : Undisturbed p l)
    (hs : (socket dir).step p l = some p') : PoolInv dir p' := by
  cases System.steps_of_step hs with
  | act ht ha => exact h.act ht (acts_of_act ha) hun
  | env hx => exact h.env (envs_of_env hx)
  | spawn ht => exact h.spawn ht

end PoolInv

/-! ### Objects that come back -/

def LeftOk (t : Thread) : Prop :=
  (t.pc = .up ∨ t.pc = .done → t.wait = none ∨ t.ret = 0 ∨ t.ret = -62) ∧
  (t.pc = .find ∨ t.pc = .await ∨ t.pc = .drain ∨ t.pc = .lookup ∨ t.pc = .finish ∨
    t.pc = .unlinkEnd ∨ t.pc = .releaseEnd → t.ret = 0)

lemma LeftOk.act {dir : Direction} {s s' : Socket} {i : ℕ} {t t' : Thread} {e : Event}
    (hleft : LeftOk t) (hok : t.Ok dir) (h : Acts dir s i t e s' t')
    (hfault : t.pc = .copyBack → e = .fault → t.wait = none) : LeftOk t' := by
  cases h with
  | reject hpc | bail hpc | copyFault hpc | mismatch hpc =>
    refine ⟨fun _ => .inl (hok.before (by simp [hpc])), ?_⟩
    simp
  | release hpc hw hs =>
    refine ⟨fun _ => .inr (.inr (hok.timedOut (.inr hpc))), ?_⟩
    simp
  | backFault hpc hu =>
    refine ⟨fun _ => .inl (hfault hpc rfl), ?_⟩
    simp
  | _ => simp_all [LeftOk]

structure ReturnInv (dir : Direction) (p : Pool Socket Thread) : Prop where
  pool : PoolInv dir p
  left : ∀ t ∈ p.threads, LeftOk t

lemma ReturnInv.step {dir : Direction} {p p' : Pool Socket Thread}
    {l : Label Thread Event Env} (h : ReturnInv dir p) (hok : Undisturbed p l ∧ NoBackFault p l)
    (hs : (socket dir).step p l = some p') : ReturnInv dir p' := by
  refine ⟨h.pool.step hok.1 hs, fun u hu => ?_⟩
  cases System.steps_of_step hs with
  | @act i e t t' s' ht ha =>
    rcases mem_or_eq_of_mem_set hu with hu | rfl
    · exact h.left u hu
    · exact (h.left t (mem_of_getElem? ht)).act (h.pool.threads i t ht).1 (acts_of_act ha)
        (hok.2 t ht)
  | env hx => exact h.left u hu
  | spawn ht =>
    rcases mem_append.mp hu with hu | hu
    · exact h.left u hu
    · obtain rfl := mem_singleton.mp hu
      rw [(starts_spec ht).1]
      simp [LeftOk, Job.start]

lemma ReturnInv.holds_nothing {dir : Direction} {p : Pool Socket Thread} (h : ReturnInv dir p)
    (hover : ∀ t ∈ p.threads, t.pc = .done ∧ (t.job.isCall = true ∨ t.wait = none ∨ t.ret ≠ 0)) :
    ∀ t ∈ p.threads, t.hand = none ∧ t.linked = none := by
  intro t ht
  obtain ⟨hpc, hover⟩ := hover t ht
  refine ⟨by simp [Thread.hand, hpc], ?_⟩
  rcases hover with hcall | hw | hret
  · simp [Thread.linked, hpc, hcall]
  · simp [Thread.linked, hpc, hw]
  · rcases (h.left t ht).1 (.inr hpc) with hw | hr | hr
    · simp [Thread.linked, hpc, hw]
    · exact absurd hr hret
    · simp [Thread.linked, hpc, hr]

/-- Every wait object is in exactly one place; and once all sends and calls are over, and no plain
send is left with an object to fetch, all are back in FreeWait. -/
theorem wait_objects_in_one_place {dir : Direction} {ls : List (Label Thread Event Env)}
    {p : Pool Socket Thread} (hrun : run (socket dir).step socketInit ls = some p)
    (hok : Guarded (socket dir).step (fun q l => Undisturbed q l ∧ NoBackFault q l)
      socketInit ls) :
    (∀ w < maxWaitEntries, p.shared.freeWait.count w + p.shared.waitList.count w
      + (p.threads.map (Thread.inHand w)).sum = 1) ∧
    ((∀ t ∈ p.threads, t.pc = .done ∧ (t.job.isCall = true ∨ t.wait = none ∨ t.ret ≠ 0)) →
      p.shared.freeWait.Perm (List.range maxWaitEntries)) := by
  have hinv : ReturnInv dir p := hok.invariant (fun _ _ _ h hok hs => h.step hok hs)
    ⟨PoolInv.init, by simp [socketInit]⟩ hrun
  refine ⟨fun w hw => ?_, fun hover => ?_⟩
  · have hcount := hinv.pool.count w
    rw [if_pos hw] at hcount
    rw [hinv.pool.list w]
    omega
  · have hnone := hinv.holds_nothing hover
    refine perm_iff_count.mpr fun w => ?_
    have hhand : (p.threads.map (Thread.inHand w)).sum = 0 :=
      System.sum_map_eq_zero fun t ht => by simp [Thread.inHand, (hnone t ht).1]
    have hlist : (p.threads.map (Thread.inList w)).sum = 0 :=
      System.sum_map_eq_zero fun t ht => by simp [Thread.inList, (hnone t ht).2]
    have hcount := hinv.pool.count w
    have hinit := (PoolInv.init : PoolInv dir socketInit).count w
    simp only [socketInit, initCommSeqMem, map_nil, sum_nil] at hinit
    omega

def toAckWait (i : ℕ) (j : Job) : List (Label Thread Event Env) :=
  .spawn j.start :: List.replicate 11 (.act i .go)

def ackAndReturn (i : ℕ) : List (Label Thread Event Env) :=
  [.env (.mipsAck i), .env .ackAction, .act i .go, .act i .go]

def mipsReturn (q w : ℕ) : List (Label Thread Event Env) :=
  [.env (.recvReturn ⟨q, 1⟩), .env (.matchReturn q (some w)), .env (.signal 0)]

/-- A call that is answered in time. -/
theorem wait_objects_in_one_place_call :
    ∃ p, run (socket .call).step socketInit (toAckWait 0 cpuCommCallEx ++ ackAndReturn 0
        ++ [.act 0 .go] ++ mipsReturn 1 0 ++ List.replicate 6 (.act 0 .go)) = some p ∧
      p.shared.freeWait.Perm (List.range maxWaitEntries) := by
  have hok : Guarded (socket .call).step (fun q l => Undisturbed q l ∧ NoBackFault q l)
      socketInit (toAckWait 0 cpuCommCallEx ++ ackAndReturn 0
        ++ [.act 0 .go] ++ mipsReturn 1 0 ++ List.replicate 6 (.act 0 .go)) := by decide
  exact ⟨_, rfl, (wait_objects_in_one_place rfl hok).2 (by decide)⟩

/-- A send that faults on the copy back returns an error, and its wait object stays in
SendCmdWaitList. -/
theorem wait_object_lost_on_copy_back :
    ∃ ls p, run (socket .call).step socketInit ls = some p ∧
      (∀ t ∈ p.threads, t.pc = .done ∧ t.ret ≠ 0) ∧ p.shared.waitList = [0] ∧
      ¬ p.shared.freeWait.Perm (List.range maxWaitEntries) :=
  ⟨.spawn (sendComm2Cpu true false false 0).start :: List.replicate 9 (.act 0 .go)
      ++ [.act 0 .fault, .act 0 .go],
    _, rfl, by decide, rfl, by decide⟩

end CpuComm
