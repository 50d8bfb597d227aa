import H713.CpuComm.SpinLock.Threads

/-!
# Exclusion by the spinlocks

A thread is inside a lock from its store of the owner byte in `enterCritical` to that in
`leaveCritical`. If no second thread comes inside meanwhile, the count and the thread id tell who
holds the lock and how often.
-/

namespace CpuComm

open Machine Function Option

/-! ### The condition on a step -/

namespace SpinPc

def inside : SpinPc → Bool
  | .idle | .enter _ .hwLock | .enter _ (.claim _) | .lock _ _ .sanity | .lock _ _ .retry => false
  | _ => true

def claiming : SpinPc → Bool
  | .enter _ (.claim _) => true
  | _ => false

def exhausted : SpinPc → Bool
  | .lock _ retries .retry => 10000 ≤ retries
  | .lock _ _ (.storeCount count) => 2147483648 ≤ count + 1
  | _ => false

def unlocking : SpinPc → Bool
  | .enter .unlock _ | .unlock _ => true
  | _ => false

end SpinPc

variable (id : Fin 12)

def SpinThread.Inside (t : SpinThread) : Prop := t.lockId = id ∧ t.pc.inside = true

instance : DecidablePred (SpinThread.Inside id) := fun _ =>
  inferInstanceAs (Decidable (_ ∧ _))

variable (p : Pool SpinLocks SpinThread)

def SpinThread.Ok (i : ℕ) (t : SpinThread) : Prop :=
  t.pc.exhausted = false ∧
    (t.pc.claiming = true →
      (∀ u ∈ p.threads.eraseIdx i, ¬SpinThread.Inside t.lockId u) ∧
      (t.pc.unlocking = false → t.tgid ≠ spinlockHwidNone) ∧
      (t.pc.unlocking = true →
        (p.shared t.lockId).entry.refCount = 0 ∨ 0 < (p.shared t.lockId).held t.tgid))

instance (i : ℕ) (t : SpinThread) : Decidable (t.Ok p i) :=
  inferInstanceAs (Decidable (_ ∧ _))

def SpinOk : Label SpinThread SpinEvent (Fin 12 × Bool) → Prop
  | .act i _ => ∀ t ∈ p.threads[i]?, t.Ok p i
  | _ => True

instance (l : Label SpinThread SpinEvent (Fin 12 × Bool)) :
    Decidable (SpinOk p l) :=
  match l with
  | .act i _ => inferInstanceAs (Decidable (∀ t ∈ p.threads[i]?, t.Ok p i))
  | .env _ => .isTrue trivial
  | .spawn _ => .isTrue trivial

/-! ### What the entry says -/

def soleHold (tgid n : ℕ) : ℕ → ℕ := Function.update (fun _ => 0) tgid n

namespace SpinEntry

/-- Nobody is inside: the entry names the holder and how often it holds the lock. -/
structure Settled (e : SpinEntry) (held : ℕ → ℕ) : Prop where
  held_eq : held = soleHold e.threadId e.refCount
  none_iff : e.threadId = spinlockHwidNone ↔ e.refCount = 0
  count_lt : e.refCount < 2147483648

variable (e : SpinEntry)

def LockBusy (held : ℕ → ℕ) (tgid : ℕ) : LockPc → Prop
  | .ownerIsUs => e.Settled held ∧ e.owner = Table.getCurCPUID
  | .threadIsNone | .mutexIsClear | .threadIsUs | .leaveBusy => e.Settled held
  | .setThread => e.Settled held ∧ e.refCount = 0
  | .loadCount => e.threadId = tgid ∧ e.refCount < 2147483648 ∧ held = soleHold tgid e.refCount
  | .storeCount count => e.threadId = tgid ∧ e.refCount < 2147483648 ∧ held = soleHold tgid count
  | .leaveLocked =>
    e.threadId = tgid ∧ e.refCount < 2147483648 ∧ ∃ n, e.refCount = n + 1 ∧ held = soleHold tgid n
  | .sanity | .retry | .ownerIsFree | .reclaim => False

def UnlockBusy (held : ℕ → ℕ) (tgid : ℕ) : UnlockPc → Prop
  | .countIsZero =>
    e.Settled held ∧ e.owner = Table.getCurCPUID ∧ (e.refCount = 0 ∨ e.threadId = tgid)
  | .ownerIsFree =>
    e.Settled held ∧ e.owner = Table.getCurCPUID ∧ 0 < e.refCount ∧ e.threadId = tgid
  | .threadIsNone | .loadCount => e.Settled held ∧ 0 < e.refCount ∧ e.threadId = tgid
  | .storeCount count =>
    e.Settled held ∧ 0 < e.refCount ∧ e.threadId = tgid ∧ count = e.refCount
  | .leaveEarly => e.Settled held ∧ e.refCount = 0
  | .freeOwner | .clearThread => e.refCount = 0 ∧ e.threadId = tgid ∧ held = soleHold tgid 1
  | .leaveUnlocked =>
    e.refCount < 2147483648 ∧ (e.threadId = spinlockHwidNone ↔ e.refCount = 0) ∧
      (e.refCount = 0 ∨ e.threadId = tgid) ∧ held = soleHold tgid (e.refCount + 1)

def Busy (held : ℕ → ℕ) (tgid : ℕ) : SpinPc → Prop
  | .enter (.lock _ _) .hwUnlock => tgid ≠ spinlockHwidNone ∧ e.LockBusy held tgid .ownerIsUs
  | .enter .unlock .hwUnlock => e.UnlockBusy held tgid .countIsZero
  | .lock _ _ k => tgid ≠ spinlockHwidNone ∧ e.LockBusy held tgid k
  | .unlock k => e.UnlockBusy held tgid k
  | _ => False

end SpinEntry

lemma soleHold_zero (g : ℕ) : soleHold g 0 = fun _ => 0 :=
  update_eq_self g fun _ => (0 : ℕ)

lemma eq_of_soleHold_pos {tgid n g : ℕ} (h : 0 < soleHold tgid n g) : g = tgid := by
  by_contra hne
  rw [soleHold, update_of_ne hne] at h
  cases h

lemma soleHold_self (tgid n : ℕ) : soleHold tgid n tgid = n := update_self ..

lemma update_soleHold (tgid n m : ℕ) :
    update (soleHold tgid n) tgid m = soleHold tgid m := update_idem ..

namespace SpinCell

variable {c c' : SpinCell} {tgid retries : ℕ} {mode : LockMode} {pc pc' : SpinPc}

lemma of_busy (h : c.entry.Busy c.held tgid pc) :
    c.entry.refCount < 2147483648 ∧ ∃ g n, c.held = soleHold g n := by
  have of_settled (hs : c.entry.Settled c.held) :
      c.entry.refCount < 2147483648 ∧ ∃ g n, c.held = soleHold g n :=
    ⟨hs.count_lt, _, _, hs.held_eq⟩
  cases pc with
  | idle => exact h.elim
  | enter call k =>
    cases k with
    | hwUnlock =>
      cases call with
      | lock => exact of_settled h.2.1
      | unlock => exact of_settled h.1
    | hwLock | claim => cases call <;> exact h.elim
  | lock mode retries k =>
    obtain ⟨-, h⟩ := h
    cases k with
    | ownerIsUs | setThread => exact of_settled h.1
    | threadIsNone | mutexIsClear | threadIsUs | leaveBusy => exact of_settled h
    | loadCount | storeCount => exact ⟨h.2.1, _, _, h.2.2⟩
    | leaveLocked =>
      obtain ⟨-, hlt, n, -, hheld⟩ := h
      exact ⟨hlt, _, n, hheld⟩
    | sanity | retry | ownerIsFree | reclaim => exact h.elim
  | unlock k =>
    cases k with
    | countIsZero | ownerIsFree | threadIsNone | loadCount | storeCount | leaveEarly =>
      exact of_settled h.1
    | freeOwner | clearThread => exact ⟨by rw [h.1]; decide, _, _, h.2.2⟩
    | leaveUnlocked => exact ⟨h.1, _, _, h.2.2.2⟩

lemma inside_of_outside (h : Accesses c tgid pc c' pc') (hout : pc.inside = false) :
    pc'.inside = pc.claiming := by
  cases h with
  | @enter call _ _ _ h =>
    cases h with
    | wait | claim => rfl
    | force => cases call <;> rfl
    | entered => cases hout
  | @lock mode retries k _ _ h =>
    cases k with
    | sanity | retry =>
      rw [lockAct] at h
      split_ifs at h <;> cases h <;> rfl
    | _ => cases hout
  | unlock => cases hout

lemma outside_access (h : Accesses c tgid pc c' pc') (hlt : c.entry.refCount < 2147483648)
    (hex : pc.exhausted = false) (hout : pc.inside = false) (hclaim : pc.claiming = false) :
    c'.entry = c.entry ∧ c'.held = c.held := by
  cases h with
  | enter h =>
    cases h with
    | wait gotHw he hh => exact ⟨he, hh⟩
    | claim | force => cases hclaim
    | entered => cases hout
  | @lock mode retries k _ _ h =>
    cases k with
    | sanity =>
      have hpos : ¬ i32 c.entry.refCount < 0 := by
        rw [i32_of_lt hlt]
        omega
      rw [lockAct, if_neg hpos] at h
      cases h
      exact ⟨rfl, rfl⟩
    | retry =>
      have hleft : ¬ retries + 1 > 10000 := by
        simp only [SpinPc.exhausted, decide_eq_false_iff_not] at hex
        omega
      rw [lockAct, if_neg hleft] at h
      cases h
      exact ⟨rfl, rfl⟩
    | _ => cases hout
  | unlock => cases hout

lemma claim_access (h : Accesses c tgid pc c' pc') (hclaim : pc.claiming = true)
    (hs : c.entry.Settled c.held) (hlock : pc.unlocking = false → tgid ≠ spinlockHwidNone)
    (hunlock : pc.unlocking = true → c.entry.refCount = 0 ∨ 0 < c.held tgid) :
    c'.entry.Busy c'.held tgid pc' := by
  have hs' : (c.setOwner Table.getCurCPUID).entry.Settled c.held :=
    ⟨hs.held_eq, hs.none_iff, hs.count_lt⟩
  have hheld : pc.unlocking = true → c.entry.refCount = 0 ∨ c.entry.threadId = tgid := by
    refine fun hpc => (hunlock hpc).imp_right fun hpos => ?_
    rw [hs.held_eq] at hpos
    exact (eq_of_soleHold_pos hpos).symm
  cases h with
  | @enter call _ _ _ h =>
    cases h with
    | claim | force =>
      cases call with
      | lock => exact ⟨hlock rfl, hs', rfl⟩
      | unlock => exact ⟨hs', rfl, hheld rfl⟩
    | wait | entered => cases hclaim
  | lock | unlock => cases hclaim

lemma lockAct_busy {k : LockPc} (h : c.lockAct tgid mode retries k = (c', pc'))
    (hex : (SpinPc.lock mode retries k).exhausted = false) (htgid : tgid ≠ spinlockHwidNone)
    (hb : c.entry.LockBusy c.held tgid k) :
    (pc'.inside = true → c'.entry.Busy c'.held tgid pc') ∧
      (pc'.inside = false → c'.entry.Settled c'.held) := by
  cases k with
  | sanity | retry | ownerIsFree | reclaim => exact hb.elim
  | ownerIsUs =>
    cases h
    rw [if_pos hb.2]
    exact ⟨fun _ => ⟨htgid, hb.1⟩, nofun⟩
  | threadIsNone =>
    cases h
    split_ifs with hnone
    · exact ⟨fun _ => ⟨htgid, hb, hb.none_iff.mp hnone⟩, nofun⟩
    · exact ⟨fun _ => ⟨htgid, hb⟩, nofun⟩
  | setThread =>
    cases h
    refine ⟨fun _ => ⟨htgid, rfl, hb.1.count_lt, ?_⟩, nofun⟩
    change c.held = soleHold tgid c.entry.refCount
    rw [hb.1.held_eq, hb.2, soleHold_zero, soleHold_zero]
  | loadCount =>
    cases h
    exact ⟨fun _ => ⟨htgid, hb⟩, nofun⟩
  | storeCount count =>
    cases h
    have hcount : count + 1 < 2147483648 := by
      simp only [SpinPc.exhausted, decide_eq_false_iff_not] at hex
      omega
    have hu32 : u32 (count + 1) = count + 1 := u32_of_lt (by omega)
    refine ⟨fun _ => ⟨htgid, hb.1, ?_, count, hu32, hb.2.2⟩, nofun⟩
    change u32 (count + 1) < _
    rw [hu32]
    exact hcount
  | leaveLocked =>
    cases h
    obtain ⟨hthread, hlt, n, hcount, hheld⟩ := hb
    refine ⟨nofun, fun _ => ⟨?_, ?_, hlt⟩⟩
    · change update c.held tgid (c.held tgid + 1)
        = soleHold c.entry.threadId c.entry.refCount
      rw [hthread, hcount, hheld, soleHold_self, update_soleHold]
    · change c.entry.threadId = spinlockHwidNone ↔ c.entry.refCount = 0
      rw [hthread, hcount]
      exact iff_of_false htgid n.succ_ne_zero
  | mutexIsClear =>
    cases h
    split_ifs <;> exact ⟨fun _ => ⟨htgid, hb⟩, nofun⟩
  | threadIsUs =>
    cases h
    split_ifs with hus
    · refine ⟨fun _ => ⟨htgid, hus, hb.count_lt, ?_⟩, nofun⟩
      rw [hb.held_eq, hus]
    · exact ⟨fun _ => ⟨htgid, hb⟩, nofun⟩
  | leaveBusy =>
    cases h
    refine ⟨fun hin => ?_, fun _ => ⟨hb.held_eq, hb.none_iff, hb.count_lt⟩⟩
    split_ifs at hin <;> cases hin

lemma unlockAct_busy {k : UnlockPc} (h : c.unlockAct tgid k = (c', pc'))
    (hb : c.entry.UnlockBusy c.held tgid k) :
    (pc'.inside = true → c'.entry.Busy c'.held tgid pc') ∧
      (pc'.inside = false → c'.entry.Settled c'.held) := by
  cases k with
  | countIsZero =>
    cases h
    obtain ⟨hs, howner, hus⟩ := hb
    rw [i32_of_lt hs.count_lt]
    split_ifs with hzero
    · exact ⟨fun _ => ⟨hs, by omega⟩, nofun⟩
    · exact ⟨fun _ => ⟨hs, howner, by omega, hus.resolve_left (by omega)⟩, nofun⟩
  | ownerIsFree =>
    cases h
    rw [if_neg (by rw [hb.2.1]; decide)]
    exact ⟨fun _ => ⟨hb.1, hb.2.2⟩, nofun⟩
  | threadIsNone =>
    cases h
    have hsome : c.entry.threadId ≠ spinlockHwidNone :=
      fun hnone => hb.2.1.ne' (hb.1.none_iff.mp hnone)
    rw [if_neg hsome]
    exact ⟨fun _ => hb, nofun⟩
  | loadCount =>
    cases h
    exact ⟨fun _ => ⟨hb.1, hb.2.1, hb.2.2, rfl⟩, nofun⟩
  | storeCount count =>
    cases h
    obtain ⟨hs, hpos, hus, rfl⟩ := hb
    have hlt := hs.count_lt
    have hsub : sub32 c.entry.refCount 1 = c.entry.refCount - 1 := sub32_of_le hpos (by omega)
    have hsome : c.entry.threadId ≠ spinlockHwidNone := fun h => hpos.ne' (hs.none_iff.mp h)
    have hheld : c.held = soleHold tgid (c.entry.refCount - 1 + 1) := by
      rw [hs.held_eq, hus, Nat.sub_add_cancel hpos]
    rw [hsub]
    split_ifs with hzero
    · refine ⟨fun _ => ⟨hzero, hus, ?_⟩, nofun⟩
      rw [hzero] at hheld
      exact hheld
    · exact ⟨fun _ => ⟨Nat.lt_of_le_of_lt (Nat.sub_le ..) hlt, iff_of_false hsome hzero, .inr hus,
        hheld⟩, nofun⟩
  | freeOwner =>
    cases h
    exact ⟨fun _ => hb, nofun⟩
  | clearThread =>
    cases h
    obtain ⟨hzero, -, hheld⟩ := hb
    refine ⟨fun _ => ⟨?_, iff_of_true rfl hzero, .inl hzero, ?_⟩, nofun⟩
    · change c.entry.refCount < _
      rw [hzero]
      decide
    · change c.held = soleHold tgid (c.entry.refCount + 1)
      rw [hzero, hheld]
  | leaveEarly =>
    cases h
    obtain ⟨hs, hzero⟩ := hb
    refine ⟨nofun, fun _ => ⟨?_, hs.none_iff, hs.count_lt⟩⟩
    change update c.held tgid (c.held tgid - 1)
      = soleHold c.entry.threadId c.entry.refCount
    rw [hs.held_eq, hzero, soleHold_zero]
    exact update_eq_self tgid fun _ => (0 : ℕ)
  | leaveUnlocked =>
    cases h
    obtain ⟨hlt, hnone, hus, hheld⟩ := hb
    refine ⟨nofun, fun _ => ⟨?_, hnone, hlt⟩⟩
    change update c.held tgid (c.held tgid - 1)
      = soleHold c.entry.threadId c.entry.refCount
    rw [hheld, soleHold_self, Nat.add_sub_cancel, update_soleHold]
    rcases hus with hzero | hus
    · rw [hzero, soleHold_zero, soleHold_zero]
    · rw [hus]

lemma inside_access (h : Accesses c tgid pc c' pc') (hex : pc.exhausted = false)
    (hb : c.entry.Busy c.held tgid pc) :
    (pc'.inside = true → c'.entry.Busy c'.held tgid pc') ∧
      (pc'.inside = false → c'.entry.Settled c'.held) := by
  cases h with
  | @enter call _ _ _ h =>
    cases h with
    | entered he hh =>
      rw [he, hh]
      cases call with
      | lock => exact ⟨fun _ => hb, nofun⟩
      | unlock => exact ⟨fun _ => hb, nofun⟩
    | wait | claim | force => cases call <;> exact hb.elim
  | lock h => exact lockAct_busy h hex hb.1 hb.2
  | unlock h => exact unlockAct_busy h hb

lemma unlocking_access (h : Accesses c tgid pc c' pc') (hpc : pc.unlocking = true)
    (hb : pc.inside = true → c.entry.Busy c.held tgid pc) (hzero : c.held tgid = 0) :
    c'.entry.refCount = c.entry.refCount ∧ c'.entry.threadId = c.entry.threadId := by
  cases h with
  | enter h =>
    cases h with
    | wait gotHw he hh | entered he hh => rw [he]; exact ⟨rfl, rfl⟩
    | claim | force => exact ⟨rfl, rfl⟩
  | lock => cases hpc
  | @unlock k _ _ h =>
    have hb := hb rfl
    cases k with
    | storeCount count =>
      obtain ⟨hs, hpos, hus, -⟩ := hb
      rw [hs.held_eq, hus, soleHold_self] at hzero
      omega
    | clearThread =>
      obtain ⟨-, -, hheld⟩ := hb
      rw [hheld, soleHold_self] at hzero
      cases hzero
    | _ =>
      cases h
      exact ⟨rfl, rfl⟩

end SpinCell

/-! ### Runs -/

def SpinOwned : Pool SpinLocks SpinThread → Prop :=
  System.Owned (SpinThread.Inside id) (fun s => (s id).entry.Settled (s id).held)
    (fun s t => (s id).entry.Busy (s id).held t.tgid t.pc)

lemma spinInit_owned : SpinOwned id spinInit where
  unique _ _ _ _ h := by cases h
  busy _ _ h := by cases h
  free _ := ⟨(soleHold_zero 255).symm, iff_of_true rfl rfl, (by decide : 0 < 2147483648)⟩

lemma spinOwned_step {p p' : Pool SpinLocks SpinThread}
    {l : Label SpinThread SpinEvent (Fin 12 × Bool)} (hp : SpinOwned id p)
    (hok : SpinOk p l) (h : spinSystem.step p l = some p') : SpinOwned id p' := by
  refine System.owned_step ?_ ?_ ?_ ?_ ?_ h hp
  · -- a thread that stays outside
    rintro i t e s' t' rfl ht ha hout hout'
    rcases spinAct_cases ha with ⟨-, rfl, -⟩ | ⟨c', pc, hc, rfl, rfl⟩
    · exact ⟨fun h => h, fun _ h => h⟩
    by_cases hid : t.lockId = id
    · subst hid
      have hacc := accesses_of_cellAct hc
      have hpc : t.pc.inside = false := Bool.eq_false_iff.mpr fun h => hout ⟨rfl, h⟩
      have hclaim : t.pc.claiming = false := by
        rw [← SpinCell.inside_of_outside hacc hpc]
        exact Bool.eq_false_iff.mpr fun h => hout' ⟨rfl, h⟩
      have hsame := fun hlt => SpinCell.outside_access hacc hlt (hok t ht).1 hpc hclaim
      simp only [update_self]
      refine ⟨fun hs => ?_, fun u hb => ?_⟩
      · rw [(hsame hs.count_lt).1, (hsame hs.count_lt).2]
        exact hs
      · rw [(hsame (SpinCell.of_busy hb).1).1, (hsame (SpinCell.of_busy hb).1).2]
        exact hb
    · simp only [update_of_ne (Ne.symm hid)]
      exact ⟨fun h => h, fun _ h => h⟩
  · -- a thread that goes inside
    rintro i t e s' t' rfl ht ha hout ⟨hid, hin⟩
    rcases spinAct_cases ha with ⟨-, rfl, -, ⟨mode, hpc⟩ | hpc⟩ | ⟨c', pc, hc, rfl, rfl⟩
    · rw [hpc] at hin
      cases hin
    · rw [hpc] at hin
      cases hin
    · simp only at hid
      subst hid
      have hacc := accesses_of_cellAct hc
      have hpc : t.pc.inside = false := Bool.eq_false_iff.mpr fun h => hout ⟨rfl, h⟩
      have hclaim : t.pc.claiming = true := by rw [← SpinCell.inside_of_outside hacc hpc, hin]
      obtain ⟨halone, hlock, hunlock⟩ := (hok t ht).2 hclaim
      refine ⟨halone, fun hs => ?_⟩
      simp only [update_self]
      exact SpinCell.claim_access hacc hclaim hs hlock hunlock
  · -- a thread inside
    rintro i t e s' t' rfl ht ha ⟨rfl, hin⟩ hb
    rcases spinAct_cases ha with ⟨hidle, -⟩ | ⟨c', pc, hc, rfl, rfl⟩
    · rw [hidle] at hin
      cases hin
    · obtain ⟨hstay, hleave⟩ :=
        SpinCell.inside_access (accesses_of_cellAct hc) (hok t ht).1 hb
      simp only [update_self]
      exact ⟨fun h => hstay h.2, fun h => hleave (Bool.eq_false_iff.mpr fun h' => h ⟨rfl, h'⟩)⟩
  · -- the other CPU on a hardware lock
    rintro ⟨id', b⟩ s' rfl hx
    cases hx
    by_cases hid : id' = id
    · subst hid
      simp only [update_self]
      exact ⟨fun h => h, fun _ h => h⟩
    · simp only [update_of_ne (Ne.symm hid)]
      exact ⟨fun h => h, fun _ h => h⟩
  · intro t ht hin
    have hidle : t.pc = .idle := by simpa [spinSystem] using ht
    rw [SpinThread.Inside, hidle] at hin
    cases hin.2

/-- While the steps meet the condition two processes never hold a lock together, and an unlock by
another process leaves its count and its thread id. -/
theorem spinLock_exclusive (ls : List (Label SpinThread SpinEvent (Fin 12 × Bool)))
    (p : Pool SpinLocks SpinThread) (hok : Guarded spinSystem.step SpinOk spinInit ls)
    (hrun : run spinSystem.step spinInit ls = some p) (id : Fin 12) :
    (∀ g g', 0 < (p.shared id).held g → 0 < (p.shared id).held g' → g = g') ∧
    ∀ (i : ℕ) t e s' t', p.threads[i]? = some t → t.lockId = id → t.pc.unlocking = true →
      (p.shared id).held t.tgid = 0 → t.act p.shared e = some (s', t') →
      (s' id).entry.refCount = (p.shared id).entry.refCount ∧
        (s' id).entry.threadId = (p.shared id).entry.threadId := by
  have hown : SpinOwned id p :=
    hok.invariant (fun _ _ _ hp hok h => spinOwned_step id hp hok h) (spinInit_owned id) hrun
  constructor
  · have hsole : ∃ g n, (p.shared id).held = soleHold g n := by
      by_cases hin : ∃ (i : ℕ) (t : SpinThread), p.threads[i]? = some t ∧ t.Inside id
      · obtain ⟨i, t, ht, hin⟩ := hin
        exact (SpinCell.of_busy (hown.busy i t ht hin)).2
      · exact ⟨_, _, (hown.free fun i t ht h => hin ⟨i, t, ht, h⟩).held_eq⟩
    obtain ⟨g, n, hheld⟩ := hsole
    intro g₁ g₂ h₁ h₂
    rw [hheld] at h₁ h₂
    rw [eq_of_soleHold_pos h₁, eq_of_soleHold_pos h₂]
  · rintro i t e s' t' ht rfl hpc hzero ha
    rcases spinAct_cases ha with ⟨hidle, -⟩ | ⟨c', pc, hc, rfl, rfl⟩
    · rw [hidle] at hpc
      cases hpc
    · simp only [update_self]
      exact SpinCell.unlocking_access (accesses_of_cellAct hc) hpc
        (fun hin => hown.busy i t ht ⟨rfl, hin⟩) hzero

def spinTurns : List (Label SpinThread SpinEvent (Fin 12 × Bool)) :=
  [.spawn ⟨40, 0, .idle⟩, .spawn ⟨41, 0, .idle⟩, .act 0 (.callLock 3 .exclusive)] ++
    List.replicate 11 (.act 0 .go) ++ [.act 1 (.callLock 3 .tryLock)] ++
    List.replicate 10 (.act 1 .go) ++ [.act 0 (.callUnlock 3)]

theorem spinLock_exclusive_turns :
    ∃ p, run spinSystem.step spinInit spinTurns = some p ∧ (p.shared 3).held 40 = 1 ∧
      ∀ g g', 0 < (p.shared 3).held g → 0 < (p.shared 3).held g' → g = g' := by
  have hheld : (run spinSystem.step spinInit spinTurns).map (fun p => (p.shared 3).held 40)
      = some 1 := by
    decide +kernel
  obtain ⟨p, hp, h40⟩ := map_eq_some_iff.mp hheld
  exact ⟨p, hp, h40, (spinLock_exclusive spinTurns p (by decide +kernel) hp 3).1⟩

def spinRace : List (Label SpinThread SpinEvent (Fin 12 × Bool)) :=
  [.spawn ⟨40, 0, .idle⟩, .spawn ⟨41, 0, .idle⟩, .act 0 (.callLock 3 .exclusive),
    .act 1 (.callLock 3 .exclusive)] ++
    List.replicate 7 (.act 0 .go) ++ List.replicate 7 (.act 1 .go) ++
    List.replicate 4 (.act 0 .go) ++ List.replicate 4 (.act 1 .go)

/-- Then both hold the lock, and a third process that never locked it takes one from the count. -/
theorem spinLock_held_twice :
    (∃ p, run spinSystem.step spinInit spinRace = some p ∧
      0 < (p.shared 3).held 40 ∧ 0 < (p.shared 3).held 41) ∧
    ∃ p p', run spinSystem.step spinInit (spinRace ++ [.spawn ⟨42, 3, .idle⟩,
        .act 2 (.callUnlock 3)] ++ List.replicate 7 (.act 2 .go)) = some p ∧
      (p.shared 3).held 42 = 0 ∧ spinSystem.step p (.act 2 .go) = some p' ∧
      (p'.shared 3).entry.refCount ≠ (p.shared 3).entry.refCount := by
  constructor
  · have hheld : (run spinSystem.step spinInit spinRace).map
        (fun p => ((p.shared 3).held 40, (p.shared 3).held 41)) = some (1, 1) := by
      decide +kernel
    obtain ⟨p, hp, hboth⟩ := map_eq_some_iff.mp hheld
    obtain ⟨h40, h41⟩ := Prod.mk.inj hboth
    exact ⟨p, hp, h40 ▸ Nat.one_pos, h41 ▸ Nat.one_pos⟩
  · -- the next access of the third process is its store to the count
    have hcount : (run spinSystem.step spinInit (spinRace ++ [.spawn ⟨42, 3, .idle⟩,
        .act 2 (.callUnlock 3)] ++ List.replicate 7 (.act 2 .go))).map
        (fun p => ((p.shared 3).held 42, (p.shared 3).entry.refCount,
          (spinSystem.step p (.act 2 .go)).map fun p' => (p'.shared 3).entry.refCount))
        = some (0, 2, some 1) := by
      decide +kernel
    obtain ⟨p, hp, hall⟩ := map_eq_some_iff.mp hcount
    obtain ⟨h42, hrest⟩ := Prod.mk.inj hall
    obtain ⟨hbefore, hafter⟩ := Prod.mk.inj hrest
    obtain ⟨p', hp', hafter⟩ := map_eq_some_iff.mp hafter
    exact ⟨p, p', hp, h42, hp', by rw [hbefore, hafter]; decide⟩

end CpuComm
