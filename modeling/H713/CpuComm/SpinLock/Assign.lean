import H713.CpuComm.SpinLock.Basic

/-!
# Assigned spinlocks

A lock is assigned from the `comm_ReqestSpinLock` that returned it to the `comm_ReleaseSpinLock`
that returned 0. Whoever locks or unlocks it leaves its owner byte free, and from then on only the
count keeps it from being assigned a second time.
-/

namespace CpuComm

open Machine Function

inductive AssignOp where
  | request
  | release (lockId : ℤ)
  | lock (lockId : ℤ) (mode : LockMode) (tgid : ℕ)
  | unlock (lockId : ℤ)
deriving DecidableEq, Repr

/-- The entries, which locks are assigned, and which have been locked or unlocked since. -/
structure AssignState where
  table : SpinTable
  assigned : ℤ → Bool
  used : ℤ → Bool

namespace AssignState

def init : AssignState := ⟨SpinTable.commInitSpinLock, fun _ => false, fun _ => false⟩

variable (s : AssignState)

def step : AssignOp → Option AssignState
  | .request =>
    let r := s.table.commReqestSpinLock
    some ⟨r.1, Function.update s.assigned r.2 true, Function.update s.used r.2 false⟩
  | .release id =>
    let r := s.table.commReleaseSpinLock id
    some ⟨r.1, if r.2 = 0 then Function.update s.assigned id false else s.assigned, s.used⟩
  | .lock id mode tgid =>
    some ⟨(s.table.spinLock id mode tgid).1, s.assigned, Function.update s.used id true⟩
  | .unlock id => some ⟨s.table.commSpinUnLock id, s.assigned, Function.update s.used id true⟩

def RequestOk : AssignOp → Prop
  | .request =>
    ∀ id ∈ SpinTable.appIds, s.assigned id → s.used id → (s.table id).refCount ≠ 0
  | _ => True

instance (op : AssignOp) : Decidable (s.RequestOk op) :=
  match op with
  | .request => inferInstanceAs (Decidable (∀ id ∈ SpinTable.appIds, _))
  | .release _ | .lock .. | .unlock _ => .isTrue trivial

def Marked : Prop :=
  ∀ id ∈ SpinTable.appIds, s.assigned id → s.used id = false →
    (s.table id).owner ≠ spinlockFree

end AssignState

namespace SpinTable

variable {t : SpinTable}

lemma mem_appIds {id : ℤ} : id ∈ appIds ↔ 5 ≤ id ∧ id ≤ 11 := by
  simp only [appIds, List.mem_cons, List.not_mem_nil, or_false]
  omega

lemma commReqestSpinLock_cases (t : SpinTable) :
    (∃ id ∈ appIds, (t id).free ∧ t.commReqestSpinLock
      = (update t id { t id with mutex := 0, owner := Table.getCurCPUID }, id)) ∨
    t.commReqestSpinLock = (t, 255) := by
  unfold commReqestSpinLock
  cases hfind : appIds.find? fun id => (t id).free with
  | none => exact .inr rfl
  | some id =>
    exact .inl ⟨id, List.mem_of_find?_eq_some hfind, by simpa using List.find?_some hfind, rfl⟩

lemma commReleaseSpinLock_cases (t : SpinTable) (id : ℤ) :
    t.commReleaseSpinLock id = (update t id { t id with owner := spinlockFree }, 0) ∨
    ∃ r ≠ 0, t.commReleaseSpinLock id = (t, r) := by
  unfold commReleaseSpinLock
  split_ifs
  · exact .inr ⟨-22, by decide, rfl⟩
  · exact .inr ⟨-1, by decide, rfl⟩
  · exact .inl rfl

lemma spinLock_of_ne {id id' : ℤ} (h : id' ≠ id) (mode : LockMode) (tgid : ℕ) :
    (t.spinLock id mode tgid).1 id' = t id' := by
  unfold spinLock
  split_ifs
  · rfl
  · exact update_of_ne h _ _

lemma commSpinUnLock_of_ne {id id' : ℤ} (h : id' ≠ id) : t.commSpinUnLock id id' = t id' := by
  unfold commSpinUnLock
  split_ifs
  · rfl
  · exact update_of_ne h _ _

lemma owner_of_free {id : ℤ} (h : (t id).free) : (t id).owner = spinlockFree := by
  simp only [SpinEntry.free, Bool.and_eq_true, decide_eq_true_eq] at h
  exact h.1.1.1

lemma refCount_of_free {id : ℤ} (h : (t id).free) : (t id).refCount = 0 := by
  simp only [SpinEntry.free, Bool.and_eq_true, decide_eq_true_eq] at h
  exact h.1.1.2

end SpinTable

namespace AssignState

variable {s s' : AssignState}

lemma init_marked : init.Marked := by
  intro id _ hassigned
  cases hassigned

lemma step_marked {op : AssignOp} (hs : s.Marked) (h : s.step op = some s') : s'.Marked := by
  cases op with
  | request =>
    cases h
    rcases s.table.commReqestSpinLock_cases with ⟨id, -, -, heq⟩ | heq
    · intro id' hid hassigned hused
      simp only [heq] at hassigned hused ⊢
      by_cases hne : id' = id
      · subst hne
        rw [update_self]
        exact (by decide : Table.getCurCPUID ≠ spinlockFree)
      · rw [update_of_ne hne] at hassigned hused ⊢
        exact hs id' hid hassigned hused
    · intro id' hid hassigned hused
      have hne : id' ≠ 255 := by
        rw [SpinTable.mem_appIds] at hid
        omega
      simp only [heq, update_of_ne hne] at hassigned hused ⊢
      exact hs id' hid hassigned hused
  | release id =>
    cases h
    rcases s.table.commReleaseSpinLock_cases id with heq | ⟨r, hr, heq⟩
    · intro id' hid hassigned hused
      simp only [heq, if_true] at hassigned hused ⊢
      by_cases hne : id' = id
      · rw [hne, update_self] at hassigned
        cases hassigned
      · rw [update_of_ne hne] at hassigned ⊢
        exact hs id' hid hassigned hused
    · intro id' hid hassigned hused
      simp only [heq, if_neg hr] at hassigned hused ⊢
      exact hs id' hid hassigned hused
  | lock id mode tgid =>
    cases h
    intro id' hid hassigned hused
    have hne : id' ≠ id := by
      rintro rfl
      simp at hused
    simp only [update_of_ne hne] at hused
    simp only [SpinTable.spinLock_of_ne hne]
    exact hs id' hid hassigned hused
  | unlock id =>
    cases h
    intro id' hid hassigned hused
    have hne : id' ≠ id := by
      rintro rfl
      simp at hused
    simp only [update_of_ne hne] at hused
    simp only [SpinTable.commSpinUnLock_of_ne hne]
    exact hs id' hid hassigned hused

/-- A request returns no lock that is still assigned, if each request is made while every assigned
lock that was used is held. -/
theorem request_not_assigned (ops : List AssignOp) (s : AssignState)
    (hok : Guarded step RequestOk init (ops ++ [.request])) (hrun : run step init ops = some s)
    (id : ℤ) (hid : 5 ≤ id ∧ id ≤ 11) (hreq : s.table.commReqestSpinLock.2 = id) :
    s.assigned id = false := by
  have hmarked : s.Marked :=
    run_invariant (fun _ _ _ hs h => step_marked hs h) init_marked hrun
  have hmem : id ∈ SpinTable.appIds := SpinTable.mem_appIds.mpr hid
  rcases s.table.commReqestSpinLock_cases with ⟨id', -, hfree, heq⟩ | heq
  · obtain rfl : id' = id := by rw [← hreq, heq]
    cases hassigned : s.assigned id' with
    | false => rfl
    | true =>
      exfalso
      cases hused : s.used id' with
      | false => exact hmarked id' hmem hassigned hused (SpinTable.owner_of_free hfree)
      | true =>
        exact hok.last hrun id' hmem hassigned hused (SpinTable.refCount_of_free hfree)
  · rw [heq] at hreq
    omega

/-- Two requests get two locks, the first of which is held by then. -/
theorem request_not_assigned_while_held :
    ∃ s, run step init [.request, .lock 5 .exclusive 40] = some s ∧
      s.table.commReqestSpinLock.2 = 6 ∧ s.assigned 6 = false :=
  ⟨_, rfl, by decide +kernel,
    request_not_assigned [.request, .lock 5 .exclusive 40] _ (by decide +kernel) rfl 6 (by decide)
      (by decide +kernel)⟩

/-- A lock that was assigned, locked and unlocked is assigned again. -/
theorem request_assigned_twice :
    ∃ s, run step init [.request, .lock 5 .exclusive 40, .unlock 5] = some s ∧
      s.table.commReqestSpinLock.2 = 5 ∧ s.assigned 5 = true :=
  ⟨_, rfl, by decide +kernel, by decide +kernel⟩

end AssignState

end CpuComm
