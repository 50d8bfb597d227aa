import H713.CpuComm.Routine.Register

/-!
# Removal

`RemoveRoutine` moves the successor of the removed entry into its slot and frees the slot of the
successor. That takes this slot out of every chain only if no other slot links to it: `LinkedOnce`.
-/

namespace CpuComm

open Machine Function List

namespace Table

variable {t t' : Table} {d : RoutineDesc} {c i : ℕ} {r : ℤ} {l : List ℕ}

def LinkedOnce (t : Table) : Prop := ∀ i j, 0 ≤ t.next i → t.next i = t.next j → i = j

/-- The effect of `RemoveRoutine` for component id `c`. -/
inductive Removes (t : Table) (c : ℕ) : Table → Prop
  | absent {t' : Table} : (∀ i, t.compId i ≠ c) → t'.desc = t.desc → t'.next = t.next →
      t'.count = t.count → Removes t c t'
  | last {i : ℕ} {t' : Table} : t.compId i = c → t.next i = -1 →
      t'.desc = Function.update t.desc i { t.desc i with compId := 0 } → t'.next = t.next →
      t'.count = t.count - 1 → Removes t c t'
  | middle {i j : ℕ} {t' : Table} : t.compId i = c → t.next i = j → 1024 ≤ j → i ≠ j →
      t'.desc = Function.update (Function.update t.desc i (t.desc j)) j
        { t.desc j with compId := 0 } →
      t'.next = Function.update (Function.update t.next i (t.next j)) j (-1) →
      t'.count = t.count - 1 → Removes t c t'

lemma Removes.of_bumpVersion (h : Removes t.bumpVersion c t') : Removes t c t' := by
  cases h with
  | absent hc hd hn hk => exact .absent hc hd hn hk
  | last hi hn hd hnx hk => exact .last hi hn hd hnx hk
  | middle hi hij hj hne hd hn hk => exact .middle hi hij hj hne hd hn hk

lemma unlink_last (hi : t.next i = -1) : t.unlink i = t.clearCompId i := by
  have : ¬ (0 ≤ (t.clearCompId i).next i ∧ (t.clearCompId i).next i ≤ rtMaxIndex) := by
    rw [next_clearCompId, hi]
    omega
  exact if_neg this

lemma unlink_middle {j : ℕ} (hij : t.next i = j) (hj : j ≤ rtMaxIndex) (hne : i ≠ j) :
    (t.unlink i).desc =
        update (update t.desc i (t.desc j)) j { t.desc j with compId := 0 } ∧
      (t.unlink i).next = update (update t.next i (t.next j)) j (-1) ∧
      (t.unlink i).count = t.count := by
  have hcond : 0 ≤ (t.clearCompId i).next i ∧ (t.clearCompId i).next i ≤ rtMaxIndex := by
    rw [next_clearCompId, hij]
    omega
  have hnat : ((t.clearCompId i).next i).toNat = j := by
    rw [next_clearCompId, hij]
    rfl
  have hdj : ((t.clearCompId i).entry j).desc = t.desc j :=
    (congrFun (desc_clearCompId t i) j).trans (update_of_ne hne.symm _ _)
  have hnj : ((t.clearCompId i).entry j).next = t.next j := congrFun (next_clearCompId t i) j
  simp only [unlink, if_pos hcond, hnat]
  refine ⟨?_, ?_, rfl⟩
  · simp [hdj, update_of_ne hne.symm]
  · simp [hnj, update_of_ne hne.symm]

lemma removeAt_removes (h : t.Ok) (hcpu : (t.desc i).cpu ≤ 1)
    (hl : Chain t.succ (hashIdx (t.compId i)) l) (hi : i ∈ hashIdx (t.compId i) :: l) :
    Removes t (t.compId i) (t.removeAt d i).1 := by
  rw [removeAt, if_neg (not_lt.mpr hcpu)]
  cases hs : t.succ i with
  | none =>
    have hin := h.links.of_succ_none hs
    have hu : t.unlink i = t.clearCompId i := unlink_last hin
    refine .last rfl hin ?_ ?_ (by rw [hu]; rfl)
    · rw [hu]
      exact desc_clearCompId t i
    · rw [hu]
      exact next_clearCompId t i
  | some j =>
    obtain ⟨hge, hmax, hj⟩ := h.links.of_succ hs
    have hij : t.next i = j := by omega
    obtain ⟨m, hm⟩ := hl.of_mem hi
    have hne : i ≠ j := by
      rintro rfl
      exact hm.head_notMem (hm.next_mem mem_cons_self hs)
    have hlow : 1024 ≤ j := by
      rcases h.links i with hl | hl <;> omega
    obtain ⟨hd, hn, hc⟩ := unlink_middle hij (by omega) hne
    exact .middle rfl hij hlow hne hd hn (congrArg (· - 1) hc)

lemma removeChecked_removes (h : t.Ok) (hcpu : ∀ i, t.compId i ≠ 0 → (t.desc i).cpu ≤ 1)
    (hd : d.compId ≠ 0) : ∃ t' r, t.removeChecked d = some (t', r) ∧ Removes t d.compId t' := by
  obtain ⟨l, hl⟩ := h.chain _ (hashIdx_lt d.compId)
  have hn : l.length < walkFuel := lt_of_le_of_lt (h.links.length_chain hl) (by decide)
  rcases walk_chain h.links hl hn with ⟨i, hi, hic, hw⟩ | ⟨hall, hw⟩
  · have hi0 : t.compId i ≠ 0 := fun h0 => hd (hic.symm.trans h0)
    refine ⟨_, _, by rw [removeChecked, hw]; rfl, ?_⟩
    rw [← hic] at hl hi ⊢
    exact removeAt_removes h (hcpu i hi0) hl hi
  · refine ⟨t.bumpVersion, -1, by rw [removeChecked, hw]; rfl, .absent (fun i hi => ?_) rfl rfl rfl⟩
    exact h.not_registered hl hall (fun h0 => hd (hi.symm.trans h0)) hi

/-- A call of `RemoveRoutine` returns, with one of the effects of `Removes`. -/
theorem removeRoutine_removes (h : t.Ok) (hcount : t.count ≤ 1223)
    (hcpu : ∀ i, t.compId i ≠ 0 → (t.desc i).cpu ≤ 1) (hd : d.compId ≠ 0) :
    ∃ t' r, t.removeRoutine d = some (t', r) ∧ Removes t d.compId t' := by
  have hc : ¬ t.count > rtMaxIndex := by
    simp only [rtMaxIndex]
    omega
  have hb : t.bumpVersion.Ok := ⟨h.links, h.free, h.chain, h.home, h.unique⟩
  obtain ⟨t', r, hr, hrem⟩ := removeChecked_removes hb hcpu hd
  exact ⟨t', r, by rw [removeRoutine, if_neg hc, hr], hrem.of_bumpVersion⟩

/-! ### Removal keeps the chains -/

lemma succ_inj (hl : t.LinksOk) (ho : t.LinkedOnce) {i j k : ℕ} (hi : t.succ i = some k)
    (hj : t.succ j = some k) : i = j := by
  obtain ⟨hi0, -, hik⟩ := hl.of_succ hi
  obtain ⟨hj0, -, hjk⟩ := hl.of_succ hj
  exact ho i j (by omega) (by omega)

lemma succ_splice {j : ℕ} (hne : i ≠ j)
    (hn : t'.next = update (update t.next i (t.next j)) j (-1)) :
    t'.succ = update (update t.succ i (t.succ j)) j none := by
  funext k
  rcases eq_or_ne k j with rfl | hkj
  · simp [succ, hn]
  · rcases eq_or_ne k i with rfl | hki
    · simp [succ, hn, update_of_ne hne]
    · simp [succ, hn, update_of_ne hkj, update_of_ne hki]

lemma Ok.splice {j : ℕ} (h : t.Ok) (ho : t.LinkedOnce) (hij : t.next i = j) (hj : 1024 ≤ j)
    (hne : i ≠ j) (hd : t'.desc = update (update t.desc i (t.desc j)) j
      { t.desc j with compId := 0 })
    (hn : t'.next = update (update t.next i (t.next j)) j (-1)) : t'.Ok := by
  have hs : t.succ i = some j := by
    rw [succ_eq_some (by omega), hij]
    rfl
  have hj0 : t'.compId j = 0 := by rw [compId, hd, update_self]
  have hi0 : t'.desc i = t.desc j := by
    rw [hd, update_of_ne hne, update_self]
  have hother : ∀ k, k ≠ i → k ≠ j → t'.desc k = t.desc k ∧ t'.next k = t.next k := by
    intro k hki hkj
    simp [hd, hn, update_of_ne hkj, update_of_ne hki]
  -- the entry of slot `k` was in slot `src k`
  have hsrc : ∀ k, t'.compId k ≠ 0 → k ≠ j := by
    rintro k hk rfl
    exact hk hj0
  refine h.move (fun k => if k = i then j else k) (fun k hk => ?_) (fun k m hk hm e => ?_)
    (fun k => ?_) (fun k hk => ?_) (fun b hb l hl => ?_)
  · by_cases hki : k = i
    · simpa [hki] using hi0
    · simpa [hki] using (hother k hki (hsrc k hk)).1
  · have hkj := hsrc k hk
    have hmj := hsrc m hm
    by_cases hki : k = i <;> by_cases hmi : m = i <;> simp_all
  · rcases eq_or_ne k j with rfl | hkj
    · exact .inl (by rw [hn, update_self])
    · rcases eq_or_ne k i with rfl | hki
      · rw [hn, update_of_ne hkj, update_self]
        exact h.links j
      · rw [(hother k hki hkj).2]
        exact h.links k
  · rcases eq_or_ne k j with rfl | hkj
    · rw [hn, update_self]
    · rcases eq_or_ne k i with rfl | hki
      · rw [compId, hi0] at hk
        rw [hn, update_of_ne hkj, update_self]
        exact h.free j hk
      · rw [compId, (hother k hki hkj).1] at hk
        rw [(hother k hki hkj).2]
        exact h.free k hk
  · rw [succ_splice hne hn]
    have hbj : b ≠ j := by omega
    refine ⟨l.erase j, hl.splice hs (fun k hk => succ_inj h.links ho hk hs) hbj, ?_⟩
    intro k hk hm
    have hkj := hsrc k hk
    have hkl : k ∈ b :: l := by
      by_cases hki : k = i
      · -- `j` is on the chain, and only `i` links to it
        obtain ⟨m, hml, hmj⟩ := hl.exists_prev (by simpa [hki, hbj.symm] using hm)
        rwa [hki, ← succ_inj h.links ho hmj hs]
      · simpa [hki] using hm
    rcases mem_cons.mp hkl with rfl | hkl
    · exact mem_cons_self
    · exact mem_cons_of_mem b ((mem_erase_of_ne hkj).mpr hkl)

theorem Removes.ok (h : t.Ok) (ho : t.LinkedOnce) (hr : Removes t c t') : t'.Ok := by
  cases hr with
  | absent _ hd hn _ =>
    refine h.drop hn (fun j _ => congrFun hd j) fun j hj => h.free j ?_
    rwa [compId, hd] at hj
  | @last i _ _ hin hd hn _ =>
    have hother : ∀ j, j ≠ i → t'.desc j = t.desc j := fun j hj => by
      rw [hd, update_of_ne hj]
    refine h.drop hn (fun j hj => hother j ?_) fun j hj => ?_
    · rintro rfl
      exact hj (by rw [compId, hd, update_self])
    · rcases eq_or_ne j i with rfl | hji
      · exact hin
      · rw [compId, hother j hji] at hj
        exact h.free j hj
  | middle _ hij hj hne hd hn _ => exact h.splice ho hij hj hne hd hn

lemma Removes.linkedOnce (ho : t.LinkedOnce) (hr : Removes t c t') : t'.LinkedOnce := by
  cases hr with
  | absent _ _ hn | last _ _ _ hn => exact fun j k => hn ▸ ho j k
  | @middle i j _ _ hij _ hne _ hn =>
    have hj : t'.next j = -1 := by rw [hn, update_self]
    have hi : t'.next i = t.next j := by
      rw [hn, update_of_ne hne, update_self]
    have hother : ∀ k, k ≠ i → k ≠ j → t'.next k = t.next k := fun k hki hkj => by
      rw [hn, update_of_ne hkj, update_of_ne hki]
    intro k m hk hkm
    have hkj : k ≠ j := by
      rintro rfl
      omega
    have hmj : m ≠ j := by
      rintro rfl
      omega
    rcases eq_or_ne k i with rfl | hki <;> rcases eq_or_ne m k with rfl | hmk
    · rfl
    · rw [hi] at hk hkm
      rw [hother m hmk hmj] at hkm
      exact absurd (ho j m hk hkm).symm hmj
    · rfl
    · rw [hother k hki hkj] at hk hkm
      rcases eq_or_ne m i with rfl | hmi
      · rw [hi] at hkm
        exact absurd (ho k j hk hkm) hkj
      · rw [hother m hmi hmj] at hkm
        exact ho k m hk hkm

lemma Removes.desc_iff (h : t.Ok) (hc : c ≠ 0) (hr : Removes t c t') {e : RoutineDesc}
    (he : e.compId ≠ 0) : (∃ k, t'.desc k = e) ↔ (∃ k, t.desc k = e) ∧ e.compId ≠ c := by
  cases hr with
  | absent hall hd =>
    rw [hd]
    exact ⟨fun ⟨k, hk⟩ => ⟨⟨k, hk⟩, hk ▸ hall k⟩, fun hk => hk.1⟩
  | @last i _ hi _ hd =>
    have hother : ∀ k, k ≠ i → t'.desc k = t.desc k := fun k hk => by
      rw [hd, update_of_ne hk]
    constructor
    · rintro ⟨k, rfl⟩
      have hki : k ≠ i := by
        rintro rfl
        exact he (by rw [hd, update_self])
      rw [hother k hki]
      exact ⟨⟨k, rfl⟩, fun hkc => hki (h.unique i k (hi ▸ hc) (hi.trans hkc.symm)).symm⟩
    · rintro ⟨⟨k, rfl⟩, hkc⟩
      exact ⟨k, hother k (by rintro rfl; exact hkc hi)⟩
  | @middle i j _ hi _ _ hne hd =>
    have hi' : t'.desc i = t.desc j := by
      rw [hd, update_of_ne hne, update_self]
    have hother : ∀ k, k ≠ i → k ≠ j → t'.desc k = t.desc k := fun k hki hkj => by
      rw [hd, update_of_ne hkj, update_of_ne hki]
    have huniq : ∀ k, k ≠ i → (t.desc k).compId ≠ c := fun k hki hkc =>
      hki (h.unique i k (hi ▸ hc) (hi.trans hkc.symm)).symm
    constructor
    · rintro ⟨k, rfl⟩
      rcases eq_or_ne k i with rfl | hki
      · rw [hi']
        exact ⟨⟨j, rfl⟩, huniq j hne.symm⟩
      · have hkj : k ≠ j := by
          rintro rfl
          exact he (by rw [hd, update_self])
        rw [hother k hki hkj]
        exact ⟨⟨k, rfl⟩, huniq k hki⟩
    · rintro ⟨⟨k, rfl⟩, hkc⟩
      rcases eq_or_ne k j with rfl | hkj
      · exact ⟨i, hi'⟩
      · exact ⟨k, hother k (by rintro rfl; exact hkc hi) hkj⟩

lemma Removes.count_eq (hr : Removes t c t') :
    (∀ k, t.compId k ≠ c) ∧ t'.count = t.count ∨
      (∃ k, t.compId k = c) ∧ t'.count = t.count - 1 := by
  cases hr with
  | absent hall _ _ hk => exact .inl ⟨hall, hk⟩
  | last hi _ _ _ hk | middle hi _ _ _ _ _ hk => exact .inr ⟨⟨_, hi⟩, hk⟩

end Table

end CpuComm
