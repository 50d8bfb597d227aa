import H713.CpuComm.Component.Basic
import H713.CpuComm.Smm.Slots

/-!
# The number of free slots

`InitComponentPool` writes the number of slots at byte 8160 of the pool, inside an entry, and the
requests count at byte 32648, which starts at zero.
-/

namespace CpuComm

open Machine Machine.Bytes List

namespace ShMem

variable {E : ShMem} {m m' : Bytes} {i j : ℕ}

/-! ### What the requests write -/

def WritesSlot (E : ShMem) (i : ℕ) (m m' : Bytes) : Prop :=
  SameOff (E.component i + 8) (E.component i + 824) m m'

lemma WritesSlot.attachCount (h : E.WritesSlot i m m') (hne : j ≠ i) :
    E.attachCount m' j = E.attachCount m j := by
  refine SameOff.rd8 h ?_
  rcases Nat.lt_or_gt_of_ne hne with hlt | hlt
  · left
    simp only [component]
    omega
  · right
    simp only [component]
    omega

lemma WritesSlot.registeredFlag (h : E.WritesSlot i m m') (hne : j ≠ i) :
    E.registeredFlag m' j = E.registeredFlag m j := by
  refine SameOff.rd8 h ?_
  rcases Nat.lt_or_gt_of_ne hne with hlt | hlt
  · left
    simp only [component]
    omega
  · right
    simp only [component]
    omega

lemma WritesSlot.freeSlots (h : E.WritesSlot i m m') (hi : i < 40) :
    E.freeSlots m' = E.freeSlots m := by
  refine SameOff.rd32 h (.inr ?_)
  simp only [component]
  omega

/-! ### The two ways the number of components changes -/

/-- What a request does to the attach counts, the registered flags and the number of free slots. -/
inductive Change (E : ShMem) (m m' : Bytes) : Prop
  | kept (hflag : ∀ j < 40, E.registeredFlag m' j = E.registeredFlag m j)
      (hattach : ∀ j < 40, E.attachCount m' j ≠ 0 →
        E.attachCount m j ≠ 0 ∨ E.registeredFlag m j ≠ 0)
      (hfree : E.freeSlots m' = E.freeSlots m)
  | added (i : ℕ) (hi : i < 40) (hfree' : E.registeredFlag m i = 0)
      (hflag : E.registeredFlag m' i ≠ 0)
      (hothers : ∀ j < 40, j ≠ i → E.attachCount m' j = E.attachCount m j ∧
        E.registeredFlag m' j = E.registeredFlag m j)
      (hfree : E.freeSlots m' = sub32 (E.freeSlots m) 1)
  | removed (i : ℕ) (hi : i < 40) (hheld : E.registeredFlag m i ≠ 0)
      (hflag : E.registeredFlag m' i = 0) (hattach : E.attachCount m' i = 0)
      (hothers : ∀ j < 40, j ≠ i → E.attachCount m' j = E.attachCount m j ∧
        E.registeredFlag m' j = E.registeredFlag m j)
      (hfree : E.freeSlots m' = u32 (E.freeSlots m + 1))

lemma Change.refl (E : ShMem) (m : Bytes) : E.Change m m :=
  .kept (fun _ _ => rfl) (fun _ _ h => .inl h) rfl

/-- The invariant of the requests. -/
structure Counted (E : ShMem) (m : Bytes) : Prop where
  sum : (E.freeSlots m + (E.registered m).card) % 4294967296 = 0
  flag_ne : ∀ i < 40, E.attachCount m i ≠ 0 → E.registeredFlag m i ≠ 0

lemma mem_registered : i ∈ E.registered m ↔ i < 40 ∧ E.registeredFlag m i ≠ 0 := by
  simp [registered]

lemma registered_insert (hi : i < 40) (hflag : E.registeredFlag m' i ≠ 0)
    (hothers : ∀ j < 40, j ≠ i → E.registeredFlag m' j = E.registeredFlag m j) :
    E.registered m' = insert i (E.registered m) := by
  ext j
  rw [Finset.mem_insert, mem_registered, mem_registered]
  by_cases hj : j = i
  · subst hj
    exact iff_of_true ⟨hi, hflag⟩ (.inl rfl)
  · rw [or_iff_right hj]
    exact and_congr_right fun hlt => by rw [hothers j hlt hj]

lemma card_registered_of_set (hi : i < 40) (hzero : E.registeredFlag m i = 0)
    (hflag : E.registeredFlag m' i ≠ 0)
    (hothers : ∀ j < 40, j ≠ i → E.registeredFlag m' j = E.registeredFlag m j) :
    (E.registered m').card = (E.registered m).card + 1 := by
  rw [registered_insert hi hflag hothers, Finset.card_insert_of_notMem]
  exact fun hmem => (mem_registered.mp hmem).2 hzero

lemma Change.counted (h : E.Change m m') (hm : E.Counted m) : E.Counted m' := by
  have hsum := hm.sum
  cases h with
  | kept hflag hattach hfree =>
    have hreg : E.registered m' = E.registered m := by
      ext j
      rw [mem_registered, mem_registered]
      exact and_congr_right fun hj => by rw [hflag j hj]
    refine ⟨by rw [hfree, hreg, hsum], fun j hj hne => ?_⟩
    rw [hflag j hj]
    exact (hattach j hj hne).elim (hm.flag_ne j hj) id
  | added i hi hzero hflag hothers hfree =>
    have hcard := card_registered_of_set hi hzero hflag fun j hj hji => (hothers j hj hji).2
    refine ⟨?_, fun j hj hne => ?_⟩
    · rw [hfree, hcard, sub32, u32]
      omega
    · by_cases hji : j = i
      · exact hji ▸ hflag
      · rw [(hothers j hj hji).2]
        rw [(hothers j hj hji).1] at hne
        exact hm.flag_ne j hj hne
  | removed i hi hheld hflag hattach hothers hfree =>
    have hcard := card_registered_of_set hi hflag hheld fun j hj hji => (hothers j hj hji).2.symm
    refine ⟨?_, fun j hj hne => ?_⟩
    · rw [hfree, u32]
      omega
    · by_cases hji : j = i
      · exact absurd (hji ▸ hattach) hne
      · rw [(hothers j hj hji).2]
        rw [(hothers j hj hji).1] at hne
        exact hm.flag_ne j hj hne

/-! ### Writes that keep the flags -/

def SameFlags (E : ShMem) (m m' : Bytes) : Prop :=
  ∀ j < 40, E.attachCount m' j = E.attachCount m j ∧ E.registeredFlag m' j = E.registeredFlag m j

lemma SameFlags.trans {m'' : Bytes} (h : E.SameFlags m m') (h' : E.SameFlags m' m'') :
    E.SameFlags m m'' :=
  fun j hj => ⟨(h' j hj).1.trans (h j hj).1, (h' j hj).2.trans (h j hj).2⟩

lemma SameFlags.change (h : E.SameFlags m m') (hfree : E.freeSlots m' = E.freeSlots m) :
    E.Change m m' :=
  .kept (fun j hj => (h j hj).2) (fun j hj hne => .inl ((h j hj).1 ▸ hne)) hfree

lemma sameFlags_of_tail (h : SameOff (E.component i + 32) (E.component i + 824) m m') :
    E.SameFlags m m' := by
  intro j _
  have hout : ∀ k, k ≤ 1 → E.component j + 8 + k + 1 ≤ E.component i + 32 ∨
      E.component i + 824 ≤ E.component j + 8 + k := by
    intro k hk
    simp only [component]
    rcases Nat.lt_or_ge i j with hlt | hge
    · exact .inr (by omega)
    · exact .inl (by omega)
  exact ⟨h.rd8 (hout 0 (by omega)), h.rd8 (hout 1 (by omega))⟩

lemma freeSlots_of_tail (hi : i < 40)
    (h : SameOff (E.component i + 32) (E.component i + 824) m m') :
    E.freeSlots m' = E.freeSlots m := by
  refine h.rd32 (.inr ?_)
  simp only [component]
  omega

lemma sameFlags_of_locks (h : SameOff E.shMemAddrBase (E.shMemAddrBase + 144) m m') :
    E.SameFlags m m' ∧ E.freeSlots m' = E.freeSlots m := by
  refine ⟨fun j _ => ⟨h.rd8 (.inr ?_), h.rd8 (.inr ?_)⟩, h.rd32 (.inr ?_)⟩
  all_goals simp only [component, componentPool]; omega

lemma sameFlags_setFreeSlots (E : ShMem) (m : Bytes) (v : ℕ) :
    E.SameFlags m (E.setFreeSlots m v) := by
  intro j hj
  have h := sameOff_wr32 m (E.componentPool + 32648) v
  refine ⟨h.rd8 (.inl ?_), h.rd8 (.inl ?_)⟩
  all_goals simp only [component]; omega

lemma freeSlots_setFreeSlots (E : ShMem) (m : Bytes) (v : ℕ) :
    E.freeSlots (E.setFreeSlots m v) = u32 v := rd32_wr32_self _ _ _

/-! ### Create -/

lemma sameFlags_assignComponentSpin (hi : i < 40) (m : Bytes) :
    E.SameFlags m (E.assignComponentSpin m i) ∧
      E.freeSlots (E.assignComponentSpin m i) = E.freeSlots m := by
  rw [assignComponentSpin]
  split_ifs
  · have hlock := sameFlags_of_locks (E.sameOff_commReqestSpinLock m)
    have hspin : SameOff (E.component i + 32) (E.component i + 824) (E.commReqestSpinLock m).1 _ :=
      (sameOff_wr32 _ (E.component i + 32) (E.commReqestSpinLock m).2).mono (by omega) (by omega)
    exact ⟨hlock.1.trans (sameFlags_of_tail hspin), (freeSlots_of_tail hi hspin).trans hlock.2⟩
  · exact ⟨fun _ _ => ⟨rfl, rfl⟩, rfl⟩

lemma length_cstr_le (s : ℕ → UInt8) (n : ℕ) : (cstr s n).length ≤ n := by
  refine (takeWhile_sublist _).length_le.trans ?_
  rw [length_map, length_range]

lemma registerComponent_spec (E : ShMem) (m : Bytes) (i : ℕ) (name : ℕ → UInt8) (flags : ℕ) :
    E.WritesSlot i m (E.registerComponent m i name flags) ∧
      E.registeredFlag (E.registerComponent m i name flags) i = 1 := by
  let e := E.component i
  let named := (m.zero (e + 11) 15).wrBytes (e + 11) ((cstr name 15).map UInt8.toNat)
  let flagged := (named.wr8 (e + 8) 1).wr8 (e + 9) 1
  have hlen : ((cstr name 15).map UInt8.toNat).length ≤ 15 := by
    rw [length_map]
    exact length_cstr_le name 15
  have hname : SameOff (e + 8) (e + 824) m named :=
    ((SameOff.refl _ _ m).zero (by omega)).trans
      ((sameOff_wrBytes _ _ _).mono (by omega) (by omega))
  have hflagged : SameOff (e + 8) (e + 824) named flagged :=
    ((SameOff.refl _ _ named).wr8 (by omega)).wr8 (by omega)
  have hrest : SameOff (e + 10) (e + 824) flagged (E.registerComponent m i name flags) :=
    ((((SameOff.refl _ _ flagged).wr8 (by omega)).wr16 (by omega)).wr32 (by omega)).wr32 (by omega)
  refine ⟨(hname.trans hflagged).trans (hrest.mono (by omega) le_rfl), ?_⟩
  exact (hrest.rd8 (.inl (by omega))).trans (rd8_wr8_self _ _ _)

lemma change_createComponent (m : Bytes) (name : ℕ → UInt8) (flags : ℕ) :
    E.Change m (E.createComponent m name flags).1 := by
  rw [createComponent]
  split_ifs
  · exact .refl E m
  · cases hslot : E.findFreeSlot m with
    | none => exact .refl E m
    | some i =>
      have hi : i < 40 := mem_range.mp (mem_of_find?_eq_some hslot)
      have hfree := List.find?_some hslot
      simp only [decide_eq_true_eq] at hfree
      obtain ⟨hwrites, hflag⟩ := registerComponent_spec E m i name flags
      obtain ⟨hspin, hcount⟩ :=
        sameFlags_assignComponentSpin (E := E) hi (E.registerComponent m i name flags)
      have hset := sameFlags_setFreeSlots E
        (E.assignComponentSpin (E.registerComponent m i name flags) i)
        (sub32 (E.freeSlots (E.assignComponentSpin (E.registerComponent m i name flags) i)) 1)
      have hrest := hspin.trans hset
      refine .added i hi hfree.2 ?_ (fun j hj hne => ⟨?_, ?_⟩) ?_
      · rw [(hrest i hi).2, hflag]
        exact one_ne_zero
      · exact (hrest j hj).1.trans (hwrites.attachCount hne)
      · exact (hrest j hj).2.trans (hwrites.registeredFlag hne)
      · rw [freeSlots_setFreeSlots, hcount, hwrites.freeSlots hi]
        exact Nat.mod_mod _ _

/-! ### Attach and Detach -/

lemma setAttachCount_spec (E : ShMem) (m : Bytes) (i v : ℕ) :
    E.WritesSlot i m (E.setAttachCount m i v) ∧
      E.attachCount (E.setAttachCount m i v) i = v % 256 ∧
      E.registeredFlag (E.setAttachCount m i v) i = E.registeredFlag m i := by
  have h := sameOff_wr8 m (E.component i + 8) v
  exact ⟨h.mono (by omega) (by omega), rd8_wr8_self _ _ _, h.rd8 (.inr (by omega))⟩

lemma change_setAttachCount (hi : i < 40) (v : ℕ) (hflag : E.registeredFlag m i ≠ 0) :
    E.Change m (E.setAttachCount m i v) := by
  obtain ⟨hwrites, -, hsame⟩ := setAttachCount_spec E m i v
  refine .kept (fun j _ => ?_) (fun j _ hne => ?_) (hwrites.freeSlots hi)
  · by_cases hji : j = i
    · rw [hji, hsame]
    · exact hwrites.registeredFlag hji
  · by_cases hji : j = i
    · exact .inr (hji ▸ hflag)
    · exact .inl (hwrites.attachCount hji ▸ hne)

lemma change_attachComponent (m : Bytes) (name : ℕ → UInt8) :
    E.Change m (E.attachComponent m name).1 := by
  rw [attachComponent]
  cases hslot : E.findName m name with
  | none => exact .refl E m
  | some i =>
    have hi : i < 40 := mem_range.mp (mem_of_find?_eq_some hslot)
    have hname := List.find?_some hslot
    simp only [decide_eq_true_eq] at hname
    exact change_setAttachCount hi _ hname.1

lemma clearComponent_spec (E : ShMem) (m : Bytes) (i : ℕ) :
    E.WritesSlot i m (E.clearComponent m i) ∧ E.registeredFlag (E.clearComponent m i) i = 0 ∧
      E.attachCount (E.clearComponent m i) i = E.attachCount m i := by
  let e := E.component i
  have hhead : SameOff (e + 9) (e + 824) m ((m.wr16 (e + 28) 2).wr8 (e + 11) 0) :=
    ((SameOff.refl _ _ m).wr16 (by omega)).wr8 (by omega)
  have hflag : SameOff (e + 9) (e + 824) m (((m.wr16 (e + 28) 2).wr8 (e + 11) 0).wr8 (e + 9) 0) :=
    hhead.wr8 (by omega)
  have htail := sameOff_wr64 (((m.wr16 (e + 28) 2).wr8 (e + 11) 0).wr8 (e + 9) 0) (e + 40) 0
  have hall := hflag.trans (htail.mono (by omega) (by omega))
  exact ⟨hall.mono (by omega) le_rfl,
    (htail.rd8 (.inl (by omega))).trans (rd8_wr8_self _ _ _), hall.rd8 (.inl (by omega))⟩

lemma Counted.freeSlots_ne (hm : E.Counted m) : E.freeSlots m ≠ 40 := by
  have hcard : (E.registered m).card ≤ 40 :=
    (Finset.card_filter_le _ _).trans (Finset.card_range 40).le
  have hsum := hm.sum
  omega

lemma Counted.lastDetach (smmFree : ℕ → Bytes → Bytes) (hm : E.Counted m) (hi : i < 40)
    (hflag : E.registeredFlag m i ≠ 0) (hattach : E.attachCount m i = 0) :
    E.Counted (E.lastDetach smmFree m i) := by
  rw [ShMem.lastDetach]
  split_ifs with hlisteners
  · obtain ⟨hwrites, hzero, hsame⟩ := clearComponent_spec E m i
    have hset := sameFlags_setFreeSlots E (E.clearComponent m i)
      (u32 (E.freeSlots (E.clearComponent m i) + 1))
    have hcounted : E.Counted (E.setFreeSlots (E.clearComponent m i)
        (u32 (E.freeSlots (E.clearComponent m i) + 1))) := by
      refine Change.counted (.removed i hi hflag ?_ ?_ (fun j hj hne => ⟨?_, ?_⟩) ?_) hm
      · rw [(hset i hi).2, hzero]
      · rw [(hset i hi).1, hsame, hattach]
      · exact (hset j hj).1.trans (hwrites.attachCount hne)
      · exact (hset j hj).2.trans (hwrites.registeredFlag hne)
      · rw [freeSlots_setFreeSlots, hwrites.freeSlots hi]
        exact Nat.mod_mod _ _
    simp only [if_neg hcounted.freeSlots_ne]
    exact hcounted
  · exact hm

lemma Counted.detachComponent {smmFree : ℕ → Bytes → Bytes} {r : Option ℕ} (hm : E.Counted m)
    (h : E.detachComponent smmFree m i = (m', r)) : E.Counted m' := by
  simp only [ShMem.detachComponent] at h
  by_cases hfails : E.DetachFails m i
  · rw [if_pos hfails] at h
    rw [← (Prod.mk.inj h).1]
    exact hm
  · have hi : i < 40 := not_le.mp fun h => hfails (.inl h)
    have hflag := hm.flag_ne i hi fun h => hfails (.inr (.inl h))
    have hset := (change_setAttachCount hi (E.attachCount m i - 1) hflag).counted hm
    rw [if_neg hfails] at h
    split_ifs at h with hlast
    · rw [← (setAttachCount_spec E m i (E.attachCount m i - 1)).2.2] at hflag
      rw [← (Prod.mk.inj h).1]
      exact hset.lastDetach smmFree hi hflag hlast
    · rw [← (Prod.mk.inj h).1]
      exact hset

/-! ### Listeners -/

lemma sameOff_writeListener (m : Bytes) (a flags callback eventMask extra extra' tgid : ℕ) :
    SameOff a (a + 48) m (writeListener m a flags callback eventMask extra extra' tgid) :=
  ((((((SameOff.refl _ _ m).wr32 (by omega)).wr64 (by omega)).wr32 (by omega)).wr64
    (by omega)).wr64 (by omega)).wr32 (by omega)

lemma sameOff_setListenerCount (E : ShMem) (m : Bytes) (i v : ℕ) :
    SameOff (E.component i + 32) (E.component i + 824) m (E.setListenerCount m i v) :=
  ((SameOff.refl _ _ m).wr32 (by omega)).wr32 (by omega)

lemma change_of_tail (hi : i < 40)
    (h : SameOff (E.component i + 32) (E.component i + 824) m m') : E.Change m m' :=
  (sameFlags_of_tail h).change (freeSlots_of_tail hi h)

lemma change_addListener (m : Bytes) (i flags callback eventMask extra extra' tgid : ℕ) :
    E.Change m (E.addListener m i flags callback eventMask extra extra' tgid).1 := by
  rw [addListener]
  split_ifs with hi
  · exact .refl E m
  · exact .refl E m
  · exact .refl E m
  · cases hfree : E.findFreeListener m i with
    | none => exact .refl E m
    | some j =>
      have hj : j < 16 := mem_range.mp (mem_of_find?_eq_some hfree)
      refine change_of_tail (not_le.mp hi) (SameOff.trans ?_ (sameOff_setListenerCount E _ i _))
      exact ((sameOff_writeListener m _ _ _ _ _ _ _).mono (by rw [listener]; omega)
        (by rw [listener]; omega)).trans
        ((sameOff_wr32 _ _ _).mono (by rw [listener]; omega) (by rw [listener]; omega))

lemma change_removeListener (m : Bytes) (i buf1 buf2 tgid : ℕ) :
    E.Change m (E.removeListener m i buf1 buf2 tgid).1 := by
  rw [removeListener]
  split_ifs with hi
  · exact .refl E m
  · cases hfound : E.findListener m i (buf1 + 4294967296 * buf2) buf2 tgid with
    | none => exact .refl E m
    | some j =>
      have hj : j < 16 := mem_range.mp (mem_of_find?_eq_some hfound)
      refine change_of_tail (not_le.mp hi) (SameOff.trans ?_ (sameOff_setListenerCount E _ i _))
      exact ((SameOff.refl _ _ m).wr32 (by omega)).trans
        ((sameOff_writeListener _ _ _ _ _ _ _ _).mono (by rw [listener]; omega)
        (by rw [listener]; omega))

/-! ### The pool at the start -/

/-- A range that `InitComponentPool` clears and does not write to afterwards. -/
structure Untouched (E : ShMem) (lo hi : ℕ) : Prop where
  head : E.componentPool + 4 ≤ lo
  count : hi ≤ E.componentPool + 8160 ∨ E.componentPool + 8164 ≤ lo
  entries : ∀ i < 40, hi ≤ E.component i + 10 ∨ E.component i + 816 ≤ lo

lemma untouched_flags (E : ShMem) {j : ℕ} :
    E.Untouched (E.component j + 8) (E.component j + 10) := by
  simp only [component]
  refine ⟨by omega, ?_, fun i _ => ?_⟩
  · rcases Nat.lt_or_ge j 10 with hlt | hge
    · exact .inl (by omega)
    · exact .inr (by omega)
  · simp only [component]
    rcases Nat.lt_or_ge i j with hlt | hge
    · exact .inr (by omega)
    · exact .inl (by omega)

lemma untouched_freeSlots (E : ShMem) :
    E.Untouched (E.componentPool + 32648) (E.componentPool + 32652) :=
  ⟨by omega, .inr (by omega), fun i hi => .inr (by simp only [component]; omega)⟩

lemma keeps_initEntries {lo hi : ℕ} (hhead : E.componentPool + 4 ≤ lo)
    (hcount : hi ≤ E.componentPool + 8160 ∨ E.componentPool + 8164 ≤ lo)
    (hentry : ∀ i < 40, (hi ≤ E.component i + 10 ∨ E.component i + 11 ≤ lo) ∧
      (hi ≤ E.component i + 24 ∨ E.component i + 30 ≤ lo) ∧
      ∀ j < 16, hi ≤ E.component i + 88 + 48 * j ∨ E.component i + 92 + 48 * j ≤ lo) (m : Bytes) :
    Keeps lo hi (m.zero E.componentPool 32656) (E.initComponentPool E.componentPool m) := by
  have hpool : E.shMemAddrBase + 144 ≤ lo := by
    have := hhead
    simp only [componentPool] at this
    omega
  let counted := (m.zero E.componentPool 32656).wr32 (E.componentPool + 8160) 40
  have hstart : Keeps lo hi (m.zero E.componentPool 32656)
      ((E.commReqestSpinLock counted).1.wr32 E.componentPool (E.commReqestSpinLock counted).2) :=
    (((sameOff_wr32 _ _ _).keeps hcount).trans
      ((E.sameOff_commReqestSpinLock _).keeps (.inr hpool))).trans
      ((sameOff_wr32 _ _ _).keeps (.inr hhead))
  rw [initComponentPool]
  split_ifs
  · exact hstart
  · refine hstart.trans (keeps_loop (fun i m hi => ?_) _)
    obtain ⟨hindex, hspin, hlisteners⟩ := hentry i hi
    simp only [component] at hindex hspin hlisteners
    refine Keeps.trans ?_ (keeps_loop (fun j m hj => ?_) _)
    · exact (((sameOff_wr8 _ _ _).keeps (by omega)).trans
        ((sameOff_wr32 _ _ _).keeps (by omega))).trans ((sameOff_wr16 _ _ _).keeps (by omega))
    · have := hlisteners j hj
      exact (sameOff_wr32 _ _ _).keeps (by omega)

lemma Untouched.keeps_init {lo hi : ℕ} (h : E.Untouched lo hi) (m : Bytes) :
    Keeps lo hi (m.zero E.componentPool 32656) (E.initComponentPool E.componentPool m) := by
  refine keeps_initEntries h.head h.count (fun i hi => ?_) m
  have := h.entries i hi
  exact ⟨by omega, by omega, fun j hj => by omega⟩

lemma counted_initComponentPool (E : ShMem) (m : Bytes) :
    E.Counted (E.initComponentPool E.componentPool m) := by
  have hflag : ∀ i < 40, E.registeredFlag (E.initComponentPool E.componentPool m) i = 0 ∧
      E.attachCount (E.initComponentPool E.componentPool m) i = 0 := by
    intro i hi
    have hkeeps := E.untouched_flags (j := i) |>.keeps_init m
    constructor
    · refine (hkeeps.rd8 (by omega) (by omega)).trans (rd8_zero ?_ ?_)
      all_goals simp only [component]; omega
    · refine (hkeeps.rd8 (by omega) (by omega)).trans (rd8_zero ?_ ?_)
      all_goals simp only [component]; omega
  have hfree : E.freeSlots (E.initComponentPool E.componentPool m) = 0 :=
    ((E.untouched_freeSlots.keeps_init m).rd32 (by omega) (by omega)).trans
      (rd32_zero (by omega) (by omega))
  have hreg : E.registered (E.initComponentPool E.componentPool m) = ∅ := by
    ext i
    simp only [mem_registered, Finset.notMem_empty, iff_false]
    exact fun h => h.2 (hflag i h.1).1
  refine ⟨by rw [hfree, hreg, Finset.card_empty], fun i hi hne => absurd (hflag i hi).2 hne⟩

end ShMem

/-! ### Every sequence -/

namespace ComponentState

variable {E : ShMem} {smmFree : ℕ → Bytes → Bytes} {s : ComponentState}

lemma counted_step (hs : E.Counted s.mem) (req : ComponentRequest) :
    E.Counted (s.step E smmFree req).mem := by
  cases req with
  | create name flags => exact (ShMem.change_createComponent s.mem name flags).counted hs
  | attach name => exact (ShMem.change_attachComponent s.mem name).counted hs
  | detach i => exact hs.detachComponent (Prod.mk.eta (p := E.detachComponent smmFree s.mem i)).symm
  | addListener i flags callback eventMask extra extra' tgid =>
    exact (ShMem.change_addListener s.mem ..).counted hs
  | removeListener i buf1 buf2 tgid =>
    exact (ShMem.change_removeListener s.mem i buf1 buf2 tgid).counted hs

lemma counted_run (smmFree : ℕ → Bytes → Bytes) (hs : E.Counted s.mem)
    (reqs : List ComponentRequest) :
    E.Counted (s.run E smmFree reqs).mem := by
  induction reqs generalizing s with
  | nil => exact hs
  | cons req reqs ih => exact ih (counted_step hs req)

/-- After every sequence of requests the free slots and the components add up to a multiple of `2 ^
32`, and the pool is not as it should be. -/
theorem pool_not_ok (E : ShMem) (smmFree : ℕ → Bytes → Bytes) (m : Bytes)
    (reqs : List ComponentRequest) :
    (E.freeSlots ((init E m).run E smmFree reqs).mem +
        (E.registered ((init E m).run E smmFree reqs).mem).card) % 4294967296 = 0 ∧
      ¬ ((init E m).run E smmFree reqs).PoolOk E := by
  have hinit : E.Counted (init E m).mem := E.counted_initComponentPool m
  obtain ⟨hsum, -⟩ := counted_run smmFree hinit reqs
  refine ⟨hsum, fun hok => ?_⟩
  rw [hok.free_slots] at hsum
  exact absurd hsum (by decide)

def oneCreated : ComponentState :=
  (init ShMem.boardShMem ⟨fun _ => 0⟩).run ShMem.boardShMem (fun _ m => m)
    [.create (fun k => if k = 0 then 97 else 0) 0]

theorem oneCreated_not_ok :
    ShMem.boardShMem.freeSlots oneCreated.mem = 4294967295 ∧
      ShMem.boardShMem.registered oneCreated.mem = {0} ∧
      ¬ oneCreated.PoolOk ShMem.boardShMem := by
  have hfree : ShMem.boardShMem.freeSlots oneCreated.mem = 4294967295 := by decide +kernel
  refine ⟨hfree, by decide +kernel, fun hok => ?_⟩
  have hsum := hok.free_slots
  omega

end ComponentState

end CpuComm
