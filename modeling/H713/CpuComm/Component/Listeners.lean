import H713.CpuComm.Component.Pool

/-!
# The listeners of a component

A component has sixteen entries for listeners, free if their callback id is zero. The request that
removes a listener has its callback id and its event mask in overlapping fields.
-/

namespace CpuComm

open Machine Machine.Bytes List Nat

structure Listener where
  flags : ℕ
  type : ℕ
  callback : ℕ
  eventMask : ℕ
  extra : ℕ
  extra' : ℕ
  tgid : ℕ
deriving DecidableEq, Repr

def Listener.key (L : Listener) : ℕ × ℕ × ℕ := (L.callback, L.eventMask, L.tgid)

/-- The fields have the widths of the buffer. -/
structure Listener.Fits (L : Listener) : Prop where
  flags : L.flags < 4294967296
  type : L.type < 4294967296
  callback : L.callback < 18446744073709551616
  eventMask : L.eventMask < 4294967296
  extra : L.extra < 18446744073709551616
  extra' : L.extra' < 18446744073709551616
  tgid : L.tgid < 4294967296

namespace ShMem

variable {E : ShMem} {m m' : Bytes} {i j : ℕ} {L : Listener}

def listenerWords (E : ShMem) (m : Bytes) (i j : ℕ) : Listener where
  flags := m.rd32 (E.listener i j)
  type := m.rd32 (E.listener i j + 4)
  callback := E.callbackId m i j
  eventMask := m.rd32 (E.listener i j + 16)
  extra := m.rd64 (E.listener i j + 24)
  extra' := m.rd64 (E.listener i j + 32)
  tgid := m.rd32 (E.listener i j + 40)

def listenerAt (E : ShMem) (m : Bytes) (i j : ℕ) : Option Listener :=
  if E.callbackId m i j = 0 then none else some (E.listenerWords m i j)

/-! ### What the requests keep -/

lemma listenerWords_of_keeps (h : Keeps (E.listener i j) (E.listener i j + 48) m m') :
    E.listenerWords m' i j = E.listenerWords m i j := by
  simp only [listenerWords, callbackId, h.rd32 (le_refl (E.listener i j)) (by omega),
    h.rd32 (show E.listener i j ≤ E.listener i j + 4 by omega) (by omega),
    h.rd32 (show E.listener i j ≤ E.listener i j + 16 by omega) (by omega),
    h.rd32 (show E.listener i j ≤ E.listener i j + 40 by omega) (by omega),
    h.rd64 (show E.listener i j ≤ E.listener i j + 8 by omega) (by omega),
    h.rd64 (show E.listener i j ≤ E.listener i j + 24 by omega) (by omega),
    h.rd64 (show E.listener i j ≤ E.listener i j + 32 by omega) (by omega)]

def SameArea (E : ShMem) (m m' : Bytes) : Prop :=
  ∀ i < 40, Keeps (E.component i + 48) (E.component i + 824) m m'

lemma SameArea.trans {m'' : Bytes} (h : E.SameArea m m') (h' : E.SameArea m' m'') :
    E.SameArea m m'' :=
  fun i hi => (h i hi).trans (h' i hi)

lemma sameArea_of_head (h : SameOff (E.component i + 8) (E.component i + 48) m m') :
    E.SameArea m m' := by
  intro k hk
  refine h.keeps ?_
  simp only [component]
  rcases Nat.lt_or_ge k i with hlt | hge
  · exact .inl (by omega)
  · exact .inr (by omega)

lemma sameArea_of_locks (h : SameOff E.shMemAddrBase (E.shMemAddrBase + 144) m m') :
    E.SameArea m m' := by
  intro k _
  refine h.keeps (.inr ?_)
  simp only [component, componentPool]
  omega

lemma sameArea_setFreeSlots (E : ShMem) (m : Bytes) (v : ℕ) :
    E.SameArea m (E.setFreeSlots m v) := by
  intro k hk
  refine (sameOff_wr32 m (E.componentPool + 32648) v).keeps (.inl ?_)
  simp only [component]
  omega

lemma sameArea_setAttachCount (E : ShMem) (m : Bytes) (i v : ℕ) :
    E.SameArea m (E.setAttachCount m i v) :=
  sameArea_of_head (i := i) ((SameOff.refl _ _ m).wr8 (by omega))

lemma sameArea_createComponent (m : Bytes) (name : ℕ → UInt8) (flags : ℕ) :
    E.SameArea m (E.createComponent m name flags).1 := by
  rw [createComponent]
  split_ifs
  · exact fun _ _ _ _ _ => rfl
  · cases hslot : E.findFreeSlot m with
    | none => exact fun _ _ _ _ _ => rfl
    | some i =>
      have hlen : ((cstr name 15).map UInt8.toNat).length ≤ 15 := by
        rw [length_map]
        exact length_cstr_le name 15
      have hregister : E.SameArea m (E.registerComponent m i name flags) := by
        refine sameArea_of_head (i := i) ?_
        exact ((((((((SameOff.refl _ _ m).zero (by omega)).trans
          ((sameOff_wrBytes _ _ _).mono (by omega) (by omega))).wr8 (by omega)).wr8 (by omega)).wr8
          (by omega)).wr16 (by omega)).wr32 (by omega)).wr32 (by omega)
      have hspin (m : Bytes) : E.SameArea m (E.assignComponentSpin m i) := by
        rw [assignComponentSpin]
        split_ifs
        · exact (sameArea_of_locks (E.sameOff_commReqestSpinLock m)).trans
            (sameArea_of_head (i := i) ((SameOff.refl _ _ _).wr32 (by omega)))
        · exact fun _ _ _ _ _ => rfl
      exact (hregister.trans (hspin _)).trans (sameArea_setFreeSlots E _ _)

lemma sameArea_attachComponent (m : Bytes) (name : ℕ → UInt8) :
    E.SameArea m (E.attachComponent m name).1 := by
  rw [attachComponent]
  cases E.findName m name with
  | none => exact fun _ _ _ _ _ => rfl
  | some i => exact sameArea_setAttachCount E m i _

lemma Counted.sameArea_lastDetach (smmFree : ℕ → Bytes → Bytes) (hm : E.Counted m) (hi : i < 40) :
    E.SameArea m (E.lastDetach smmFree m i) := by
  have hcard : (E.registered m).card ≤ 40 :=
    (Finset.card_filter_le _ _).trans (Finset.card_range 40).le
  have hsum := hm.sum
  rw [ShMem.lastDetach]
  split_ifs
  · have hclear : E.SameArea m (E.clearComponent m i) := by
      refine sameArea_of_head (i := i) ?_
      exact ((((SameOff.refl _ _ m).wr16 (by omega)).wr8 (by omega)).wr8 (by omega)).wr64 (by omega)
    have hne : E.freeSlots (E.setFreeSlots (E.clearComponent m i)
        (u32 (E.freeSlots (E.clearComponent m i) + 1))) ≠ 40 := by
      rw [freeSlots_setFreeSlots, (clearComponent_spec E m i).1.freeSlots hi, u32, u32]
      omega
    simp only [if_neg hne]
    exact hclear.trans (sameArea_setFreeSlots E _ _)
  · exact fun _ _ _ _ _ => rfl

lemma Counted.sameArea_detachComponent (smmFree : ℕ → Bytes → Bytes) (hm : E.Counted m) (i : ℕ) :
    E.SameArea m (E.detachComponent smmFree m i).1 := by
  simp only [ShMem.detachComponent]
  split_ifs with hfails
  · exact fun _ _ _ _ _ => rfl
  · have hi : i < 40 := not_le.mp fun h => hfails (.inl h)
    have hflag := hm.flag_ne i hi fun h => hfails (.inr (.inl h))
    have hset := (change_setAttachCount hi (E.attachCount m i - 1) hflag).counted hm
    exact (sameArea_setAttachCount E m i _).trans (hset.sameArea_lastDetach smmFree hi)
  · exact sameArea_setAttachCount E m i _

/-! ### Adding and removing -/

lemma findListener_eq_some {cb mask tgid : ℕ} (h : E.findListener m i cb mask tgid = some j) :
    j < 16 ∧ (E.listenerWords m i j).key = (cb, mask, tgid) := by
  have hkey := List.find?_some h
  simp only [decide_eq_true_eq] at hkey
  refine ⟨mem_range.mp (mem_of_find?_eq_some h), ?_⟩
  rw [Listener.key, listenerWords, hkey.1, hkey.2.1, hkey.2.2]

lemma findListener_eq_none {cb mask tgid : ℕ} (h : E.findListener m i cb mask tgid = none)
    (hj : j < 16) : (E.listenerWords m i j).key ≠ (cb, mask, tgid) := by
  have hkey := List.find?_eq_none.mp h j (mem_range.mpr hj)
  simp only [decide_eq_true_eq] at hkey
  intro heq
  simp only [Listener.key, listenerWords, Prod.mk.injEq] at heq
  exact hkey heq

lemma listenerWords_of_counts {i' j' : ℕ} (hj' : j' < 16)
    (h : SameOff (E.component i + 48) (E.component i + 56) m m') :
    E.listenerWords m' i' j' = E.listenerWords m i' j' := by
  refine listenerWords_of_keeps (h.keeps ?_)
  simp only [listener, component]
  omega

lemma listenerCount_of_store (h : SameOff (E.listener i j) (E.listener i j + 48) m m') :
    E.listenerCount m' i = E.listenerCount m i := by
  refine h.rd32 (.inl ?_)
  rw [listener]
  omega

lemma listenerWords_of_ne {i' j' : ℕ} (hj : j < 16) (hj' : j' < 16) (hne : (i', j') ≠ (i, j))
    (h : SameOff (E.listener i j) (E.listener i j + 48) m m') :
    E.listenerWords m' i' j' = E.listenerWords m i' j' := by
  have hne' : i' ≠ i ∨ j' ≠ j := by
    by_contra hcon
    push Not at hcon
    exact hne (by rw [hcon.1, hcon.2])
  refine listenerWords_of_keeps (h.keeps ?_)
  simp only [listener, component]
  omega

lemma rd_writeListener (hL : L.Fits) (m : Bytes) (a : ℕ) {w : Bytes}
    (hw : w = writeListener m a L.flags L.callback L.eventMask L.extra L.extra' L.tgid) :
    w.rd32 a = L.flags ∧ w.rd64 (a + 8) = L.callback ∧ w.rd32 (a + 16) = L.eventMask ∧
      w.rd64 (a + 24) = L.extra ∧ w.rd64 (a + 32) = L.extra' ∧ w.rd32 (a + 40) = L.tgid := by
  -- the fields in their order, each store with what comes after it
  set m₁ := m.wr32 a L.flags with hm₁
  set m₂ := m₁.wr64 (a + 8) L.callback with hm₂
  set m₃ := m₂.wr32 (a + 16) L.eventMask with hm₃
  set m₄ := m₃.wr64 (a + 24) L.extra with hm₄
  set m₅ := m₄.wr64 (a + 32) L.extra' with hm₅
  have h₆ : SameOff (a + 40) (a + 44) m₅ w := hw ▸ sameOff_wr32 _ _ _
  have h₅ : SameOff (a + 32) (a + 44) m₄ w :=
    ((SameOff.refl _ _ m₄).wr64 (by omega)).trans (h₆.mono (by omega) le_rfl)
  have h₄ : SameOff (a + 24) (a + 44) m₃ w :=
    ((SameOff.refl _ _ m₃).wr64 (by omega)).trans (h₅.mono (by omega) le_rfl)
  have h₃ : SameOff (a + 16) (a + 44) m₂ w :=
    ((SameOff.refl _ _ m₂).wr32 (by omega)).trans (h₄.mono (by omega) le_rfl)
  have h₂ : SameOff (a + 8) (a + 44) m₁ w :=
    ((SameOff.refl _ _ m₁).wr64 (by omega)).trans (h₃.mono (by omega) le_rfl)
  refine ⟨?_, ?_, ?_, ?_, ?_, ?_⟩
  · rw [h₂.rd32 (by omega), hm₁, rd32_wr32_self, u32_of_lt hL.flags]
  · rw [h₃.rd64 (by omega), hm₂, rd64_wr64_self, mod_eq_of_lt hL.callback]
  · rw [h₄.rd32 (by omega), hm₃, rd32_wr32_self, u32_of_lt hL.eventMask]
  · rw [h₅.rd64 (by omega), hm₄, rd64_wr64_self, mod_eq_of_lt hL.extra]
  · rw [h₆.rd64 (by omega), hm₅, rd64_wr64_self, mod_eq_of_lt hL.extra']
  · rw [hw]
    exact (rd32_wr32_self _ _ _).trans (u32_of_lt hL.tgid)

lemma rd32_writeListener_type (m : Bytes) (a flags callback eventMask extra extra' tgid : ℕ) :
    (writeListener m a flags callback eventMask extra extra' tgid).rd32 (a + 4) =
      m.rd32 (a + 4) := by
  simp only [writeListener]
  rw [(sameOff_wr32 _ _ _).rd32 (by omega), (sameOff_wr64 _ _ _).rd32 (by omega),
    (sameOff_wr64 _ _ _).rd32 (by omega), (sameOff_wr32 _ _ _).rd32 (by omega),
    (sameOff_wr64 _ _ _).rd32 (by omega), (sameOff_wr32 _ _ _).rd32 (by omega)]

lemma sameOff_counts (E : ShMem) (m : Bytes) (i v : ℕ) :
    SameOff (E.component i + 48) (E.component i + 56) m (E.setListenerCount m i v) :=
  ((SameOff.refl _ _ m).wr32 (by omega)).wr32 (by omega)

lemma listenerCount_setListenerCount (E : ShMem) (m : Bytes) (i v : ℕ) :
    E.listenerCount (E.setListenerCount m i v) i = u32 v := by
  rw [listenerCount, setListenerCount, (sameOff_wr32 _ _ _).rd32 (by omega), rd32_wr32_self]

/-- The listener `L` comes into an entry, or the words of an entry are cleared. -/
structure Writes (E : ShMem) (i j : ℕ) (L : Listener) (m m' : Bytes) : Prop where
  comp : i < 40
  index : j < 16
  words : E.listenerWords m' i j = L
  others : ∀ i' < 40, ∀ j' < 16, (i', j') ≠ (i, j) →
    E.listenerWords m' i' j' = E.listenerWords m i' j'

lemma writes_of_store (hL : L.Fits) (hi : i < 40) (hj : j < 16) {w w₁ : Bytes}
    (hw : w = writeListener m (E.listener i j) L.flags L.callback L.eventMask L.extra L.extra'
      L.tgid)
    (hw₁ : SameOff (E.listener i j + 4) (E.listener i j + 8) w w₁)
    (htype : w₁.rd32 (E.listener i j + 4) = L.type)
    (hcount : SameOff (E.component i + 48) (E.component i + 56) w₁ m') : E.Writes i j L m m' := by
  have hoff : SameOff (E.listener i j) (E.listener i j + 48) m w₁ :=
    (hw ▸ sameOff_writeListener m (E.listener i j) _ _ _ _ _ _).trans
      (hw₁.mono (by omega) (by omega))
  refine ⟨hi, hj, ?_, fun i' _ j' hj' hne => ?_⟩
  swap
  · exact (listenerWords_of_counts hj' hcount).trans (listenerWords_of_ne hj hj' hne hoff)
  obtain ⟨hflags, hid, hmask, hextra, hextra', htgid⟩ := rd_writeListener hL m (E.listener i j) hw
  rw [listenerWords_of_counts hj hcount, listenerWords, callbackId, htype, hw₁.rd32 (by omega),
    hw₁.rd64 (by omega), hw₁.rd32 (by omega), hw₁.rd64 (by omega), hw₁.rd64 (by omega),
    hw₁.rd32 (by omega), hflags, hid, hmask, hextra, hextra', htgid]

lemma Writes.of_counts {m₀ : Bytes}
    (h : SameOff (E.component i + 48) (E.component i + 56) m m₀) (hw : E.Writes i j L m₀ m') :
    E.Writes i j L m m' :=
  ⟨hw.comp, hw.index, hw.words, fun i' hi' j' hj' hne =>
    (hw.others i' hi' j' hj' hne).trans (listenerWords_of_counts hj' h)⟩

lemma addListener_spec (hL : L.Fits) (m : Bytes) (i : ℕ) {r : Bytes × Option ℤ}
    (hr : E.addListener m i L.flags L.callback L.eventMask L.extra L.extra' L.tgid = r) :
    r.2 ≠ some 0 ∧ r.1 = m ∨
    r.2 = some 0 ∧ (∀ j < 16, (E.listenerWords m i j).key ≠ L.key) ∧
      E.listenerCount r.1 i = u32 (E.listenerCount m i + 1) ∧
      ∃ j, E.callbackId m i j = 0 ∧ E.Writes i j { L with type := i } m r.1 := by
  simp only [addListener] at hr
  split_ifs at hr with hi hfull hdup
  · exact .inl (hr ▸ ⟨by simp, rfl⟩)
  · exact .inl (hr ▸ ⟨by simp, rfl⟩)
  · exact .inl (hr ▸ ⟨by simp, rfl⟩)
  · cases hfree : E.findFreeListener m i with
    | none =>
      rw [hfree] at hr
      exact .inl (hr ▸ ⟨by simp, rfl⟩)
    | some j =>
      rw [hfree] at hr
      have hj : j < 16 := mem_range.mp (mem_of_find?_eq_some hfree)
      have hzero := List.find?_some hfree
      simp only [decide_eq_true_eq] at hzero
      have hi : i < 40 := not_le.mp hi
      set w := writeListener m (E.listener i j) L.flags L.callback L.eventMask L.extra L.extra'
        L.tgid with hw
      have htype := sameOff_wr32 w (E.listener i j + 4) i
      have hoff : SameOff (E.listener i j) (E.listener i j + 48) m
          (w.wr32 (E.listener i j + 4) i) :=
        (sameOff_writeListener m _ _ _ _ _ _ _).trans (htype.mono (by omega) (by omega))
      subst hr
      refine .inr ⟨rfl, fun k hk => findListener_eq_none ?_ hk, ?_, j, hzero, ?_⟩
      · exact Option.not_isSome_iff_eq_none.mp hdup
      · rw [listenerCount_setListenerCount, listenerCount_of_store hoff]
        exact mod_mod _ _
      · refine writes_of_store ⟨hL.flags, by dsimp only; omega, hL.callback, hL.eventMask, hL.extra,
          hL.extra', hL.tgid⟩ hi hj hw htype ?_ (sameOff_counts E _ i _)
        rw [rd32_wr32_self, u32_of_lt (by omega)]

def cleared (type : ℕ) : Listener := ⟨0, type, 0, 0, 0, 0, 0⟩

lemma fits_cleared {type : ℕ} (h : type < 4294967296) : (cleared type).Fits := by
  refine ⟨?_, h, ?_, ?_, ?_, ?_, ?_⟩ <;> exact succ_pos _

lemma removeListener_spec (m : Bytes) (i buf1 buf2 tgid : ℕ) {r : Bytes × Option ℤ}
    (hr : E.removeListener m i buf1 buf2 tgid = r) :
    r.2 ≠ some 0 ∧ r.1 = m ∧
      (i < 40 → ∀ j < 16, (E.listenerWords m i j).key ≠ (buf1 + 4294967296 * buf2, buf2, tgid)) ∨
    r.2 = some 0 ∧ E.listenerCount r.1 i = sub32 (E.listenerCount m i) 1 ∧
      ∃ j, (E.listenerWords m i j).key = (buf1 + 4294967296 * buf2, buf2, tgid) ∧
        ∃ type, E.Writes i j (cleared type) m r.1 := by
  simp only [removeListener] at hr
  split_ifs at hr with hi
  · exact .inl (hr ▸ ⟨by simp, rfl, fun h => absurd hi (not_le.mpr h)⟩)
  · cases hfound : E.findListener m i (buf1 + 4294967296 * buf2) buf2 tgid with
    | none =>
      rw [hfound] at hr
      exact .inl (hr ▸ ⟨by simp, rfl, fun _ j hj => findListener_eq_none hfound hj⟩)
    | some j =>
      rw [hfound] at hr
      obtain ⟨hj, hkey⟩ := findListener_eq_some hfound
      set m₀ := m.wr32 (E.component i + 52) (u32 (m.rd32 (E.component i + 52) + 1)) with hm₀
      have hbump : SameOff (E.component i + 48) (E.component i + 56) m m₀ :=
        (SameOff.refl _ _ _).wr32 (by omega)
      have hstore := sameOff_writeListener m₀ (E.listener i j) 0 0 0 0 0 0
      subst hr
      refine .inr ⟨rfl, ?_, j, hkey, m₀.rd32 (E.listener i j + 4), ?_⟩
      · rw [listenerCount_setListenerCount, listenerCount_of_store hstore, listenerCount, hm₀,
          (sameOff_wr32 _ _ _).rd32 (by omega)]
        exact mod_mod _ _
      · refine Writes.of_counts hbump ?_
        exact writes_of_store (fits_cleared (m₀.rd32_lt _)) (not_le.mp hi) hj rfl
          (SameOff.refl _ _ _) (rd32_writeListener_type m₀ _ _ _ _ _ _ _) (sameOff_counts E _ i _)

end ShMem

/-! ### Requests -/

namespace ComponentRequest

def Fits : ComponentRequest → Prop
  | .addListener i flags callback eventMask extra extra' tgid =>
    Listener.Fits ⟨flags, i, callback, eventMask, extra, extra', tgid⟩
  | .removeListener _ buf1 _ _ => buf1 < 4294967296
  | _ => True

def Removes (i : ℕ) (L : Listener) : ComponentRequest → Prop
  | .removeListener i' buf1 buf2 tgid => i' = i ∧ L.key = (buf1 + 4294967296 * buf2, buf2, tgid)
  | _ => False

lemma Removes.eventMask_eq {req : ComponentRequest} {i : ℕ} {L : Listener} (h : req.Removes i L)
    (hfits : req.Fits) : L.eventMask = L.callback / 4294967296 := by
  cases req with
  | removeListener i' buf1 buf2 tgid =>
    have hkey := h.2
    have hlt : buf1 < 4294967296 := hfits
    simp only [Listener.key, Prod.mk.injEq] at hkey
    omega
  | create name flags => exact h.elim
  | attach name => exact h.elim
  | detach i' => exact h.elim
  | addListener i' flags callback eventMask extra extra' tgid => exact h.elim

end ComponentRequest

namespace ShMem

variable {E : ShMem} {m m' : Bytes} {i j : ℕ} {L : Listener}

/-- All that a request can do to the listeners. -/
inductive ListenerStep (E : ShMem) (req : ComponentRequest) (m m' : Bytes) : Prop
  | kept (h : ∀ i < 40, ∀ j < 16, E.listenerWords m' i j = E.listenerWords m i j)
  | added (i j : ℕ) (L : Listener) (hfree : E.callbackId m i j = 0)
      (hnew : ∀ k < 16, (E.listenerWords m i k).key ≠ L.key) (hw : E.Writes i j L m m')
  | removed (i j type : ℕ) (hreq : req.Removes i (E.listenerWords m i j))
      (hw : E.Writes i j (cleared type) m m')

lemma SameArea.kept {req : ComponentRequest} (h : E.SameArea m m') : E.ListenerStep req m m' := by
  refine .kept fun i hi j hj => listenerWords_of_keeps fun x hx hx' => h i hi x ?_ ?_
  · rw [listener] at hx
    omega
  · rw [listener] at hx'
    omega

def Distinct (E : ShMem) (m : Bytes) : Prop :=
  ∀ i < 40, ∀ j < 16, ∀ j' < 16, E.callbackId m i j ≠ 0 → E.callbackId m i j' ≠ 0 →
    (E.listenerWords m i j).key = (E.listenerWords m i j').key → j = j'

/-- The entry `j` is the one with the listener `L`. -/
structure Holds (E : ShMem) (i j : ℕ) (L : Listener) (m : Bytes) : Prop where
  comp : i < 40
  index : j < 16
  words : E.listenerWords m i j = L
  eq : ∀ k < 16, (E.listenerWords m i k).key = L.key → k = j

lemma Writes.callbackId (hw : E.Writes i j L m m') : E.callbackId m' i j = L.callback :=
  congrArg Listener.callback hw.words

lemma Writes.listenerAt_self (hw : E.Writes i j L m m') :
    E.listenerAt m' i j = if L.callback = 0 then none else some L := by
  rw [listenerAt, hw.callbackId, hw.words]

lemma listenerAt_of_words {i' j' : ℕ} (h : E.listenerWords m' i' j' = E.listenerWords m i' j') :
    E.listenerAt m' i' j' = E.listenerAt m i' j' := by
  have hid : E.callbackId m' i' j' = E.callbackId m i' j' := congrArg Listener.callback h
  rw [listenerAt, listenerAt, hid, h]

lemma Distinct.writes (hm : E.Distinct m) (hw : E.Writes i j L m m')
    (hL : L.callback = 0 ∨ ∀ k < 16, (E.listenerWords m i k).key ≠ L.key) : E.Distinct m' := by
  have hnew : ∀ k < 16, k ≠ j → E.callbackId m' i j ≠ 0 →
      (E.listenerWords m' i k).key ≠ (E.listenerWords m' i j).key := by
    intro k hk hne hused
    rw [hw.words, hw.others i hw.comp k hk (by simp [hne])]
    rw [hw.callbackId] at hused
    exact hL.resolve_left hused k hk
  intro i' hi' k hk k' hk' hused hused' hkey
  by_contra hne
  by_cases hki : (i', k) = (i, j)
  · obtain ⟨rfl, rfl⟩ := Prod.mk.inj hki
    exact hnew k' hk' (Ne.symm hne) hused hkey.symm
  by_cases hki' : (i', k') = (i, j)
  · obtain ⟨rfl, rfl⟩ := Prod.mk.inj hki'
    exact hnew k hk hne hused' hkey
  have hk₀ := hw.others i' hi' k hk hki
  have hk₀' := hw.others i' hi' k' hk' hki'
  have hid : E.callbackId m i' k ≠ 0 := fun h => hused ((congrArg Listener.callback hk₀).trans h)
  have hid' : E.callbackId m i' k' ≠ 0 :=
    fun h => hused' ((congrArg Listener.callback hk₀').trans h)
  rw [hk₀, hk₀'] at hkey
  exact hne (hm i' hi' k hk k' hk' hid hid' hkey)

lemma Distinct.step {req : ComponentRequest} (hm : E.Distinct m) (h : E.ListenerStep req m m') :
    E.Distinct m' := by
  cases h with
  | kept hsame =>
    intro i hi j hj j' hj' hused hused' hkey
    have hid := fun k hk => congrArg Listener.callback (hsame i hi k hk)
    rw [hsame i hi j hj, hsame i hi j' hj'] at hkey
    exact hm i hi j hj j' hj' (fun h => hused ((hid j hj).trans h))
      (fun h => hused' ((hid j' hj').trans h)) hkey
  | added i j L hfree hnew hw => exact hm.writes hw (.inr hnew)
  | removed i j type hreq hw => exact hm.writes hw (.inl rfl)

lemma Holds.writes {i' j' : ℕ} {L' : Listener} (hm : E.Holds i j L m)
    (hw : E.Writes i' j' L' m m') (hne : (i, j) ≠ (i', j')) (hkey : i' = i → L'.key ≠ L.key) :
    E.Holds i j L m' := by
  refine ⟨hm.comp, hm.index, ?_, fun k hk hk' => ?_⟩
  · rw [hw.others i hm.comp j hm.index hne, hm.words]
  · by_cases heq : (i, k) = (i', j')
    · obtain ⟨rfl, rfl⟩ := Prod.mk.inj heq
      rw [hw.words] at hk'
      exact absurd hk' (hkey rfl)
    · rw [hw.others i hm.comp k hk heq] at hk'
      exact hm.eq k hk hk'

lemma Holds.step {req : ComponentRequest} (hcb : L.callback ≠ 0) (hm : E.Holds i j L m)
    (h : E.ListenerStep req m m') (hreq : ¬ req.Removes i L) : E.Holds i j L m' := by
  have hid : E.callbackId m i j = L.callback := congrArg Listener.callback hm.words
  cases h with
  | kept hsame =>
    refine ⟨hm.comp, hm.index, (hsame i hm.comp j hm.index).trans hm.words, fun k hk hk' => ?_⟩
    rw [hsame i hm.comp k hk] at hk'
    exact hm.eq k hk hk'
  | added i' j' L' hfree hnew hw =>
    refine hm.writes hw (fun heq => ?_) (fun hi hkey => ?_)
    · obtain ⟨rfl, rfl⟩ := Prod.mk.inj heq
      exact hcb (hid.symm.trans hfree)
    · subst hi
      exact hnew j hm.index (by rw [hm.words, hkey])
  | removed i' j' type hreq' hw =>
    refine hm.writes hw (fun heq => ?_) (fun _ hkey => ?_)
    · obtain ⟨rfl, rfl⟩ := Prod.mk.inj heq
      rw [hm.words] at hreq'
      exact hreq hreq'
    · exact hcb (congrArg Prod.fst hkey).symm

lemma callbackId_initComponentPool (E : ShMem) (m : Bytes) (hi : i < 40) (hj : j < 16) :
    E.callbackId (E.initComponentPool E.componentPool m) i j = 0 := by
  have hkeeps : Keeps (E.listener i j + 8) (E.listener i j + 16)
      (m.zero E.componentPool 32656) (E.initComponentPool E.componentPool m) := by
    refine keeps_initEntries ?_ ?_ (fun i' hi' => ⟨?_, ?_, fun j' hj' => ?_⟩) m <;>
      simp only [listener, component] <;> omega
  have hlow := rd32_zero (m := m) (a := E.componentPool) (b := E.listener i j + 8) (n := 32656)
  have hhigh := rd32_zero (m := m) (a := E.componentPool) (b := E.listener i j + 12) (n := 32656)
  simp only [listener, component] at hlow hhigh
  rw [callbackId, hkeeps.rd64 le_rfl le_rfl, rd64, listener, component, hlow (by omega) (by omega),
    hhigh (by omega) (by omega)]

lemma holds_addListener (hL : L.Fits)
    (hadd : E.addListener m i L.flags L.callback L.eventMask L.extra L.extra' L.tgid =
      (m', some 0)) :
    (∀ k < 16, (E.listenerWords m i k).key ≠ L.key) ∧
      E.listenerCount m' i = u32 (E.listenerCount m i + 1) ∧
      ∃ j, E.callbackId m i j = 0 ∧ E.Writes i j { L with type := i } m m' ∧
        E.Holds i j { L with type := i } m' := by
  rcases addListener_spec hL m i hadd with ⟨hres, -⟩ | ⟨-, hnew, hcount, j, hfree, hw⟩
  · exact absurd rfl hres
  · refine ⟨hnew, hcount, j, hfree, hw, hw.comp, hw.index, hw.words, fun k hk hkey => ?_⟩
    by_contra hne
    rw [hw.others i hw.comp k hk (by simp [hne])] at hkey
    exact hnew k hk hkey

lemma Holds.removeListener (hm : E.Holds i j L m) (buf1 buf2 : ℕ) {r : Bytes × Option ℤ}
    (hid : buf1 + 4294967296 * buf2 = L.callback) (hmask : buf2 = L.eventMask)
    (hr : E.removeListener m i buf1 buf2 L.tgid = r) :
    r.2 = some 0 ∧ E.listenerCount r.1 i = sub32 (E.listenerCount m i) 1 ∧
      ∃ type, E.Writes i j (cleared type) m r.1 := by
  have hL : L.key = (buf1 + 4294967296 * buf2, buf2, L.tgid) := by rw [hid, hmask, Listener.key]
  rcases removeListener_spec m i buf1 buf2 L.tgid hr with
    ⟨-, -, hnone⟩ | ⟨hres, hcount, k, hkey, hw⟩
  · exact absurd ((congrArg Listener.key hm.words).trans hL) (hnone hm.comp j hm.index)
  · obtain ⟨type, hw⟩ := hw
    obtain rfl : k = j := hm.eq k hw.index (hkey.trans hL.symm)
    exact ⟨hres, hcount, type, hw⟩

/-- The request frees the entry of the listener `L` and leaves the rest of the table. -/
structure Frees (E : ShMem) (i : ℕ) (L : Listener) (m : Bytes) (r : Bytes × Option ℤ) : Prop where
  result : r.2 = some 0
  entry : ∃ j < 16, E.listenerAt m i j = some L ∧ E.listenerAt r.1 i j = none ∧
    ∀ i' < 40, ∀ j' < 16, (i', j') ≠ (i, j) → E.listenerAt r.1 i' j' = E.listenerAt m i' j'

/-- The table of listeners and the count of component `i` are the same. -/
structure SameTable (E : ShMem) (i : ℕ) (m m' : Bytes) : Prop where
  entries : ∀ i' < 40, ∀ j < 16, E.listenerAt m' i' j = E.listenerAt m i' j
  count : E.listenerCount m' i = E.listenerCount m i

lemma Holds.listenerAt (hm : E.Holds i j L m) (hcb : L.callback ≠ 0) :
    E.listenerAt m i j = some L := by
  have hid : E.callbackId m i j = L.callback := congrArg Listener.callback hm.words
  rw [ShMem.listenerAt, hid, if_neg hcb, hm.words]

lemma Holds.frees {type : ℕ} {r : Bytes × Option ℤ} (hm : E.Holds i j L m)
    (hcb : L.callback ≠ 0) (hres : r.2 = some 0) (hw : E.Writes i j (cleared type) m r.1) :
    E.Frees i L m r :=
  ⟨hres, j, hm.index, hm.listenerAt hcb, hw.listenerAt_self, fun i' hi' j' hj' hne =>
    listenerAt_of_words (hw.others i' hi' j' hj' hne)⟩

lemma sameTable_of_writes {m₁ : Bytes} {type : ℕ} (hfree : E.callbackId m i j = 0)
    (hadd : E.Writes i j L m m₁) (hcount : E.listenerCount m₁ i = u32 (E.listenerCount m i + 1))
    (hremove : E.Writes i j (cleared type) m₁ m')
    (hcount' : E.listenerCount m' i = sub32 (E.listenerCount m₁ i) 1) : E.SameTable i m m' := by
  refine ⟨fun i' hi' j' hj' => ?_, ?_⟩
  · by_cases heq : (i', j') = (i, j)
    · obtain ⟨rfl, rfl⟩ := Prod.mk.inj heq
      rw [hremove.listenerAt_self, listenerAt, if_pos hfree]
      rfl
    · exact listenerAt_of_words
        ((hremove.others i' hi' j' hj' heq).trans (hadd.others i' hi' j' hj' heq))
  · have hlt : E.listenerCount m i < 4294967296 := m.rd32_lt _
    rw [hcount', hcount]
    simp only [sub32, u32]
    omega

lemma distinct_initComponentPool (E : ShMem) (m : Bytes) :
    E.Distinct (E.initComponentPool E.componentPool m) :=
  fun _ hi _ hj _ _ hused => absurd (callbackId_initComponentPool E m hi hj) hused

end ShMem

namespace ComponentState

variable {E : ShMem} {smmFree : ℕ → Bytes → Bytes} {s : ComponentState} {i : ℕ} {L : Listener}

lemma step_listeners (hs : E.Counted s.mem) {req : ComponentRequest} (hfits : req.Fits) :
    E.ListenerStep req s.mem (s.step E smmFree req).mem := by
  cases req with
  | create name flags => exact (ShMem.sameArea_createComponent s.mem name flags).kept
  | attach name => exact (ShMem.sameArea_attachComponent s.mem name).kept
  | detach i => exact (hs.sameArea_detachComponent smmFree i).kept
  | addListener i flags callback eventMask extra extra' tgid =>
    rcases ShMem.addListener_spec (E := E) hfits s.mem i rfl with
      ⟨-, hsame⟩ | ⟨-, hnew, -, j, hfree, hw⟩
    · exact .kept fun i' _ j' _ => congrArg (E.listenerWords · i' j') hsame
    · exact .added i j _ hfree hnew hw
  | removeListener i buf1 buf2 tgid =>
    rcases ShMem.removeListener_spec (E := E) s.mem i buf1 buf2 tgid rfl with
      ⟨-, hsame, -⟩ | ⟨-, -, j, hkey, type, hw⟩
    · exact .kept fun i' _ j' _ => congrArg (E.listenerWords · i' j') hsame
    · exact .removed i j type ⟨rfl, hkey⟩ hw

lemma distinct_run (hs : E.Counted s.mem) (hm : E.Distinct s.mem) (reqs : List ComponentRequest)
    (hfits : ∀ req ∈ reqs, req.Fits) : E.Distinct (s.run E smmFree reqs).mem := by
  induction reqs generalizing s with
  | nil => exact hm
  | cons req reqs ih =>
    have hstep : E.ListenerStep req s.mem (s.step E smmFree req).mem :=
      step_listeners hs (hfits req mem_cons_self)
    exact ih (counted_step hs req) (hm.step hstep) fun r hr => hfits r (mem_cons_of_mem _ hr)

lemma holds_run {j : ℕ} (smmFree : ℕ → Bytes → Bytes) (hs : E.Counted s.mem) (hcb : L.callback ≠ 0)
    (hm : E.Holds i j L s.mem) (reqs : List ComponentRequest) (hfits : ∀ req ∈ reqs, req.Fits)
    (hothers : ∀ req ∈ reqs, ¬ req.Removes i L) :
    E.Holds i j L (s.run E smmFree reqs).mem := by
  induction reqs generalizing s with
  | nil => exact hm
  | cons req reqs ih =>
    have hstep : E.ListenerStep req s.mem (s.step E smmFree req).mem :=
      step_listeners hs (hfits req mem_cons_self)
    exact ih (counted_step hs req) (hm.step hcb hstep (hothers req mem_cons_self))
      (fun r hr => hfits r (mem_cons_of_mem _ hr))
      fun r hr => hothers r (mem_cons_of_mem _ hr)

/-- A listener that was added can be removed later exactly if its event mask is the upper half of
its callback id. -/
theorem listener_restored_iff (E : ShMem) (smmFree : ℕ → Bytes → Bytes) (m : Bytes)
    {reqs₀ reqs : List ComponentRequest} {i : ℕ} {L : Listener} {s₀ s₂ : ComponentState}
    {m₁ : Bytes} (hs₀ : (init E m).run E smmFree reqs₀ = s₀) (hfits₀ : ∀ req ∈ reqs₀, req.Fits)
    (hL : L.Fits) (hcb : L.callback ≠ 0)
    (hadd : E.addListener s₀.mem i L.flags L.callback L.eventMask L.extra L.extra' L.tgid =
      (m₁, some 0))
    (hs₂ : ({ s₀ with mem := m₁ } : ComponentState).run E smmFree reqs = s₂)
    (hfits : ∀ req ∈ reqs, req.Fits) (hothers : ∀ req ∈ reqs, ¬ req.Removes i L) :
    E.Distinct s₂.mem ∧
    ((∃ buf1 < 4294967296, ∃ buf2 < 4294967296,
        buf1 + 4294967296 * buf2 = L.callback ∧ buf2 = L.eventMask ∧
        E.Frees i { L with type := i } s₂.mem (E.removeListener s₂.mem i buf1 buf2 L.tgid) ∧
        (reqs = [] → E.SameTable i s₀.mem (E.removeListener s₂.mem i buf1 buf2 L.tgid).1)) ↔
      L.eventMask = L.callback / 4294967296) ∧
    (L.eventMask ≠ L.callback / 4294967296 → ∀ reqs', (∀ req ∈ reqs', req.Fits) →
      ∃ j < 16, E.listenerAt (s₂.run E smmFree reqs').mem i j = some { L with type := i }) := by
  have hinit : E.Counted (init E m).mem := E.counted_initComponentPool m
  have hinit' : E.Distinct (init E m).mem := ShMem.distinct_initComponentPool E m
  have hs₀c : E.Counted s₀.mem := by
    rw [← hs₀]
    exact counted_run smmFree hinit reqs₀
  have hs₀d : E.Distinct s₀.mem := by
    rw [← hs₀]
    exact distinct_run hinit hinit' reqs₀ hfits₀
  obtain ⟨hnew, hcount, j, hfree, hw, hholds⟩ := ShMem.holds_addListener hL hadd
  have hs₁c : E.Counted m₁ := by
    have hchange := ShMem.change_addListener (E := E) s₀.mem i L.flags L.callback L.eventMask
      L.extra L.extra' L.tgid
    rw [hadd] at hchange
    exact hchange.counted hs₀c
  have hs₁d : E.Distinct m₁ := hs₀d.writes hw (.inr hnew)
  have hs₂d : E.Distinct s₂.mem := by
    rw [← hs₂]
    exact distinct_run hs₁c hs₁d reqs hfits
  have hs₂c : E.Counted s₂.mem := by
    rw [← hs₂]
    exact counted_run smmFree hs₁c reqs
  have hholds₂ : E.Holds i j { L with type := i } s₂.mem := by
    rw [← hs₂]
    exact holds_run (L := { L with type := i }) smmFree hs₁c hcb hholds reqs hfits hothers
  refine ⟨hs₂d, ⟨?_, fun hmask => ?_⟩, fun hmask reqs' hfits' => ?_⟩
  · rintro ⟨buf1, hbuf1, buf2, -, hid, hbuf2, -⟩
    omega
  · have hcallback := hL.callback
    have hlt := hL.eventMask
    refine ⟨L.callback % 4294967296, mod_lt _ (by decide), L.eventMask, hlt, by omega, rfl, ?_⟩
    obtain ⟨hres, hcount', type, hremove⟩ :=
      hholds₂.removeListener (L.callback % 4294967296) L.eventMask (by dsimp only; omega) rfl rfl
    refine ⟨hholds₂.frees hcb hres hremove, fun hreqs => ?_⟩
    subst hreqs hs₂
    exact ShMem.sameTable_of_writes hfree hw hcount hremove hcount'
  · have hnever : ∀ req ∈ reqs', ¬ req.Removes i { L with type := i } :=
      fun req hreq h => hmask (h.eventMask_eq (hfits' req hreq))
    have hcb' : ({ L with type := i } : Listener).callback ≠ 0 := hcb
    have hholds₃ := holds_run smmFree hs₂c hcb' hholds₂ reqs' hfits' hnever
    exact ⟨j, hholds.index, hholds₃.listenerAt hcb'⟩

def boardPool : ComponentState := init ShMem.boardShMem ⟨fun _ => 0⟩

def addOne (eventMask : ℕ) : Bytes × Option ℤ :=
  ShMem.boardShMem.addListener boardPool.mem 0 5 1 eventMask 0 0 7

def afterOne : ComponentState :=
  ({ boardPool with mem := (addOne 0).1 } : ComponentState).run ShMem.boardShMem (fun _ m => m)
    [.addListener 0 5 2 0 0 0 7, .removeListener 0 2 0 7]

theorem addOne_restored :
    ShMem.boardShMem.Distinct afterOne.mem ∧
      ∃ buf1 < 4294967296, ∃ buf2 < 4294967296, buf1 + 4294967296 * buf2 = 1 ∧ buf2 = 0 ∧
        ShMem.boardShMem.Frees 0 ⟨5, 0, 1, 0, 0, 0, 7⟩ afterOne.mem
          (ShMem.boardShMem.removeListener afterOne.mem 0 buf1 buf2 7) := by
  have hadd : addOne 0 = ((addOne 0).1, some 0) := Prod.ext rfl (by decide +kernel)
  have hfits : Listener.Fits ⟨5, 0, 1, 0, 0, 0, 7⟩ := by constructor <;> decide
  have hs₀ : (init ShMem.boardShMem ⟨fun _ => 0⟩).run ShMem.boardShMem (fun _ m => m) [] =
    boardPool := rfl
  have hs₂ : ({ boardPool with mem := (addOne 0).1 } : ComponentState).run ShMem.boardShMem
    (fun _ m => m) [.addListener 0 5 2 0 0 0 7, .removeListener 0 2 0 7] = afterOne := rfl
  have hreqs : ∀ req ∈ [ComponentRequest.addListener 0 5 2 0 0 0 7, .removeListener 0 2 0 7],
      req.Fits ∧ ¬ req.Removes 0 ⟨5, 0, 1, 0, 0, 0, 7⟩ := by
    refine forall_mem_cons.mpr ⟨⟨?_, id⟩, forall_mem_singleton.mpr ⟨?_, fun h => ?_⟩⟩
    · exact ⟨by decide, by decide, by decide, by decide, by decide, by decide, by decide⟩
    · exact show 2 < 4294967296 by decide
    · exact absurd h.2 (by decide)
  obtain ⟨hdistinct, hiff, -⟩ := listener_restored_iff ShMem.boardShMem (fun _ m => m)
    ⟨fun _ => 0⟩ hs₀ (fun _ h => absurd h not_mem_nil) hfits (by decide) hadd hs₂
    (fun req h => (hreqs req h).1) fun req h => (hreqs req h).2
  obtain ⟨buf1, hbuf1, buf2, hbuf2, hid, hmask, hfrees, -⟩ := hiff.mpr rfl
  exact ⟨hdistinct, buf1, hbuf1, buf2, hbuf2, hid, hmask, hfrees⟩

/-- With event mask 1 no buffer has both numbers, and the listener stays. -/
theorem addOne_stays :
    (addOne 1).2 = some 0 ∧
      (¬ ∃ buf1 buf2, buf1 + 4294967296 * buf2 = 1 ∧ buf2 = 1) ∧
      (ShMem.boardShMem.removeListener (addOne 1).1 0 1 0 7).2 = some (-2) ∧
      (ShMem.boardShMem.removeListener (addOne 1).1 0 1 1 7).2 = some (-2) := by
  refine ⟨by decide +kernel, ?_, by decide +kernel, by decide +kernel⟩
  rintro ⟨buf1, buf2, hid, hmask⟩
  omega

end ComponentState

end CpuComm
