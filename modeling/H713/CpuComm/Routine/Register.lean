import H713.CpuComm.Routine.Chains

/-!
# Registration

`Adds` lists what a call of `AddInRoutine` can do to a table with chains in order: it keeps them in
order and loses no entry. The overflow slot that it takes may be the free last slot of another
chain, which does no harm as long as nothing is removed.
-/

namespace CpuComm

open Machine Function List

namespace Table

variable {t t' : Table} {d : RoutineDesc} {c i : ℕ} {r : ℤ} {l : List ℕ}

/-! ### Lookup -/

lemma find_chain (h : t.LinksOk) (hcount : t.count ≤ 1223) (hl : Chain t.succ (hashIdx c) l) :
    (∃ j ∈ hashIdx c :: l, t.compId j = c ∧ t.findRoutineEx c = some (some (t.desc j))) ∨
      (∀ j ∈ hashIdx c :: l, t.compId j ≠ c) ∧ t.findRoutineEx c = some none := by
  have hc : ¬ t.count > rtMaxIndex := by
    simp only [rtMaxIndex]
    omega
  have hn : l.length < walkFuel := lt_of_le_of_lt (h.length_chain hl) (by decide)
  rcases walk_chain h hl hn with ⟨j, hj, hjc, hw⟩ | ⟨hall, hw⟩
  · exact .inl ⟨j, hj, hjc, by rw [findRoutineEx, if_neg hc, hw]; rfl⟩
  · exact .inr ⟨hall, by rw [findRoutineEx, if_neg hc, hw]; rfl⟩

lemma Ok.mem_home (h : t.Ok) (hi : t.compId i ≠ 0) (hl : Chain t.succ (hashIdx (t.compId i)) l) :
    i ∈ hashIdx (t.compId i) :: l := by
  obtain ⟨l', hl', hi'⟩ := h.home i hi
  rwa [hl.unique hl']

lemma Ok.not_registered (h : t.Ok) (hl : Chain t.succ (hashIdx c) l)
    (hall : ∀ j ∈ hashIdx c :: l, t.compId j ≠ c) (hi : t.compId i ≠ 0) : t.compId i ≠ c := by
  rintro rfl
  exact hall i (h.mem_home hi hl) rfl

lemma Ok.exists_find (h : t.Ok) (hcount : t.count ≤ 1223) (c : ℕ) :
    ∃ r, t.findRoutineEx c = some r := by
  obtain ⟨l, hl⟩ := h.chain _ (hashIdx_lt c)
  rcases find_chain h.links hcount hl with ⟨j, -, -, hf⟩ | ⟨-, hf⟩
  · exact ⟨_, hf⟩
  · exact ⟨_, hf⟩

lemma Ok.find_eq_some_iff (h : t.Ok) (hcount : t.count ≤ 1223) (hc : c ≠ 0) :
    t.findRoutineEx c = some (some d) ↔ ∃ i, t.desc i = d ∧ d.compId = c := by
  obtain ⟨l, hl⟩ := h.chain _ (hashIdx_lt c)
  constructor
  · intro hf
    rcases find_chain h.links hcount hl with ⟨j, -, hjc, hf'⟩ | ⟨-, hf'⟩
    · obtain rfl := Option.some.inj (Option.some.inj (hf'.symm.trans hf))
      exact ⟨j, rfl, hjc⟩
    · cases hf'.symm.trans hf
  · rintro ⟨i, rfl, hic⟩
    have hi : t.compId i ≠ 0 := fun h0 => hc (hic.symm.trans h0)
    rcases find_chain h.links hcount hl with ⟨j, -, hjc, hf⟩ | ⟨hall, -⟩
    · rwa [h.unique i j hi (hic.trans hjc.symm)]
    · exact absurd hic (h.not_registered hl hall hi)

/-! ### What a registration does -/

/-- The effect and the result code of `AddInRoutine`. -/
inductive Adds (t : Table) (d : RoutineDesc) : Table → ℤ → Prop
  /-- the component id is on its chain already -/
  | present {l : List ℕ} {i : ℕ} : Chain t.succ (hashIdx d.compId) l →
      i ∈ hashIdx d.compId :: l → t.compId i = d.compId → Adds t d t 0
  /-- the free slot at the end of the chain is filled -/
  | fill {l : List ℕ} {i : ℕ} {t' : Table} : Chain t.succ (hashIdx d.compId) l →
      (∀ j ∈ hashIdx d.compId :: l, t.compId j ≠ d.compId) →
      i ∈ hashIdx d.compId :: l → t.compId i = 0 →
      t'.desc = Function.update t.desc i d → t'.next = t.next → t'.count = t.count + 1 →
      Adds t d t' 0
  /-- the first free overflow slot is filled and linked behind the chain -/
  | link {l : List ℕ} {p o : ℕ} {t' : Table} : Chain t.succ (hashIdx d.compId) l →
      (∀ j ∈ hashIdx d.compId :: l, t.compId j ≠ d.compId) →
      (∀ j ∈ hashIdx d.compId :: l, t.compId j ≠ 0) →
      p ∈ hashIdx d.compId :: l → t.next p = -1 → t.overflowSlot = some o →
      t'.desc = Function.update t.desc o d → t'.next = Function.update t.next p o →
      t'.count = t.count + 1 → Adds t d t' 0
  /-- no overflow slot is free -/
  | full {t' : Table} : t'.desc = t.desc → t'.next = t.next → t'.count = t.count →
      Adds t d t' (-2)
  /-- an entry of the chain has a CPU number above `1` -/
  | corrupt {j : ℕ} {t' : Table} : t.compId j ≠ 0 → (t.desc j).cpu > 1 → t'.desc = t.desc →
      t'.next = t.next → t'.count = t.count → Adds t d t' (-22)

lemma of_overflowSlot {o : ℕ} (h : t.overflowSlot = some o) :
    t.compId o = 0 ∧ 1024 ≤ o ∧ o < 1224 := by
  have hc := List.find?_some h
  have hm := mem_of_find?_eq_some h
  rw [mem_range'_1] at hm
  exact ⟨by simpa using hc, hm⟩

lemma update_of_free (h : t.Ok) (hi : t.compId i = 0) : update t.next i (-1) = t.next := by
  rw [← h.free i hi, update_eq_self]

lemma addOverflow_adds {p : ℕ} (h : t.Ok) (hl : Chain t.succ (hashIdx d.compId) l)
    (hnew : ∀ j ∈ hashIdx d.compId :: l, t.compId j ≠ d.compId)
    (hocc : ∀ j ∈ hashIdx d.compId :: l, t.compId j ≠ 0)
    (hp : p ∈ hashIdx d.compId :: l) (hpn : t.next p = -1) :
    Adds t d (t.addOverflow d p).1 (t.addOverflow d p).2 := by
  rw [addOverflow]
  cases ho : t.overflowSlot with
  | none => exact .full rfl rfl rfl
  | some o =>
    have hfree := (of_overflowSlot ho).1
    have hon : ¬ t.next o ≠ -1 := not_not.mpr (h.free o hfree)
    have hp0 : (0 : ℤ) ≤ p := Int.natCast_nonneg p
    simp only [hon, hp0, if_true, if_false]
    refine .link hl hnew hocc hp hpn ho (by simp) ?_ rfl
    simp [update_of_free h hfree]

lemma addNew_adds (h : t.Ok) (hl : Chain t.succ (hashIdx d.compId) l)
    (hnew : ∀ j ∈ hashIdx d.compId :: l, t.compId j ≠ d.compId) :
    ∃ t' r, t.addNew d = some (t', r) ∧ Adds t d t' r := by
  have hn : l.length < walkFuel := lt_of_le_of_lt (h.links.length_chain hl) (by decide)
  by_cases h0 : t.compId (hashIdx d.compId) = 0 ∧ t.next (hashIdx d.compId) = -1
  · refine ⟨_, _, by rw [addNew, if_pos h0], ?_⟩
    exact .fill hl hnew mem_cons_self h0.1 (by simp) (by simp [update_of_free h h0.1]) rfl
  · have hw : t.addNew d = (t.addWalk walkFuel (-1) (hashIdx d.compId)).map _ := if_neg h0
    rcases addWalk_chain h.links hl hn with ⟨j, -, hj, hcpu, ha⟩ | ⟨q, j, hj, hj0, ha⟩ |
      ⟨⟨j, hj, hjn, ha⟩, hocc⟩
    · exact ⟨t, -22, by rw [hw, ha]; rfl, .corrupt hj hcpu rfl rfl rfl⟩
    · refine ⟨(t.place j d).bumpVersion, 0, ?_, ?_⟩
      · rw [hw, ha]
        simp [h.free j hj0]
      · exact .fill hl hnew hj hj0 (by simp) (by simp [update_of_free h hj0]) rfl
    · refine ⟨_, _, ?_, addOverflow_adds h hl hnew hocc hj hjn⟩
      rw [hw, ha]
      simp

/-- A call of `AddInRoutine` returns, with one of the effects of `Adds`. -/
theorem addInRoutine_adds (h : t.Ok) (hcount : t.count ≤ 1223) (d : RoutineDesc) :
    ∃ t' r, t.addInRoutine d = some (t', r) ∧ Adds t d t' r := by
  obtain ⟨l, hl⟩ := h.chain _ (hashIdx_lt d.compId)
  have hc : ¬ t.count > rtMaxIndex := by
    simp only [rtMaxIndex]
    omega
  rcases find_chain h.links hcount hl with ⟨j, hj, hjc, hf⟩ | ⟨hnew, hf⟩
  · exact ⟨t, 0, by rw [addInRoutine, if_neg hc, hf]; rfl, .present hl hj hjc⟩
  · -- the version counter is no part of what the effects speak of
    have hb : t.bumpVersion.Ok := ⟨h.links, h.free, h.chain, h.home, h.unique⟩
    obtain ⟨t', r, ha, hadd⟩ := addNew_adds (t := t.bumpVersion) (d := d) hb hl hnew
    refine ⟨t', r, by rw [addInRoutine, if_neg hc, hf]; exact ha, ?_⟩
    cases hadd with
    | present _ hj hjc => exact absurd hjc (hnew _ (by rwa [hl.unique ‹_›]))
    | fill hl hnew hi hi0 hd hn hc => exact .fill hl hnew hi hi0 hd hn hc
    | link hl hnew hocc hp hpn ho hd hn hc => exact .link hl hnew hocc hp hpn ho hd hn hc
    | full hd hn hc => exact .full hd hn hc
    | corrupt hj hcpu hd hn hc => exact .corrupt hj hcpu hd hn hc

/-! ### Registration keeps the chains -/

lemma Ok.write (h : t.Ok) (hi : t.compId i = 0) (hd : t'.desc = update t.desc i d)
    (hl : Chain t.succ (hashIdx d.compId) l)
    (hnew : ∀ j ∈ hashIdx d.compId :: l, t.compId j ≠ d.compId)
    (hlinks : t'.LinksOk) (hfree : ∀ j, t'.compId j = 0 → t'.next j = -1)
    (hgrow : ∀ b l, Chain t.succ b l → ∃ l', Chain t'.succ b l' ∧ b :: l ⊆ b :: l')
    (hmem : ∃ l', Chain t'.succ (hashIdx d.compId) l' ∧ i ∈ hashIdx d.compId :: l') :
    t'.Ok := by
  have hself : t'.compId i = d.compId := by rw [compId, hd, update_self]
  have hother : ∀ j, j ≠ i → t'.compId j = t.compId j := by
    intro j hj
    rw [compId, hd, update_of_ne hj]
    rfl
  refine ⟨hlinks, hfree, fun b hb => ?_, fun j hj => ?_, fun j k hj hjk => ?_⟩
  · obtain ⟨m, hm⟩ := h.chain b hb
    obtain ⟨m', hm', -⟩ := hgrow b m hm
    exact ⟨m', hm'⟩
  · rcases eq_or_ne j i with rfl | hji
    · rwa [hself]
    · rw [hother j hji] at hj ⊢
      obtain ⟨m, hm, hjm⟩ := h.home j hj
      obtain ⟨m', hm', hsub⟩ := hgrow _ m hm
      exact ⟨m', hm', hsub hjm⟩
  · have hne : ∀ k, k ≠ i → t.compId k ≠ 0 → t.compId k ≠ d.compId := fun k _ hk =>
      h.not_registered hl hnew hk
    rcases eq_or_ne j i with rfl | hji <;> rcases eq_or_ne k j with rfl | hkj
    · rfl
    · rw [hself] at hj hjk
      rw [hother k hkj] at hjk
      exact absurd hjk.symm (hne k hkj (hjk ▸ hj))
    · rfl
    · rw [hother j hji] at hj hjk
      rcases eq_or_ne k i with rfl | hki
      · exact absurd (hjk.trans hself) (hne j hji hj)
      · exact h.unique j k hj (hjk.trans (hother k hki))

lemma succ_update {p o : ℕ} (hn : t'.next = update t.next p o) :
    t'.succ = update t.succ p (some o) := by
  funext j
  rcases eq_or_ne j p with rfl | hj
  · simp [succ, hn]
  · simp [succ, hn, update_of_ne hj]

lemma chain_link {b p o : ℕ} (hl : Chain t.succ b l) (hpn : t.next p = -1) (hon : t.next o = -1)
    (hpo : p ≠ o) (hn : t'.next = update t.next p o) :
    ∃ l', Chain t'.succ b l' ∧ b :: l ⊆ b :: l' ∧ (p ∈ b :: l → o ∈ l') := by
  rw [succ_update hn]
  by_cases hp : p ∈ b :: l
  · refine ⟨l ++ [o], hl.concat hp (succ_eq_none hpn) (succ_eq_none hon) hpo, ?_, by simp⟩
    exact cons_subset_cons b (subset_append_left l [o])
  · refine ⟨l, hl.congr fun j hj => ?_, List.Subset.refl _, fun h => absurd h hp⟩
    exact update_of_ne (by rintro rfl; exact hp hj) _ _

theorem Adds.ok (h : t.Ok) (ha : Adds t d t' r) : t'.Ok := by
  cases ha with
  | present => exact h
  | @fill l i _ hl hnew hi hi0 hd hn _ =>
    have hs := succ_congr hn
    refine h.write hi0 hd hl hnew (fun j => hn ▸ h.links j) (fun j hj => ?_) (fun b m hm => ?_) ?_
    · rw [hn]
      rcases eq_or_ne j i with rfl | hji
      · exact h.free j hi0
      · rw [compId, hd, update_of_ne hji] at hj
        exact h.free j hj
    · exact ⟨m, hs ▸ hm, List.Subset.refl _⟩
    · exact ⟨l, hs ▸ hl, hi⟩
  | @link l p o _ hl hnew hocc hp hpn ho hd hn _ =>
    obtain ⟨ho0, hlo, hhi⟩ := of_overflowSlot ho
    have hpo : p ≠ o := by
      rintro rfl
      exact hocc p hp ho0
    have hgrow : ∀ b m, Chain t.succ b m →
        ∃ m', Chain t'.succ b m' ∧ b :: m ⊆ b :: m' ∧ (p ∈ b :: m → o ∈ m') :=
      fun b m hm => chain_link hm hpn (h.free o ho0) hpo hn
    refine h.write ho0 hd hl hnew (fun j => ?_) (fun j hj => ?_) (fun b m hm => ?_) ?_
    · rw [hn]
      rcases eq_or_ne j p with rfl | hjp
      · exact .inr (by rw [update_self]; omega)
      · rw [update_of_ne hjp]
        exact h.links j
    · have hj0 : t.compId j = 0 := by
        rcases eq_or_ne j o with rfl | hjo
        · exact ho0
        · rwa [compId, hd, update_of_ne hjo] at hj
      have hjp : j ≠ p := by
        rintro rfl
        exact hocc j hp hj0
      rw [hn, update_of_ne hjp]
      exact h.free j hj0
    · obtain ⟨m', hm', hsub, -⟩ := hgrow b m hm
      exact ⟨m', hm', hsub⟩
    · obtain ⟨m', hm', -, hom⟩ := hgrow _ l hl
      exact ⟨m', hm', mem_cons_of_mem _ (hom hp)⟩
  | full hd hn _ | corrupt _ _ hd hn _ =>
    refine h.drop hn (fun j _ => congrFun hd j) fun j hj => h.free j ?_
    rwa [compId, hd] at hj

lemma Adds.desc_eq (ha : Adds t d t' r) (hi : t.compId i ≠ 0) : t'.desc i = t.desc i := by
  cases ha with
  | present => rfl
  | fill _ _ _ hi0 hd =>
    rw [hd, update_of_ne]
    rintro rfl
    exact hi hi0
  | link _ _ _ _ _ ho hd =>
    rw [hd, update_of_ne]
    rintro rfl
    exact hi (of_overflowSlot ho).1
  | full hd | corrupt _ _ hd => rw [hd]

lemma Adds.exists_slot (h : t.Ok) (ha : Adds t d t' 0) :
    ∃ l i, Chain t'.succ (hashIdx d.compId) l ∧ i ∈ hashIdx d.compId :: l ∧
      t'.compId i = d.compId := by
  cases ha with
  | present hl hi hic => exact ⟨_, _, hl, hi, hic⟩
  | fill hl _ hi _ hd hn =>
    exact ⟨_, _, succ_congr hn ▸ hl, hi, by rw [compId, hd, update_self]⟩
  | @link _ p o _ hl _ hocc hp hpn ho hd hn =>
    have ho0 := (of_overflowSlot ho).1
    have hpo : p ≠ o := by
      rintro rfl
      exact hocc p hp ho0
    obtain ⟨m', hm', -, hom⟩ := chain_link hl hpn (h.free _ ho0) hpo hn
    exact ⟨m', _, hm', mem_cons_of_mem _ (hom hp),
      by rw [compId, hd, update_self]⟩

/-! ### Room -/

def slots (t : Table) : ℕ → ℕ → List ℕ
  | 0, _ => []
  | n + 1, i => i :: (t.succ i).elim [] (t.slots n)

def bucket (t : Table) (c : ℕ) : List ℕ := t.slots walkFuel (hashIdx c)

def HasRoom (t : Table) (d : RoutineDesc) : Prop :=
  (∀ i ∈ t.bucket d.compId, t.compId i ≠ d.compId) → t.count < rtMaxIndex

instance (t : Table) (d : RoutineDesc) : Decidable (t.HasRoom d) :=
  inferInstanceAs (Decidable (_ → _))

lemma slots_chain {n : ℕ} (hl : Chain t.succ i l) (hn : l.length < n) : t.slots n i = i :: l := by
  induction l generalizing i n with
  | nil =>
    obtain ⟨n, rfl⟩ := Nat.exists_eq_succ_of_ne_zero (Nat.ne_zero_of_lt hn)
    rw [slots, Chain.nil_iff.mp hl]
    rfl
  | cons j l ih =>
    obtain ⟨n, rfl⟩ := Nat.exists_eq_succ_of_ne_zero (Nat.ne_zero_of_lt hn)
    rw [slots, hl.1, Option.elim_some, ih hl.2 (by simpa using hn)]

lemma Ok.bucket_eq (h : t.Ok) (hl : Chain t.succ (hashIdx c) l) : t.bucket c = hashIdx c :: l :=
  slots_chain hl (lt_of_le_of_lt (h.links.length_chain hl) (by decide))

lemma Adds.count_le_max (h : t.Ok) (hc : t.count ≤ rtMaxIndex) (hs : t.HasRoom d)
    (ha : Adds t d t' r) : t'.count ≤ rtMaxIndex := by
  cases ha with
  | present => exact hc
  | fill hl hnew _ _ _ _ hk | link hl hnew _ _ _ _ _ _ hk =>
    rw [HasRoom, h.bucket_eq hl] at hs
    have := hs hnew
    omega
  | full _ _ hk | corrupt _ _ _ _ hk => omega

/-! ### The entries after a registration -/

def New (t : Table) (d : RoutineDesc) : Prop := ∀ k, t.compId k ≠ d.compId

lemma Ok.new (h : t.Ok) (hd : d.compId ≠ 0) (hl : Chain t.succ (hashIdx d.compId) l)
    (hall : ∀ j ∈ hashIdx d.compId :: l, t.compId j ≠ d.compId) : t.New d := by
  intro k hk
  exact h.not_registered hl hall (hk ▸ hd) hk

lemma Adds.desc_iff (h : t.Ok) (hd0 : d.compId ≠ 0) (ha : Adds t d t' r) {e : RoutineDesc}
    (he : e.compId ≠ 0) :
    (∃ k, t'.desc k = e) ↔ (∃ k, t.desc k = e) ∨ e = d ∧ r = 0 ∧ t.New d := by
  -- both ways of writing an entry put it into a free slot
  have write : ∀ {i : ℕ}, t'.desc = update t.desc i d → r = 0 → t.New d →
      ((∃ k, t'.desc k = e) ↔ (∃ k, t.desc k = e) ∨ e = d ∧ r = 0 ∧ t.New d) := by
    intro i hd hr hnew
    constructor
    · rintro ⟨k, rfl⟩
      rcases eq_or_ne k i with rfl | hki
      · exact .inr ⟨by rw [hd, update_self], hr, hnew⟩
      · exact .inl ⟨k, by rw [hd, update_of_ne hki]⟩
    · rintro (⟨k, rfl⟩ | ⟨rfl, -, -⟩)
      · exact ⟨k, ha.desc_eq he⟩
      · exact ⟨i, by rw [hd, update_self]⟩
  cases ha with
  | present hl hi hic => exact ⟨.inl, fun hk => hk.resolve_right fun hn => hn.2.2 _ hic⟩
  | fill hl hnew _ _ hd => exact write hd rfl (h.new hd0 hl hnew)
  | link hl hnew _ _ _ _ hd => exact write hd rfl (h.new hd0 hl hnew)
  | full hd | corrupt _ _ hd =>
    rw [hd]
    exact ⟨.inl, fun hk => hk.resolve_right (by simp)⟩

lemma Adds.count_eq (h : t.Ok) (hd0 : d.compId ≠ 0) (ha : Adds t d t' r) :
    (r = 0 ∧ t.New d) ∧ t'.count = t.count + 1 ∨ ¬ (r = 0 ∧ t.New d) ∧ t'.count = t.count := by
  cases ha with
  | present _ _ hic => exact .inr ⟨fun hn => hn.2 _ hic, rfl⟩
  | fill hl hnew _ _ _ _ hk => exact .inl ⟨⟨rfl, h.new hd0 hl hnew⟩, hk⟩
  | link hl hnew _ _ _ _ _ _ hk => exact .inl ⟨⟨rfl, h.new hd0 hl hnew⟩, hk⟩
  | full _ _ hk | corrupt _ _ _ _ hk => exact .inr ⟨by simp, hk⟩

end Table

end CpuComm
