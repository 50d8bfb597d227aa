import H713.Ge2d.Firmware

/-!
# Looking for a stream

The walk over the sub-blocks of a section moves forward as long as no sum on its way wraps. Where
one wraps the walk may never end, and the checks let through what lies outside of the image.
-/

namespace Ge2d

open Machine Option

variable {I : Image} {ctx : FwCtx} {S : LogoSection} {projectId streamType : ℕ} {o p pos : ℕ}

namespace LogoSection

def Next (S : LogoSection) (o o' : ℕ) : Prop :=
  o + 8 ≤ S.size ∧ S.blkStreamId o ≠ S.target ∧ o' = o + 8 + S.blkDataSize o

def Passed (S : LogoSection) (o : ℕ) : Prop := Relation.ReflTransGen S.Next 0 o

def IsFirst (S : LogoSection) (o : ℕ) : Prop :=
  S.Passed o ∧ o + 8 ≤ S.size ∧ S.blkStreamId o = S.target

def Straight (S : LogoSection) : Prop :=
  ∀ o, S.Passed o → o + 8 ≤ S.size → S.blkStreamId o ≠ S.target →
    o + 8 + S.blkDataSize o + 8 < 4294967296

lemma Next.le (h : S.Next o p) : o ≤ p := by
  rw [h.2.2]
  omega

lemma rightUnique_next (S : LogoSection) : Relator.RightUnique S.Next :=
  fun _ _ _ h h' => h.2.2.trans h'.2.2.symm

lemma le_of_reflTransGen (h : Relation.ReflTransGen S.Next o p) : o ≤ p := by
  induction h with
  | refl => exact le_rfl
  | tail _ hnext ih => exact ih.trans hnext.le

lemma Passed.next (ho : S.Passed o) (hsize : o + 8 ≤ S.size) (hid : S.blkStreamId o ≠ S.target) :
    S.Passed (o + 8 + S.blkDataSize o) :=
  ho.tail ⟨hsize, hid, rfl⟩

lemma IsFirst.eq_of_reflTransGen (ho : S.IsFirst o) (h : Relation.ReflTransGen S.Next o p) :
    p = o := by
  rcases Relation.ReflTransGen.cases_head h with rfl | ⟨q, hq, -⟩
  · rfl
  · exact absurd ho.2.2 hq.2.1

lemma IsFirst.passed_le (ho : S.IsFirst o) (hp : S.Passed p) : p ≤ o := by
  rcases Relation.ReflTransGen.total_of_right_unique S.rightUnique_next ho.1 hp with h | h
  · exact (ho.eq_of_reflTransGen h).le
  · exact le_of_reflTransGen h

lemma IsFirst.unique (ho : S.IsFirst o) (hp : S.IsFirst p) : p = o :=
  le_antisymm (ho.passed_le hp.1) (hp.passed_le ho.1)

lemma IsFirst.straight (h : S.IsFirst 0) : S.Straight := by
  intro o ho _ hid
  rw [Nat.le_zero.mp (h.passed_le ho)] at hid
  exact absurd h.2.2 hid

/-! ### The walk -/

lemma Straight.visit (hS : S.Straight) (hpos : S.Passed pos) (hfit : pos + 8 < 4294967296)
    (hv : S.visit pos = .inl p) :
    S.Next pos p ∧ p + 8 < 4294967296 := by
  obtain ⟨hsize, hid, rfl⟩ := visit_eq_inl_iff.mp hv
  rw [u32_of_lt hfit] at hsize
  have hlt := hS pos hpos hsize hid
  rw [u32_of_lt (by omega)]
  exact ⟨⟨hsize, hid, rfl⟩, hlt⟩

lemma Straight.exists_end (hS : S.Straight) :
    ∃ n x e, Loop.after S.visit n 0 = some x ∧ S.visit x = .inr e ∧ n * 8 ≤ x ∧ n * 8 ≤ S.size ∧
      x + 8 < 4294967296 := by
  have hstep : ∀ x x', (S.Passed x ∧ x + 8 < 4294967296) → S.visit x = .inl x' →
      (S.Passed x' ∧ x' + 8 < 4294967296) ∧ min x S.size + 8 ≤ min x' S.size ∧
        min x S.size ≤ S.size := by
    rintro x x' ⟨hx, hfit⟩ hv
    obtain ⟨hnext, hfit'⟩ := hS.visit hx hfit hv
    have hsize := hnext.1
    have hx' := hnext.2.2
    exact ⟨⟨hx.tail hnext, hfit'⟩, by omega, by omega⟩
  obtain ⟨n, x, e, hx, he, ⟨-, hfit⟩, hrank⟩ :=
    Loop.exists_end_of_climb (fun x => min x S.size) (by decide) ⟨.refl, by decide⟩ hstep
  exact ⟨n, x, e, hx, he, by omega, by omega, hfit⟩

lemma after_visit_lt {n x : ℕ} (h : Loop.after S.visit n pos = some x) (hpos : pos < 4294967296) :
    x < 4294967296 := by
  induction n generalizing pos with
  | zero =>
    cases h
    exact hpos
  | succ n ih =>
    cases hv : S.visit pos with
    | inl p =>
      rw [Loop.after_succ_of_inl hv] at h
      refine ih h ?_
      rw [(visit_eq_inl_iff.mp hv).2.2]
      exact u32_lt _
    | inr e =>
      rw [Loop.after_succ_of_inr hv] at h
      cases h

end LogoSection

/-! ### Ending -/

def sectionSize (I : Image) (ctx : FwCtx) (projectId streamType : ℕ) : ℕ :=
  match fwSelect I ctx projectId streamType with
  | .ok S    => S.size
  | .error _ => 0

def LogoSection.NeverBack (S : LogoSection) : Prop :=
  ∀ i j x, i < j → Loop.after S.visit i 0 = some x → Loop.after S.visit j 0 ≠ some x

lemma fwGetStream_of_error {e : Errno} (fuel : ℕ)
    (h : fwSelect I ctx projectId streamType = .error e) :
    fwGetStream I ctx projectId streamType fuel = some (0, .error e) := by
  rw [fwGetStream, h]

lemma fwGetStream_of_ok {fuel : ℕ} (h : fwSelect I ctx projectId streamType = .ok S) :
    fwGetStream I ctx projectId streamType fuel =
      (Loop.loop S.visit fuel 0).map fun r => (r.2.visits r.1, r.2.result) := by
  rw [fwGetStream, h]

lemma visits_le {n x : ℕ} {e : Exit} (hv : S.visit x = .inr e) (hx : n * 8 ≤ x)
    (hsize : n * 8 ≤ S.size) (hfit : x + 8 < 4294967296) : e.visits n ≤ S.size / 8 := by
  unfold LogoSection.visit at hv
  rw [u32_of_lt hfit] at hv
  split_ifs at hv with hin hid hend
  · cases hv
    show n + 1 ≤ S.size / 8
    omega
  · cases hv
    show n + 1 ≤ S.size / 8
    omega
  · cases hv
    show n ≤ S.size / 8
    omega

lemma exists_fwGetStream_iff (h : fwSelect I ctx projectId streamType = .ok S) :
    (∃ fuel r, fwGetStream I ctx projectId streamType fuel = some r) ↔ Loop.Ends S.visit 0 := by
  simp only [fwGetStream_of_ok h, map_eq_some_iff]
  constructor
  · rintro ⟨fuel, -, r, hr, -⟩
    exact ⟨fuel, r, hr⟩
  · rintro ⟨fuel, r, hr⟩
    exact ⟨fuel, _, r, hr, rfl⟩

/-- The search reads at most one sub-block for each 8 bytes of the section where no sum wraps; in
any case it ends exactly when it comes to no offset a second time. -/
theorem fwGetStream_ends (I : Image) (ctx : FwCtx) (projectId streamType : ℕ) :
    ((∀ S, fwSelect I ctx projectId streamType = .ok S → S.Straight) →
      ∃ fuel visits r, fwGetStream I ctx projectId streamType fuel = some (visits, r) ∧
        visits ≤ sectionSize I ctx projectId streamType / 8) ∧
    ((∃ fuel r, fwGetStream I ctx projectId streamType fuel = some r) ↔
      ∀ S, fwSelect I ctx projectId streamType = .ok S → S.NeverBack) := by
  cases hsel : fwSelect I ctx projectId streamType with
  | error e =>
    have hget := fwGetStream_of_error 0 hsel
    exact ⟨fun _ => ⟨0, 0, _, hget, Nat.zero_le _⟩, fun _ _ h => (nomatch h), fun _ => ⟨0, _, hget⟩⟩
  | ok S =>
    simp only [Except.ok.injEq, forall_eq']
    constructor
    · intro hS
      obtain ⟨n, x, e, hx, he, hnx, hnsize, hfit⟩ := hS.exists_end
      refine ⟨n + 1, e.visits n, e.result, ?_, ?_⟩
      · rw [fwGetStream_of_ok hsel,
          Loop.loop_eq_some_iff.mpr ⟨n.lt_succ_self, x, hx, he⟩, map_some]
      · rw [sectionSize, hsel]
        exact visits_le he hnx hnsize hfit
    · rw [exists_fwGetStream_iff hsel]
      exact Loop.ends_iff_forall_ne (Set.finite_lt_nat 4294967296) fun n x hx =>
        LogoSection.after_visit_lt hx (by decide)

def Image.ofWords (data : ℕ) (ws : List ℕ) (a : ℕ) (vs : List ℕ)
    (h : data + 4 * ws.length < 4294967296) : Image where
  mem  := ((Bytes.mk fun _ => 0).wrWords a vs).wrWords data ws
  data := data
  size := 4 * ws.length
  fits := h

def plainImage : Image :=
  .ofWords 4096
    [fwMagic, 1, 786456, 24,
      48, 0, 131073, 0, 286331153, 286331153,
      0, 12, 24,
      1, 16, 92274688, 5, 4294967295, 0] 0 [] (by decide)

lemma fwSelect_plainImage :
    fwSelect plainImage ⟨4096, 4112, 1, 4136, 1, 4136, 36⟩ 48 0 =
      .ok ⟨plainImage.mem, 4136, 12, 24, 1, 0⟩ := by
  rw [fwSelect_eq_ok_iff]
  exact ⟨4112, 4136, by decide +kernel, by decide +kernel, by decide, rfl, by decide +kernel⟩

lemma isFirst_plainImage : LogoSection.IsFirst ⟨plainImage.mem, 4136, 12, 24, 1, 0⟩ 0 :=
  ⟨.refl, by decide, by decide +kernel⟩

/-- A sub-block of another stream comes first. -/
def skippedImage : Image :=
  .ofWords 4096
    [fwMagic, 1, 786456, 36,
      48, 0, 131073, 0, 286331153, 286331153,
      0, 12, 36,
      7, 4, 0,
      1, 16, 92274688, 5, 4294967295, 0] 0 [] (by decide)

lemma straight_skippedImage : LogoSection.Straight ⟨skippedImage.mem, 4136, 12, 36, 1, 0⟩ := by
  intro o ho _ hid
  have hsize : LogoSection.blkDataSize ⟨skippedImage.mem, 4136, 12, 36, 1, 0⟩ 0 = 4 := by
    decide +kernel
  rcases Relation.ReflTransGen.cases_head ho with rfl | ⟨q, hq, hrest⟩
  · rw [hsize]
    decide
  · -- the second sub-block is the one looked for
    obtain rfl : q = 12 := by rw [hq.2.2, hsize]
    have hfirst : LogoSection.IsFirst ⟨skippedImage.mem, 4136, 12, 36, 1, 0⟩ 12 :=
      ⟨.single hq, by decide, by decide +kernel⟩
    rw [hfirst.eq_of_reflTransGen hrest] at hid
    exact absurd hfirst.2.2 hid

/-- The first sub-block is passed over, so two are read. -/
theorem fwGetStream_ends_skippedImage :
    ∃ ctx, fwParse skippedImage = .ok ctx ∧
      ((fwGetStream skippedImage ctx 48 0 2).map Prod.fst = some 2 ∧
      ∃ fuel visits r, fwGetStream skippedImage ctx 48 0 fuel = some (visits, r) ∧
        visits ≤ sectionSize skippedImage ctx 48 0 / 8) := by
  refine ⟨⟨4096, 4112, 1, 4136, 1, 4136, 48⟩, by decide +kernel, by decide +kernel, ?_⟩
  refine (fwGetStream_ends _ _ _ _).1 fun S hS => ?_
  have hsel : fwSelect skippedImage ⟨4096, 4112, 1, 4136, 1, 4136, 48⟩ 48 0 =
      .ok ⟨skippedImage.mem, 4136, 12, 36, 1, 0⟩ := by
    rw [fwSelect_eq_ok_iff]
    exact ⟨4112, 4136, by decide +kernel, by decide +kernel, by decide, rfl, by decide +kernel⟩
  rw [hsel, Except.ok.injEq] at hS
  rw [← hS]
  exact straight_skippedImage

def loopingImage : Image :=
  .ofWords 4096
    [fwMagic, 1, 786456, 8,
      48, 0, 131073, 0, 286331153, 286331153,
      0, 12, 8,
      7, 4294967288] 0 [] (by decide)

/-- An image that is accepted and that the search never comes to an end on. -/
theorem fwGetStream_never_ends :
    ∃ ctx, fwParse loopingImage = .ok ctx ∧
      ∀ fuel, fwGetStream loopingImage ctx 48 0 fuel = none := by
  refine ⟨⟨4096, 4112, 1, 4136, 1, 4136, 20⟩, by decide +kernel, fun fuel => ?_⟩
  have hsel : fwSelect loopingImage ⟨4096, 4112, 1, 4136, 1, 4136, 20⟩ 48 0 =
      .ok ⟨loopingImage.mem, 4136, 12, 8, 1, 0⟩ := by
    rw [fwSelect_eq_ok_iff]
    exact ⟨4112, 4136, by decide +kernel, by decide +kernel, by decide, rfl, by decide +kernel⟩
  have hvisit : LogoSection.visit ⟨loopingImage.mem, 4136, 12, 8, 1, 0⟩ 0 = .inl 0 := by
    decide +kernel
  rw [fwGetStream_of_ok hsel, Loop.loop_eq_none_of_return hvisit, map_none]

end Ge2d
