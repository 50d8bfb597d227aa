import H713.Ge2d.Streams

/-!
# What the parser and the search give out

The tables and the register data of an accepted image lie inside of it exactly when the sum of their
sizes does not wrap. The search then gives out the stream the tables name exactly when the sums on
the way to it do not wrap either.
-/

namespace Ge2d

open Machine

variable {I : Image} {ctx : FwCtx} {S : LogoSection} {stream : FwStream}
  {projectId streamType o : ℕ}

def TablesInside (I : Image) (ctx : FwCtx) : Prop :=
  I.Inside ctx.projectTable (24 * ctx.numProjects) ∧
    I.Inside ctx.logoTable (12 * ctx.numLogos) ∧
    I.Inside (ctx.logoTable + 12 * ctx.numLogos) I.regDataSize

def Image.SizesFit (I : Image) : Prop :=
  16 + I.projectTableSize + I.logoTableSize + I.regDataSize < 4294967296

def Selects (I : Image) (ctx : FwCtx) (projectId streamType : ℕ) (S : LogoSection) : Prop :=
  ∃ proj logo, IsFirstEntry I.mem ctx.projectTable 24 ctx.numProjects projectId proj ∧
    IsFirstEntry I.mem ctx.logoTable 12 ctx.numLogos streamType logo ∧
    S = { mem        := I.mem
          logoBase   := ctx.logoSectionBase
          offset     := I.mem.rd32 (logo + 4)
          size       := I.mem.rd32 (logo + 8)
          target     := I.mem.rd16 (proj + 8 + 2 * streamType)
          streamType := streamType }

def StreamInside (I : Image) (S : LogoSection) (stream : FwStream) : Prop :=
  ∃ o, S.IsFirst o ∧ stream.entries = S.logoBase + S.offset + (o + 8) ∧
    stream.numEntries = S.blkDataSize o / 16 ∧ o + 8 + 16 * stream.numEntries ≤ S.size ∧
    I.Inside stream.entries (16 * stream.numEntries)

/-- No sum on the way to the sub-block wraps, except that the end of the section may where the
entries end inside of the image. -/
structure LogoSection.Exact (S : LogoSection) (I : Image) : Prop where
  base     : S.logoBase + S.offset < 4294967296
  straight : S.Straight
  data     : ∀ o, S.IsFirst o → o + 8 + S.blkDataSize o < 4294967296
  top      : S.logoBase + S.offset + S.size < 4294967296 ∨
    ∀ o, S.IsFirst o →
      S.logoBase + S.offset + (o + 8) + 16 * (S.blkDataSize o / 16) ≤ I.data + I.size

lemma layout (hparse : fwParse I = .ok ctx) (hfit : I.SizesFit) :
    ctx.projectTable + 24 * ctx.numProjects = ctx.logoTable ∧
      ctx.logoTable = ctx.logoSectionBase ∧
      ctx.logoTable + 12 * ctx.numLogos + I.regDataSize =
        ctx.logoSectionBase + ctx.logoSectionTotal ∧
      I.data + 16 = ctx.projectTable ∧
      ctx.logoSectionBase + ctx.logoSectionTotal ≤ I.data + I.size := by
  obtain ⟨⟨hsize, -, hproj, hlogo, hexp⟩, rfl⟩ := fwParse_eq_ok_iff.mp hparse
  have hfits := I.fits
  rw [u32_of_lt hfit] at hexp
  unfold Image.SizesFit at hfit
  have htable : u32 (I.data + 16) = I.data + 16 := u32_of_lt (by omega)
  have hbase : u32 (I.data + 16 + I.projectTableSize) = I.data + 16 + I.projectTableSize :=
    u32_of_lt (by omega)
  have htotal : u32 (I.logoTableSize + I.regDataSize) = I.logoTableSize + I.regDataSize :=
    u32_of_lt (by omega)
  rw [htable, hbase, htotal]
  refine ⟨?_, rfl, ?_, rfl, ?_⟩
  · show I.data + 16 + 24 * (I.projectTableSize / 24) = I.data + 16 + I.projectTableSize
    omega
  · show I.data + 16 + I.projectTableSize + 12 * (I.logoTableSize / 12) + I.regDataSize =
      I.data + 16 + I.projectTableSize + (I.logoTableSize + I.regDataSize)
    omega
  · show I.data + 16 + I.projectTableSize + (I.logoTableSize + I.regDataSize) ≤ I.data + I.size
    omega

lemma tablesInside_iff (hparse : fwParse I = .ok ctx) : TablesInside I ctx ↔ I.SizesFit := by
  constructor
  · rintro ⟨-, hlogo, hreg⟩
    obtain ⟨⟨hsize, -, -, halign, -⟩, rfl⟩ := fwParse_eq_ok_iff.mp hparse
    have hfits := I.fits
    have hle := hlogo.1
    have hend := hreg.2
    have hp : I.projectTableSize < 65536 := I.mem.rd16_lt _
    dsimp only at hle hend
    -- the logo table is not below the image, so its address has not wrapped
    have hbase : u32 (I.data + 16 + I.projectTableSize) = I.data + 16 + I.projectTableSize := by
      unfold u32 at hle ⊢
      omega
    rw [hbase] at hend
    unfold Image.SizesFit
    omega
  · intro hfit
    obtain ⟨hproj, hlogo, htotal, hbase, hend⟩ := layout hparse hfit
    exact ⟨⟨by omega, by omega⟩, ⟨by omega, by omega⟩, by omega, by omega⟩

/-! ### The section -/

lemma IsFirstEntry.le {m : Bytes} {table stride n key a : ℕ}
    (h : IsFirstEntry m table stride n key a) : a + stride ≤ table + stride * n := by
  obtain ⟨i, hi, rfl, -⟩ := h
  have := Nat.mul_le_mul_left stride (Nat.succ_le_of_lt hi)
  rw [Nat.mul_succ] at this
  omega

lemma Selects.unique {T : LogoSection} (hS : Selects I ctx projectId streamType S)
    (hT : Selects I ctx projectId streamType T) : T = S := by
  obtain ⟨proj, logo, hproj, hlogo, rfl⟩ := hS
  obtain ⟨proj', logo', hproj', hlogo', rfl⟩ := hT
  rw [hproj.unique hproj', hlogo.unique hlogo']

lemma selects_of_fwSelect (hparse : fwParse I = .ok ctx) (hfit : I.SizesFit)
    (hsel : fwSelect I ctx projectId streamType = .ok S) :
    Selects I ctx projectId streamType S ∧
      u32 (S.base + S.size) ≤ ctx.logoSectionBase + ctx.logoSectionTotal ∧
      S.logoBase = ctx.logoSectionBase ∧ S.size < 4294967296 := by
  obtain ⟨hproj, hlogo, htotal, hbase, hend⟩ := layout hparse hfit
  have hfits := I.fits
  obtain ⟨p, l, hp, hl, htype, hS, hle⟩ := fwSelect_eq_ok_iff.mp hsel
  rw [fwFindProject, findEntry_eq_some_iff (by decide) (by omega)] at hp
  rw [fwFindLogo, findEntry_eq_some_iff (by decide) (by omega)] at hl
  have hple := hp.le
  have hlle := hl.le
  rw [u32_of_lt (n := ctx.logoSectionBase + ctx.logoSectionTotal) (by omega)] at hle
  rw [u32_of_lt (n := l + 4) (by omega), u32_of_lt (n := l + 8) (by omega),
    u32_of_lt (n := p + 8 + 2 * streamType) (by omega)] at hS
  refine ⟨⟨p, l, hp, hl, hS⟩, hle, ?_, ?_⟩
  · rw [hS]
  · rw [hS]
    exact I.mem.rd32_lt _

/-! ### The stream -/

lemma fwGetStream_eq_ok {fuel visits : ℕ}
    (h : fwGetStream I ctx projectId streamType fuel = some (visits, .ok stream)) :
    ∃ S n x, fwSelect I ctx projectId streamType = .ok S ∧ Loop.after S.visit n 0 = some x ∧
      S.visit x = .inr (.found stream) := by
  cases hsel : fwSelect I ctx projectId streamType with
  | error e =>
    rw [fwGetStream_of_error fuel hsel] at h
    cases h
  | ok S =>
    rw [fwGetStream_of_ok hsel, Option.map_eq_some_iff] at h
    obtain ⟨⟨n, e⟩, hloop, he⟩ := h
    obtain ⟨-, x, hx, hend⟩ := Loop.loop_eq_some_iff.mp hloop
    cases e with
    | missing => cases he
    | overflow => cases he
    | found stream' =>
      cases he
      exact ⟨S, n, x, rfl, hx, hend⟩

lemma LogoSection.Straight.passed_of_after (hS : S.Straight) {n x : ℕ}
    (h : Loop.after S.visit n 0 = some x) : S.Passed x ∧ x + 8 < 4294967296 := by
  induction n generalizing x with
  | zero =>
    cases h
    exact ⟨.refl, by decide⟩
  | succ n ih =>
    rw [Loop.after_add, Option.bind_eq_some_iff] at h
    obtain ⟨y, hy, hx⟩ := h
    obtain ⟨hpassed, hfit⟩ := ih hy
    cases hv : S.visit y with
    | inr e =>
      rw [Loop.after_succ_of_inr hv] at hx
      cases hx
    | inl z =>
      rw [Loop.after_succ_of_inl hv] at hx
      cases hx
      obtain ⟨hnext, hfit'⟩ := hS.visit hpassed hfit hv
      exact ⟨hpassed.tail hnext, hfit'⟩

lemma StreamInside.exact (h : StreamInside I S stream) (hbase : I.data + 16 ≤ S.logoBase) :
    S.Exact I := by
  obtain ⟨o, ho, hent, hnum, -, hin⟩ := h
  have hfits := I.fits
  have hend := hin.2
  rw [hent, hnum] at hend
  refine ⟨by omega, fun p hp hpsize hid => ?_, fun p hp => ?_, .inr fun p hp => ?_⟩
  · have := ho.passed_le (hp.next hpsize hid)
    omega
  · rw [ho.unique hp]
    omega
  · rw [ho.unique hp]
    exact hend

lemma LogoSection.Exact.streamInside (hS : S.Exact I) {n x : ℕ}
    (hx : Loop.after S.visit n 0 = some x) (hv : S.visit x = .inr (.found stream))
    (hbase : I.data + 16 ≤ S.logoBase) (hend : u32 (S.base + S.size) ≤ I.data + I.size) :
    StreamInside I S stream := by
  obtain ⟨hpassed, hfit⟩ := hS.straight.passed_of_after hx
  obtain ⟨hsize, hid, hdata, rfl⟩ := visit_eq_found_iff.mp hv
  rw [u32_of_lt hfit] at hsize
  have hfirst : S.IsFirst x := ⟨hpassed, hsize, hid⟩
  rw [u32_of_lt (hS.data x hfirst)] at hdata
  have hb : S.base = S.logoBase + S.offset := u32_of_lt hS.base
  have hfits := I.fits
  -- the end of the entries, by the check of the section or by hypothesis
  have hlast : S.logoBase + S.offset + (x + 8) + 16 * (S.blkDataSize x / 16) ≤
      I.data + I.size := by
    rcases hS.top with htop | htop
    · rw [hb, u32_of_lt htop] at hend
      omega
    · exact htop x hfirst
  have hentries : u32 (S.base + x + 8) = S.logoBase + S.offset + (x + 8) := by
    rw [hb, u32_of_lt (by omega)]
    omega
  refine ⟨x, hfirst, hentries, rfl, ?_, ?_, ?_⟩
  · show x + 8 + 16 * (S.blkDataSize x / 16) ≤ S.size
    omega
  · show I.data ≤ u32 (S.base + x + 8)
    omega
  · show u32 (S.base + x + 8) + 16 * (S.blkDataSize x / 16) ≤ I.data + I.size
    omega

/-- An accepted image has its tables inside exactly when the sizes of the header do not wrap; the
stream given out is then the one named exactly when no sum on the way wraps. -/
theorem fwStream_inside_iff (I : Image) (ctx : FwCtx) (hparse : fwParse I = .ok ctx) :
    (TablesInside I ctx ↔ I.SizesFit) ∧
      ∀ projectId streamType fuel visits stream,
        fwGetStream I ctx projectId streamType fuel = some (visits, .ok stream) →
        ((TablesInside I ctx ∧
            ∃ S, Selects I ctx projectId streamType S ∧ StreamInside I S stream) ↔
          I.SizesFit ∧ ∀ S, Selects I ctx projectId streamType S → S.Exact I) := by
  refine ⟨tablesInside_iff hparse, fun projectId streamType fuel visits stream hget => ?_⟩
  rw [tablesInside_iff hparse]
  refine and_congr_right fun hfit => ?_
  obtain ⟨S, n, x, hsel, hx, hv⟩ := fwGetStream_eq_ok hget
  obtain ⟨hS, hend, hlogo, -⟩ := selects_of_fwSelect hparse hfit hsel
  obtain ⟨hproj, hbase, -, hdata, htotal⟩ := layout hparse hfit
  have hle : I.data + 16 ≤ S.logoBase := by omega
  constructor
  · rintro ⟨T, hT, hin⟩ U hU
    rw [hS.unique hU]
    rw [hS.unique hT] at hin
    exact hin.exact hle
  · intro hexact
    exact ⟨S, hS, (hexact S hS).streamInside hx hv hle (hend.trans htotal)⟩

theorem fwStream_inside_iff_plainImage :
    TablesInside plainImage ⟨4096, 4112, 1, 4136, 1, 4136, 36⟩ ∧
      ∃ S, Selects plainImage ⟨4096, 4112, 1, 4136, 1, 4136, 36⟩ 48 0 S ∧
        StreamInside plainImage S ⟨4156, 1, 0⟩ := by
  have hparse : fwParse plainImage = .ok ⟨4096, 4112, 1, 4136, 1, 4136, 36⟩ := by decide +kernel
  have hsel := fwSelect_plainImage
  have hget : fwGetStream plainImage ⟨4096, 4112, 1, 4136, 1, 4136, 36⟩ 48 0 1 =
      some (1, .ok ⟨4156, 1, 0⟩) := by
    rw [fwGetStream_of_ok hsel]
    decide +kernel
  have hfit : plainImage.SizesFit := by
    unfold Image.SizesFit
    decide +kernel
  have hfirst := isFirst_plainImage
  refine ((fwStream_inside_iff _ _ hparse).2 48 0 1 1 _ hget).mpr ⟨hfit, fun S hS => ?_⟩
  rw [(selects_of_fwSelect hparse hfit hsel).1.unique hS]
  refine ⟨by decide, hfirst.straight, fun o ho => ?_, .inl (by decide)⟩
  rw [hfirst.unique ho]
  decide +kernel

def shortImage : Image := .ofWords 4096 [fwMagic, 1, 0, 4294967280] 0 [] (by decide)

def strayImage : Image :=
  .ofWords 4096
    [fwMagic, 1, 786456, 0,
      48, 0, 131073, 0, 286331153, 286331153,
      0, 4294967160, 24] 4000 [1, 16] (by decide)

/-- An image is accepted whose register data is not there, and from another one a stream is given
out that lies before the image. -/
theorem fwStream_outside :
    (∃ ctx, fwParse shortImage = .ok ctx ∧ ¬ TablesInside shortImage ctx) ∧
      ∃ ctx stream, fwParse strayImage = .ok ctx ∧ TablesInside strayImage ctx ∧
        fwGetStream strayImage ctx 48 0 1 = some (1, .ok stream) ∧ stream.numEntries = 1 ∧
        ¬ strayImage.Inside stream.entries 16 := by
  constructor
  · have hparse : fwParse shortImage = .ok ⟨4096, 4112, 0, 4112, 0, 4112, 4294967280⟩ := by
      decide +kernel
    refine ⟨_, hparse, ?_⟩
    rw [tablesInside_iff hparse]
    unfold Image.SizesFit
    decide +kernel
  · have hparse : fwParse strayImage = .ok ⟨4096, 4112, 1, 4136, 1, 4136, 12⟩ := by decide +kernel
    have hsel : fwSelect strayImage ⟨4096, 4112, 1, 4136, 1, 4136, 12⟩ 48 0 =
        .ok ⟨strayImage.mem, 4136, 4294967160, 24, 1, 0⟩ := by
      rw [fwSelect_eq_ok_iff]
      exact ⟨4112, 4136, by decide +kernel, by decide +kernel, by decide, rfl, by decide +kernel⟩
    refine ⟨_, ⟨4008, 1, 0⟩, hparse, ?_, ?_, rfl, ?_⟩
    · rw [tablesInside_iff hparse]
      unfold Image.SizesFit
      decide +kernel
    · rw [fwGetStream_of_ok hsel]
      decide +kernel
    · unfold Image.Inside
      decide +kernel

end Ge2d
