import H713.Machine.Bytes
import H713.Machine.Loop

/-!
# The firmware image of the display driver

`LogoRegData.bin` has a header of 16 bytes, a table of projects, a table of logo sections and the
register data. A section is a sequence of sub-blocks with a header of 8 bytes and entries of 16. An
access outside of the image reads whatever is there.
-/

namespace Ge2d

open Machine

inductive Errno
  | einval
  | enoent
  | erange
deriving DecidableEq, Repr

/-- An image of `size` bytes loaded at the address `data`. -/
structure Image where
  mem  : Bytes
  data : ℕ
  size : ℕ
  /-- The address after the last byte is an address too. -/
  fits : data + size < 4294967296

namespace Image

def projectTableSize (I : Image) : ℕ := I.mem.rd16 (I.data + 8)

def logoTableSize (I : Image) : ℕ := I.mem.rd16 (I.data + 10)

def regDataSize (I : Image) : ℕ := I.mem.rd32 (I.data + 12)

def Inside (I : Image) (a n : ℕ) : Prop := I.data ≤ a ∧ a + n ≤ I.data + I.size

end Image

/-- `struct ge2d_fw_ctx` -/
structure FwCtx where
  hdr              : ℕ
  projectTable     : ℕ
  numProjects      : ℕ
  logoTable        : ℕ
  numLogos         : ℕ
  logoSectionBase  : ℕ
  logoSectionTotal : ℕ
deriving DecidableEq, Repr

/-- `struct ge2d_fw_stream` -/
structure FwStream where
  entries    : ℕ
  numEntries : ℕ
  streamType : ℕ
deriving DecidableEq, Repr

def fwMagic : ℕ := 0x6F676F6C

variable (I : Image)

def fwParse : Except Errno FwCtx :=
  if I.size < 16 then .error .einval
  else if I.mem.rd32 I.data ≠ fwMagic then .error .einval
  else if I.projectTableSize % 24 ≠ 0 ∨ I.logoTableSize % 12 ≠ 0 then .error .einval
  else if I.size < u32 (16 + I.projectTableSize + I.logoTableSize + I.regDataSize) then
    .error .einval
  else .ok
    { hdr              := I.data
      projectTable     := u32 (I.data + 16)
      numProjects      := I.projectTableSize / 24
      logoTable        := u32 (I.data + 16 + I.projectTableSize)
      numLogos         := I.logoTableSize / 12
      logoSectionBase  := u32 (I.data + 16 + I.projectTableSize)
      logoSectionTotal := u32 (I.logoTableSize + I.regDataSize) }

def findEntry (m : Bytes) (table stride n key : ℕ) : Option ℕ :=
  ((List.range n).find? fun i => m.rd32 (u32 (table + stride * i)) == key).map
    fun i => u32 (table + stride * i)

variable (ctx : FwCtx)

def fwFindProject (projectId : ℕ) : Option ℕ :=
  findEntry I.mem ctx.projectTable 24 ctx.numProjects projectId

def fwFindLogo (logoIndex : ℕ) : Option ℕ :=
  findEntry I.mem ctx.logoTable 12 ctx.numLogos logoIndex

/-- A logo section, with the stream id to look for in it. -/
structure LogoSection where
  mem        : Bytes
  logoBase   : ℕ
  offset     : ℕ
  size       : ℕ
  target     : ℕ
  streamType : ℕ

def fwSelect (projectId streamType : ℕ) : Except Errno LogoSection :=
  match fwFindProject I ctx projectId with
  | none      => .error .enoent
  | some proj =>
    match fwFindLogo I ctx streamType with
    | none      => .error .enoent
    | some logo =>
      if 4 ≤ streamType then .error .einval
      else
        let offset := I.mem.rd32 (u32 (logo + 4))
        let size := I.mem.rd32 (u32 (logo + 8))
        if u32 (ctx.logoSectionBase + ctx.logoSectionTotal) <
            u32 (u32 (ctx.logoSectionBase + offset) + size) then .error .erange
        else .ok
          { mem        := I.mem
            logoBase   := ctx.logoSectionBase
            offset     := offset
            size       := size
            target     := I.mem.rd16 (u32 (proj + 8 + 2 * streamType))
            streamType := streamType }

/-- The walk ends past the section, at a sub-block with the id looked for whose data does not fit,
or at one that does. -/
inductive Exit
  | missing
  | overflow
  | found (stream : FwStream)
deriving DecidableEq, Repr

namespace LogoSection

variable (S : LogoSection)

def base : ℕ := u32 (S.logoBase + S.offset)

def blkStreamId (pos : ℕ) : ℕ := S.mem.rd32 (u32 (S.base + pos))

def blkDataSize (pos : ℕ) : ℕ := S.mem.rd32 (u32 (S.base + pos + 4))

def visit (pos : ℕ) : ℕ ⊕ Exit :=
  if u32 (pos + 8) ≤ S.size then
    if S.blkStreamId pos = S.target then
      if S.size < u32 (pos + 8 + S.blkDataSize pos) then .inr .overflow
      else .inr (.found
        { entries    := u32 (S.base + pos + 8)
          numEntries := S.blkDataSize pos / 16
          streamType := S.streamType })
    else .inl (u32 (pos + 8 + S.blkDataSize pos))
  else .inr .missing

end LogoSection

namespace Exit

def result : Exit → Except Errno FwStream
  | missing      => .error .enoent
  | overflow     => .error .erange
  | found stream => .ok stream

def visits (rounds : ℕ) : Exit → ℕ
  | missing  => rounds
  | overflow => rounds + 1
  | found _  => rounds + 1

end Exit

def fwGetStream (projectId streamType fuel : ℕ) :
    Option (ℕ × Except Errno FwStream) :=
  match fwSelect I ctx projectId streamType with
  | .error e => some (0, .error e)
  | .ok S    => (Loop.loop S.visit fuel 0).map fun r => (r.2.visits r.1, r.2.result)

/-! ### What the functions say, entry by entry -/

section
variable {I : Image} {ctx : FwCtx} {S : LogoSection} {projectId streamType : ℕ}

lemma fwParse_eq_ok_iff :
    fwParse I = .ok ctx ↔
      (16 ≤ I.size ∧ I.mem.rd32 I.data = fwMagic ∧
        I.projectTableSize % 24 = 0 ∧ I.logoTableSize % 12 = 0 ∧
        u32 (16 + I.projectTableSize + I.logoTableSize + I.regDataSize) ≤ I.size) ∧
      ctx =
        { hdr              := I.data
          projectTable     := u32 (I.data + 16)
          numProjects      := I.projectTableSize / 24
          logoTable        := u32 (I.data + 16 + I.projectTableSize)
          numLogos         := I.logoTableSize / 12
          logoSectionBase  := u32 (I.data + 16 + I.projectTableSize)
          logoSectionTotal := u32 (I.logoTableSize + I.regDataSize) } := by
  unfold fwParse
  split_ifs with hsize hmagic htables hexp
  · simp only [false_iff]
    omega
  · simp only [false_iff]
    exact fun h => hmagic h.1.2.1
  · simp only [false_iff]
    omega
  · simp only [false_iff]
    omega
  · rw [Except.ok.injEq, eq_comm]
    refine ⟨fun h => ⟨⟨by omega, by simpa using hmagic, by omega, by omega, by omega⟩, h⟩,
      fun h => h.2⟩

def IsFirstEntry (m : Bytes) (table stride n key a : ℕ) : Prop :=
  ∃ i < n, a = table + stride * i ∧ m.rd32 a = key ∧ ∀ j < i, m.rd32 (table + stride * j) ≠ key

lemma findEntry_eq_some_iff {m : Bytes} {table stride n key a : ℕ} (hn : 0 < stride)
    (hfit : table + stride * n < 4294967296) :
    findEntry m table stride n key = some a ↔ IsFirstEntry m table stride n key a := by
  have hu : ∀ i < n, u32 (table + stride * i) = table + stride * i := by
    intro i hi
    have := Nat.mul_lt_mul_of_pos_left hi hn
    exact u32_of_lt (by omega)
  rw [findEntry, Option.map_eq_some_iff]
  constructor
  · rintro ⟨i, hfind, rfl⟩
    obtain ⟨hkey, hi, hbefore⟩ := List.find?_range_eq_some.mp hfind
    have hi' := List.mem_range.mp hi
    refine ⟨i, hi', hu i hi', by simpa using hkey, fun j hj => ?_⟩
    have := hbefore j hj
    rw [hu j (hj.trans hi')] at this
    simpa using this
  · rintro ⟨i, hi, rfl, hkey, hbefore⟩
    refine ⟨i, List.find?_range_eq_some.mpr ⟨?_, List.mem_range.mpr hi, fun j hj => ?_⟩, hu i hi⟩
    · rw [hu i hi]
      simpa using hkey
    · rw [hu j (hj.trans hi)]
      simpa using hbefore j hj

lemma IsFirstEntry.unique {m : Bytes} {table stride n key a b : ℕ}
    (ha : IsFirstEntry m table stride n key a) (hb : IsFirstEntry m table stride n key b) :
    a = b := by
  obtain ⟨i, -, rfl, hi, hib⟩ := ha
  obtain ⟨j, -, rfl, hj, hjb⟩ := hb
  rcases Nat.lt_trichotomy i j with h | rfl | h
  · exact absurd hi (hjb i h)
  · rfl
  · exact absurd hj (hib j h)

lemma fwSelect_eq_ok_iff :
    fwSelect I ctx projectId streamType = .ok S ↔
      ∃ proj logo, fwFindProject I ctx projectId = some proj ∧
        fwFindLogo I ctx streamType = some logo ∧ streamType < 4 ∧
        S = { mem        := I.mem
              logoBase   := ctx.logoSectionBase
              offset     := I.mem.rd32 (u32 (logo + 4))
              size       := I.mem.rd32 (u32 (logo + 8))
              target     := I.mem.rd16 (u32 (proj + 8 + 2 * streamType))
              streamType := streamType } ∧
        u32 (S.base + S.size) ≤ u32 (ctx.logoSectionBase + ctx.logoSectionTotal) := by
  unfold fwSelect
  cases hp : fwFindProject I ctx projectId with
  | none => simp
  | some proj =>
    cases hl : fwFindLogo I ctx streamType with
    | none => simp
    | some logo =>
      dsimp only
      split_ifs with htype hend
      · simp only [false_iff]
        rintro ⟨-, -, -, -, h, -⟩
        omega
      · simp only [false_iff]
        rintro ⟨proj', logo', -, hlogo, -, rfl, h⟩
        rw [Option.some.injEq] at hlogo
        subst hlogo
        exact absurd hend (Nat.not_lt.mpr h)
      · rw [Except.ok.injEq]
        constructor
        · rintro rfl
          exact ⟨proj, logo, rfl, rfl, by omega, rfl, Nat.not_lt.mp hend⟩
        · rintro ⟨proj', logo', hproj, hlogo, -, rfl, -⟩
          rw [Option.some.injEq] at hproj hlogo
          rw [hproj, hlogo]

lemma visit_eq_inl_iff {pos pos' : ℕ} :
    S.visit pos = .inl pos' ↔
      u32 (pos + 8) ≤ S.size ∧ S.blkStreamId pos ≠ S.target ∧
        pos' = u32 (pos + 8 + S.blkDataSize pos) := by
  unfold LogoSection.visit
  split_ifs <;> simp_all [eq_comm]

lemma visit_eq_found_iff {pos : ℕ} {stream : FwStream} :
    S.visit pos = .inr (.found stream) ↔
      u32 (pos + 8) ≤ S.size ∧ S.blkStreamId pos = S.target ∧
        u32 (pos + 8 + S.blkDataSize pos) ≤ S.size ∧
        stream = ⟨u32 (S.base + pos + 8), S.blkDataSize pos / 16, S.streamType⟩ := by
  unfold LogoSection.visit
  split_ifs <;> simp_all [eq_comm]

end

end Ge2d
