import H713.Machine.Word
import Mathlib.Order.CompletePartialOrder
import Mathlib.Order.Interval.Set.Disjoint
import Mathlib.Tactic.Ring

/-!
# Output buffers of the AV1 decoder

`sun50i_av1_try_fmt` says how many planes a buffer has and how large they are, and
`sun50i_av1_device_run` where in it the decoder writes each colour component.
-/

namespace Av1

open Machine Function

/-! ### Formats -/

def pixFmtAv1Frame : UInt32 := 0x46315641

def pixFmtYuv420 : UInt32 := 0x32315559

def pixFmtYuv420m : UInt32 := 0x32314d59

def pixFmtNv12 : UInt32 := 0x3231564e

def pixFmtNv12m : UInt32 := 0x32314d4e

def av1InputFormats : List UInt32 := [pixFmtAv1Frame]

def av1OutputFormats : List UInt32 := [pixFmtYuv420, pixFmtYuv420m, pixFmtNv12, pixFmtNv12m]

structure PlaneFmt where
  bytesperline : ℕ
  sizeimage : ℕ

/-- `struct v4l2_pix_format_mplane`. The numbers have 32 bits. -/
structure PixFormat where
  pixelformat : UInt32
  width : ℕ
  height : ℕ
  numPlanes : ℕ
  planeFmt : ℕ → PlaneFmt

def findFormat (fourcc : UInt32) (isOutput : Bool) : Option UInt32 :=
  (if isOutput then av1OutputFormats else av1InputFormats).find? (· == fourcc)

def clamp (val lo hi : ℕ) : ℕ := min (max val lo) hi

variable (isOutput : Bool)

def takenFormat (fourcc : UInt32) : UInt32 :=
  match findFormat fourcc (!isOutput) with
  | some _ => fourcc
  | none   => if isOutput then pixFmtAv1Frame else pixFmtYuv420

def tryFmt (f : PixFormat) : PixFormat :=
  let pixelformat := takenFormat isOutput f.pixelformat
  let w := clamp f.width 64 7680
  let h := clamp f.height 64 4320
  if isOutput then
    ⟨pixelformat, w, h, 1, Function.update f.planeFmt 0 ⟨0, 1048576⟩⟩
  else if pixelformat = pixFmtNv12 ∨ pixelformat = pixFmtYuv420 then
    ⟨pixelformat, w, h, 1, Function.update f.planeFmt 0 ⟨w, u32 (u32 (w * h) * 3) / 2⟩⟩
  else
    ⟨pixelformat, w, h, 3, fun i =>
      if i = 0 then ⟨w, u32 (w * h)⟩
      else if i = 1 ∨ i = 2 then ⟨w / 2, u32 (w * h) / 4⟩
      else f.planeFmt i⟩

/-- The formats of a `struct sun50i_av1_ctx`. -/
structure Ctx where
  srcFmt : PixFormat
  dstFmt : PixFormat

def sFmt (ctx : Ctx) (isOutput : Bool) (f : PixFormat) : Ctx :=
  if isOutput then { ctx with srcFmt := tryFmt isOutput f }
  else { ctx with dstFmt := tryFmt isOutput f }

/-! ### Buffers -/

def queueSetup (pix : PixFormat) (nplanes : ℕ) (sizes : ℕ → ℕ) : Option (ℕ × (ℕ → ℕ)) :=
  if nplanes ≠ 0 then
    if nplanes ≠ pix.numPlanes then none
    else if ∃ i < pix.numPlanes, sizes i < (pix.planeFmt i).sizeimage then none
    else some (nplanes, sizes)
  else some (pix.numPlanes,
    fun i => if i < pix.numPlanes then (pix.planeFmt i).sizeimage else sizes i)

/-- The planes of a capture buffer. -/
structure Buffer where
  addr : ℕ → ℕ
  size : ℕ → ℕ

def Buffer.plane (buf : Buffer) (i : ℕ) : Set ℕ := Set.Ico (buf.addr i) (buf.addr i + buf.size i)

def bufPrepare (pix : PixFormat) (buf : Buffer) : Bool :=
  decide (∀ i < pix.numPlanes, (pix.planeFmt i).sizeimage ≤ buf.size i)

/-- A buffer with the sizes that `sun50i_av1_queue_setup` accepts or sets is large enough. -/
lemma bufPrepare_of_queueSetup {pix : PixFormat} {buf : Buffer} {n n' : ℕ} {sizes : ℕ → ℕ}
    (h : queueSetup pix n sizes = some (n', buf.size)) : bufPrepare pix buf = true := by
  refine decide_eq_true fun i hi => ?_
  rw [queueSetup] at h
  split_ifs at h with _ _ hsmall
  · obtain ⟨-, rfl⟩ := Prod.mk.inj (Option.some.inj h)
    exact Nat.not_lt.mp fun hlt => hsmall ⟨i, hi, hlt⟩
  · obtain ⟨-, hsize⟩ := Prod.mk.inj (Option.some.inj h)
    rw [← hsize]
    exact (if_pos hi).ge

/-- The plane sizes of `sun50i_av1_queue_setup`, and planes that do not overlap, with addresses of
32 bits. -/
structure Buffer.For (pix : PixFormat) (buf : Buffer) : Prop where
  setup : queueSetup pix 0 buf.size = some (pix.numPlanes, buf.size)
  fits : ∀ i < pix.numPlanes, buf.addr i + buf.size i ≤ 4294967296
  apart : ∀ i < pix.numPlanes, ∀ j < pix.numPlanes, i ≠ j → Disjoint (buf.plane i) (buf.plane j)

/-! ### Decoding -/

/-- The fields of `struct av1_frame_config` that are used. -/
structure FrameConfig where
  format : ℕ
  fbdEnable : Bool
  blueEnable : Bool
  interlaceEnable : Bool
  imageAddr : ℕ → ℕ
  imageWidth : ℕ
  metadataAddr : ℕ
  metadataSize : ℕ

inductive Reg where
  | ctrl
  | intStatus
  | frameConfig
  | metadataAddr
  | metadataSize
  | outputAddrY
  | outputAddrU
  | outputAddrV
  | outputStride
  | decodeStart
  deriving DecidableEq

def frameConfig (dst : PixFormat) (buf : Buffer) (metadataAddr metadataSize : ℕ) :
    FrameConfig where
  format := 20
  fbdEnable := true
  blueEnable := false
  interlaceEnable := false
  imageAddr :=
    if 1 < dst.numPlanes then buf.addr
    else fun
      | 0 => buf.addr 0
      | 1 => buf.addr 0 + u32 ((dst.planeFmt 0).bytesperline * dst.height)
      | _ => 0
  imageWidth := dst.width
  metadataAddr := metadataAddr
  metadataSize := metadataSize

def ctrlVal (config : FrameConfig) : ℕ :=
  1 + (if config.fbdEnable then 4 else 0) + (if config.blueEnable then 8 else 0) +
    (if config.interlaceEnable then 16 else 0)

def hwStartDecode (busy : Bool) (config : FrameConfig) : Option (List (Reg × ℕ)) :=
  if busy then none
  else some ([(.frameConfig, config.format),
      (.outputAddrY, u32 (config.imageAddr 0)),
      (.outputAddrU, u32 (config.imageAddr 1)),
      (.outputAddrV, u32 (config.imageAddr 2)),
      (.outputStride, config.imageWidth)] ++
    (if config.metadataAddr ≠ 0 ∧ config.metadataSize ≠ 0 then
      [(.metadataAddr, u32 config.metadataAddr), (.metadataSize, config.metadataSize)] else []) ++
    [(.intStatus, 0xffffffff), (.ctrl, ctrlVal config), (.decodeStart, 1)])

def deviceRun (busy : Bool) (dst : PixFormat) (buf : Buffer) (metadataAddr metadataSize : ℕ) :
    Option (List (Reg × ℕ)) :=
  hwStartDecode busy (frameConfig dst buf metadataAddr metadataSize)

/-! ### Components -/

/-- A colour component: the register with its address, the bytes of a row and the number of
rows. -/
structure Component where
  reg : Reg
  stride : ℕ
  rows : ℕ

def components (pix : PixFormat) : List Component :=
  let cw := (pix.width + 1) / 2
  let ch := (pix.height + 1) / 2
  if pix.pixelformat = pixFmtNv12 ∨ pix.pixelformat = pixFmtNv12m then
    [⟨.outputAddrY, pix.width, pix.height⟩, ⟨.outputAddrU, 2 * cw, ch⟩]
  else
    [⟨.outputAddrY, pix.width, pix.height⟩, ⟨.outputAddrU, cw, ch⟩, ⟨.outputAddrV, cw, ch⟩]

def Component.extent (c : Component) (writes : List (Reg × ℕ)) : Set ℕ :=
  let addr := (writes.lookup c.reg).getD 0
  Set.Ico addr (addr + c.stride * c.rows)

/-- Each component lies in a plane, and no two of them overlap. -/
@[mk_iff]
structure Placed (dst : PixFormat) (buf : Buffer) (writes : List (Reg × ℕ)) : Prop where
  inside : ∀ c ∈ components dst, ∃ i < dst.numPlanes, c.extent writes ⊆ buf.plane i
  apart : (components dst).Pairwise fun c d => Disjoint (c.extent writes) (d.extent writes)

/-! ### Sizes -/

section

variable {w h : ℕ}

lemma four_mul_chroma (w h : ℕ) :
    4 * ((w + 1) / 2 * ((h + 1) / 2)) = 2 * ((w + 1) / 2) * (2 * ((h + 1) / 2)) := by ring

lemma le_four_mul_chroma (w h : ℕ) : w * h ≤ 4 * ((w + 1) / 2 * ((h + 1) / 2)) := by
  rw [four_mul_chroma]
  exact Nat.mul_le_mul (by omega) (by omega)

lemma four_mul_chroma_le_iff (hw : 0 < w) (hh : 0 < h) :
    4 * ((w + 1) / 2 * ((h + 1) / 2)) ≤ w * h ↔ w % 2 = 0 ∧ h % 2 = 0 := by
  rw [four_mul_chroma]
  constructor
  · intro hle
    by_contra hodd
    refine absurd hle (Nat.not_le.mpr ?_)
    rcases Nat.mod_two_eq_zero_or_one w with hw2 | hw2
    · exact Nat.mul_lt_mul_of_le_of_lt (by omega) (by omega) (by omega)
    · exact Nat.mul_lt_mul_of_lt_of_le (by omega) (by omega) (by omega)
  · rintro ⟨hw2, hh2⟩
    exact Nat.mul_le_mul (by omega) (by omega)

lemma clamp_bounds (val : ℕ) {lo hi : ℕ} (h : lo ≤ hi) :
    lo ≤ clamp val lo hi ∧ clamp val lo hi ≤ hi := by
  rw [clamp]
  omega

end

lemma takenFormat_cases (fourcc : UInt32) :
    fourcc = pixFmtYuv420m ∧ takenFormat false fourcc = pixFmtYuv420m ∨
    fourcc = pixFmtNv12 ∧ takenFormat false fourcc = pixFmtNv12 ∨
    fourcc = pixFmtNv12m ∧ takenFormat false fourcc = pixFmtNv12m ∨
    (fourcc ≠ pixFmtNv12 ∧ fourcc ≠ pixFmtYuv420m) ∧ takenFormat false fourcc = pixFmtYuv420 := by
  by_cases hyuvm : fourcc = pixFmtYuv420m
  · exact .inl ⟨hyuvm, by rw [hyuvm]; rfl⟩
  by_cases hnv : fourcc = pixFmtNv12
  · exact .inr (.inl ⟨hnv, by rw [hnv]; rfl⟩)
  by_cases hnvm : fourcc = pixFmtNv12m
  · exact .inr (.inr (.inl ⟨hnvm, by rw [hnvm]; rfl⟩))
  refine .inr (.inr (.inr ⟨⟨hnv, hyuvm⟩, ?_⟩))
  by_cases hyuv : fourcc = pixFmtYuv420
  · rw [hyuv]
    rfl
  have hnone : findFormat fourcc true = none := by
    simp only [findFormat, if_true, av1OutputFormats, List.find?_eq_none, List.forall_mem_cons,
      beq_iff_eq]
    exact ⟨Ne.symm hyuv, Ne.symm hyuvm, Ne.symm hnv, Ne.symm hnvm,
      fun x hx => absurd hx List.not_mem_nil⟩
  simp only [takenFormat, Bool.not_false, hnone]
  rfl

/-- What `sun50i_av1_try_fmt` announces for a format with one plane. -/
structure OnePlane (dst : PixFormat) : Prop where
  numPlanes : dst.numPlanes = 1
  bytesperline : (dst.planeFmt 0).bytesperline = dst.width
  sizeimage : (dst.planeFmt 0).sizeimage = dst.width * dst.height * 3 / 2

/-- What it announces for a format with three planes. -/
structure ThreePlanes (dst : PixFormat) : Prop where
  numPlanes : dst.numPlanes = 3
  luma : (dst.planeFmt 0).sizeimage = dst.width * dst.height
  chroma : ∀ i, i = 1 ∨ i = 2 → (dst.planeFmt i).sizeimage = dst.width * dst.height / 4

structure Bounded (dst : PixFormat) : Prop where
  width : 64 ≤ dst.width
  height : 64 ≤ dst.height
  area : dst.width * dst.height ≤ 33177600

section

variable {f : PixFormat}

lemma area_le (f : PixFormat) : clamp f.width 64 7680 * clamp f.height 64 4320 ≤ 33177600 :=
  Nat.mul_le_mul (clamp_bounds f.width (by decide)).2 (clamp_bounds f.height (by decide)).2

@[simp] lemma tryFmt_pixelformat (f : PixFormat) :
    (tryFmt false f).pixelformat = takenFormat false f.pixelformat := by
  simp only [tryFmt]
  split_ifs <;> rfl

@[simp] lemma tryFmt_width (f : PixFormat) : (tryFmt false f).width = clamp f.width 64 7680 := by
  simp only [tryFmt]
  split_ifs <;> rfl

@[simp] lemma tryFmt_height (f : PixFormat) : (tryFmt false f).height = clamp f.height 64 4320 := by
  simp only [tryFmt]
  split_ifs <;> rfl

lemma tryFmt_bounded (f : PixFormat) : Bounded (tryFmt false f) where
  width := by
    rw [tryFmt_width]
    exact (clamp_bounds f.width (by decide)).1
  height := by
    rw [tryFmt_height]
    exact (clamp_bounds f.height (by decide)).1
  area := by
    rw [tryFmt_width, tryFmt_height]
    exact area_le f

lemma tryFmt_onePlane (hfmt : takenFormat false f.pixelformat = pixFmtNv12 ∨
    takenFormat false f.pixelformat = pixFmtYuv420) : OnePlane (tryFmt false f) := by
  have harea := area_le f
  have hu32 : u32 (u32 (clamp f.width 64 7680 * clamp f.height 64 4320) * 3) =
      clamp f.width 64 7680 * clamp f.height 64 4320 * 3 := by
    simp only [u32]
    omega
  have hfmt' : tryFmt false f = ⟨takenFormat false f.pixelformat, clamp f.width 64 7680,
      clamp f.height 64 4320, 1, update f.planeFmt 0 ⟨clamp f.width 64 7680,
        clamp f.width 64 7680 * clamp f.height 64 4320 * 3 / 2⟩⟩ := by
    rw [← hu32]
    exact if_pos hfmt
  rw [hfmt']
  refine ⟨rfl, ?_, ?_⟩
  · dsimp only
    rw [update_self]
  · dsimp only
    rw [update_self]

lemma tryFmt_threePlanes (hfmt : ¬ (takenFormat false f.pixelformat = pixFmtNv12 ∨
    takenFormat false f.pixelformat = pixFmtYuv420)) : ThreePlanes (tryFmt false f) := by
  have harea := area_le f
  have hu32 : u32 (clamp f.width 64 7680 * clamp f.height 64 4320) =
      clamp f.width 64 7680 * clamp f.height 64 4320 := u32_of_lt (by omega)
  have hfmt' : tryFmt false f = ⟨takenFormat false f.pixelformat, clamp f.width 64 7680,
      clamp f.height 64 4320, 3, fun i =>
        if i = 0 then ⟨clamp f.width 64 7680, clamp f.width 64 7680 * clamp f.height 64 4320⟩
        else if i = 1 ∨ i = 2 then
          ⟨clamp f.width 64 7680 / 2, clamp f.width 64 7680 * clamp f.height 64 4320 / 4⟩
        else f.planeFmt i⟩ := by
    rw [← hu32]
    exact if_neg hfmt
  rw [hfmt']
  refine ⟨rfl, rfl, ?_⟩
  rintro i (rfl | rfl) <;> rfl

end

/-! ### Where the components are written -/

section

variable {dst : PixFormat} {buf : Buffer} {writes : List (Reg × ℕ)}

lemma Buffer.For.size_eq (hbuf : buf.For dst) {i : ℕ} (hi : i < dst.numPlanes) :
    buf.size i = (dst.planeFmt i).sizeimage := by
  have hsizes := congrFun (congrArg Prod.snd (Option.some.inj hbuf.setup)) i
  dsimp only at hsizes
  rw [if_pos hi] at hsizes
  exact hsizes.symm

lemma Buffer.For.inside_iff (hbuf : buf.For dst) {k m : ℕ} (hk : k < dst.numPlanes)
    (hsize : 0 < buf.size k) (hm : 0 < m) :
    (∃ i < dst.numPlanes, Set.Ico (buf.addr k) (buf.addr k + m) ⊆ buf.plane i) ↔
      m ≤ buf.size k := by
  constructor
  · rintro ⟨i, hi, hsub⟩
    have hmem : buf.addr k ∈ buf.plane i := hsub ⟨le_rfl, by omega⟩
    obtain rfl : i = k := by
      by_contra hne
      exact Set.disjoint_left.mp (hbuf.apart i hi k hk hne) hmem ⟨le_rfl, by omega⟩
    rw [Buffer.plane, Set.Ico_subset_Ico_iff (by omega)] at hsub
    omega
  · intro hle
    refine ⟨k, hk, Set.Ico_subset_Ico le_rfl (by omega)⟩

lemma lookup_deviceRun {busy : Bool} {metadataAddr metadataSize : ℕ}
    (hrun : deviceRun busy dst buf metadataAddr metadataSize = some writes) :
    (writes.lookup .outputAddrY).getD 0 =
      u32 ((frameConfig dst buf metadataAddr metadataSize).imageAddr 0) ∧
    (writes.lookup .outputAddrU).getD 0 =
      u32 ((frameConfig dst buf metadataAddr metadataSize).imageAddr 1) ∧
    (writes.lookup .outputAddrV).getD 0 =
      u32 ((frameConfig dst buf metadataAddr metadataSize).imageAddr 2) := by
  rw [deviceRun, hwStartDecode] at hrun
  split_ifs at hrun <;> cases hrun <;> exact ⟨rfl, rfl, rfl⟩

/-- With one plane, what comes second is right behind the luma, and what comes third at zero. -/
structure OneOutput (dst : PixFormat) (buf : Buffer) (writes : List (Reg × ℕ)) : Prop where
  y : (writes.lookup .outputAddrY).getD 0 = buf.addr 0
  u : (writes.lookup .outputAddrU).getD 0 = buf.addr 0 + dst.width * dst.height
  v : (writes.lookup .outputAddrV).getD 0 = 0

/-- With three planes, each output address is that of a plane. -/
structure ThreeOutputs (buf : Buffer) (writes : List (Reg × ℕ)) : Prop where
  y : (writes.lookup .outputAddrY).getD 0 = buf.addr 0
  u : (writes.lookup .outputAddrU).getD 0 = buf.addr 1
  v : (writes.lookup .outputAddrV).getD 0 = buf.addr 2

variable {busy : Bool} {metadataAddr metadataSize : ℕ}

lemma OnePlane.output (hone : OnePlane dst) (hb : Bounded dst) (hbuf : buf.For dst)
    (hrun : deviceRun busy dst buf metadataAddr metadataSize = some writes) :
    OneOutput dst buf writes := by
  have harea := hb.area
  have hlarge : 64 * 64 ≤ dst.width * dst.height := Nat.mul_le_mul hb.width hb.height
  have hplane : 0 < dst.numPlanes := by rw [hone.numPlanes]; exact Nat.one_pos
  have hfits := hbuf.fits 0 hplane
  rw [hbuf.size_eq hplane, hone.sizeimage] at hfits
  obtain ⟨hy, hu, hv⟩ := lookup_deviceRun hrun
  have hone' : ¬ 1 < dst.numPlanes := by rw [hone.numPlanes]; exact Nat.lt_irrefl 1
  simp only [frameConfig, if_neg hone', hone.bytesperline] at hy hu hv
  refine ⟨?_, ?_, hv⟩
  · rw [hy, u32_of_lt (by omega)]
  · have hsmall : u32 (dst.width * dst.height) = dst.width * dst.height := u32_of_lt (by omega)
    rw [hu, hsmall, u32_of_lt (by omega)]

lemma ThreePlanes.size_luma (hthree : ThreePlanes dst) (hbuf : buf.For dst) :
    buf.size 0 = dst.width * dst.height := by
  rw [hbuf.size_eq (by rw [hthree.numPlanes]; decide), hthree.luma]

lemma ThreePlanes.size_chroma (hthree : ThreePlanes dst) (hbuf : buf.For dst) {i : ℕ}
    (hi : i = 1 ∨ i = 2) : buf.size i = dst.width * dst.height / 4 := by
  rw [hbuf.size_eq (by rw [hthree.numPlanes]; omega), hthree.chroma i hi]

lemma ThreePlanes.size_pos (hthree : ThreePlanes dst) (hb : Bounded dst) (hbuf : buf.For dst)
    {i : ℕ} (hi : i < 3) : 0 < buf.size i := by
  have hlarge : 64 * 64 ≤ dst.width * dst.height := Nat.mul_le_mul hb.width hb.height
  rcases Nat.eq_zero_or_pos i with rfl | hpos
  · rw [hthree.size_luma hbuf]
    omega
  · rw [hthree.size_chroma hbuf (by omega)]
    omega

lemma ThreePlanes.output (hthree : ThreePlanes dst) (hb : Bounded dst) (hbuf : buf.For dst)
    (hrun : deviceRun busy dst buf metadataAddr metadataSize = some writes) :
    ThreeOutputs buf writes := by
  obtain ⟨hy, hu, hv⟩ := lookup_deviceRun hrun
  have hmany : 1 < dst.numPlanes := by rw [hthree.numPlanes]; decide
  have haddr : ∀ i < 3, u32 (buf.addr i) = buf.addr i := by
    intro i hi
    have hfits := hbuf.fits i (by rw [hthree.numPlanes]; exact hi)
    have hsize := hthree.size_pos hb hbuf hi
    exact u32_of_lt (by omega)
  simp only [frameConfig, if_pos hmany] at hy hu hv
  exact ⟨hy.trans (haddr 0 (by decide)), hu.trans (haddr 1 (by decide)),
    hv.trans (haddr 2 (by decide))⟩

lemma Bounded.area_pos (hb : Bounded dst) : 0 < dst.width * dst.height := by
  have hw := hb.width
  have hh := hb.height
  exact Nat.mul_pos (by omega) (by omega)

lemma Bounded.chroma_pos (hb : Bounded dst) :
    0 < (dst.width + 1) / 2 * ((dst.height + 1) / 2) := by
  have hw := hb.width
  have hh := hb.height
  exact Nat.mul_pos (by omega) (by omega)

lemma placed_interleaved_iff
    (hfmt : dst.pixelformat = pixFmtNv12 ∨ dst.pixelformat = pixFmtNv12m) :
    Placed dst buf writes ↔
      let y : Component := ⟨.outputAddrY, dst.width, dst.height⟩
      let uv : Component := ⟨.outputAddrU, 2 * ((dst.width + 1) / 2), (dst.height + 1) / 2⟩
      ((∃ i < dst.numPlanes, y.extent writes ⊆ buf.plane i) ∧
        ∃ i < dst.numPlanes, uv.extent writes ⊆ buf.plane i) ∧
      Disjoint (y.extent writes) (uv.extent writes) := by
  have hcomp : components dst = [⟨.outputAddrY, dst.width, dst.height⟩,
      ⟨.outputAddrU, 2 * ((dst.width + 1) / 2), (dst.height + 1) / 2⟩] := if_pos hfmt
  rw [placed_iff, hcomp, List.forall_mem_cons, List.forall_mem_singleton, List.pairwise_pair]

lemma placed_planar_iff
    (hfmt : dst.pixelformat = pixFmtYuv420 ∨ dst.pixelformat = pixFmtYuv420m) :
    Placed dst buf writes ↔
      let y : Component := ⟨.outputAddrY, dst.width, dst.height⟩
      let u : Component := ⟨.outputAddrU, (dst.width + 1) / 2, (dst.height + 1) / 2⟩
      let v : Component := ⟨.outputAddrV, (dst.width + 1) / 2, (dst.height + 1) / 2⟩
      ((∃ i < dst.numPlanes, y.extent writes ⊆ buf.plane i) ∧
        (∃ i < dst.numPlanes, u.extent writes ⊆ buf.plane i) ∧
        ∃ i < dst.numPlanes, v.extent writes ⊆ buf.plane i) ∧
      (Disjoint (y.extent writes) (u.extent writes) ∧
        Disjoint (y.extent writes) (v.extent writes)) ∧
        Disjoint (u.extent writes) (v.extent writes) := by
  have hcomp : components dst = [⟨.outputAddrY, dst.width, dst.height⟩,
      ⟨.outputAddrU, (dst.width + 1) / 2, (dst.height + 1) / 2⟩,
      ⟨.outputAddrV, (dst.width + 1) / 2, (dst.height + 1) / 2⟩] := by
    refine if_neg ?_
    rcases hfmt with hfmt | hfmt <;>
    · rw [hfmt]
      decide
  rw [placed_iff, hcomp, List.forall_mem_cons, List.forall_mem_cons, List.forall_mem_singleton,
    List.pairwise_cons, List.forall_mem_cons, List.forall_mem_singleton, List.pairwise_pair]

lemma placed_nv12_iff (hfmt : dst.pixelformat = pixFmtNv12) (hone : OnePlane dst)
    (hb : Bounded dst) (hbuf : buf.For dst) (hout : OneOutput dst buf writes) :
    Placed dst buf writes ↔ dst.width % 2 = 0 ∧ dst.height % 2 = 0 := by
  have hw := hb.width
  have hh := hb.height
  have hchroma := hb.chroma_pos
  have hsize : buf.size 0 = dst.width * dst.height * 3 / 2 := by
    rw [hbuf.size_eq (by rw [hone.numPlanes]; exact Nat.one_pos), hone.sizeimage]
  rw [placed_interleaved_iff (.inl hfmt), ← four_mul_chroma_le_iff (by omega) (by omega)]
  simp only [Component.extent, hout.y, hout.u, hone.numPlanes, Nat.lt_one_iff, exists_eq_left,
    Buffer.plane, hsize, Nat.mul_assoc 2]
  constructor
  · rintro ⟨⟨-, huv⟩, -⟩
    rw [Set.Ico_subset_Ico_iff (by omega)] at huv
    omega
  · intro hle
    refine ⟨⟨Set.Ico_subset_Ico le_rfl (by omega), Set.Ico_subset_Ico (by omega) (by omega)⟩, ?_⟩
    exact Set.Ico_disjoint_Ico_same

lemma not_placed_yuv420 (hfmt : dst.pixelformat = pixFmtYuv420) (hone : OnePlane dst)
    (hb : Bounded dst) (hout : OneOutput dst buf writes) : ¬ Placed dst buf writes := by
  have harea := hb.area_pos
  have hchroma := hb.chroma_pos
  rw [placed_planar_iff (.inl hfmt)]
  simp only [Component.extent, hout.y, hout.v, hone.numPlanes, Nat.lt_one_iff, exists_eq_left,
    Buffer.plane]
  rintro ⟨⟨-, -, hv⟩, ⟨-, hyv⟩, -⟩
  rw [Set.Ico_subset_Ico_iff (by omega)] at hv
  have hzero : buf.addr 0 = 0 := by omega
  rw [hzero] at hyv
  exact Set.disjoint_left.mp hyv ⟨le_rfl, by omega⟩ ⟨le_rfl, by omega⟩

lemma placed_yuv420m_iff (hfmt : dst.pixelformat = pixFmtYuv420m) (hthree : ThreePlanes dst)
    (hb : Bounded dst) (hbuf : buf.For dst) (hout : ThreeOutputs buf writes) :
    Placed dst buf writes ↔ dst.width % 2 = 0 ∧ dst.height % 2 = 0 := by
  have hw := hb.width
  have hh := hb.height
  have hplanes : ∀ i < 3, i < dst.numPlanes := by
    rw [hthree.numPlanes]
    exact fun i hi => hi
  -- each component starts with a plane, and different planes do not overlap
  have hin : ∀ i < 3, ∀ m, 0 < m → ((∃ j < dst.numPlanes,
      Set.Ico (buf.addr i) (buf.addr i + m) ⊆ buf.plane j) ↔ m ≤ buf.size i) :=
    fun i hi m hm => hbuf.inside_iff (hplanes i hi) (hthree.size_pos hb hbuf hi) hm
  have hapart : ∀ i < 3, ∀ j < 3, i ≠ j → ∀ m n, m ≤ buf.size i → n ≤ buf.size j →
      Disjoint (Set.Ico (buf.addr i) (buf.addr i + m)) (Set.Ico (buf.addr j) (buf.addr j + n)) := by
    intro i hi j hj hij m n hm hn
    refine (hbuf.apart i (hplanes i hi) j (hplanes j hj) hij).mono ?_ ?_
    · exact Set.Ico_subset_Ico le_rfl (by omega)
    · exact Set.Ico_subset_Ico le_rfl (by omega)
  rw [placed_planar_iff (.inr hfmt), ← four_mul_chroma_le_iff (by omega) (by omega)]
  simp only [Component.extent, hout.y, hout.u, hout.v]
  rw [hin 0 (by decide) _ hb.area_pos, hin 1 (by decide) _ hb.chroma_pos,
    hin 2 (by decide) _ hb.chroma_pos]
  have hsize₀ := hthree.size_luma hbuf
  have hsize₁ := hthree.size_chroma hbuf (.inl rfl)
  have hsize₂ := hthree.size_chroma hbuf (.inr rfl)
  constructor
  · rintro ⟨⟨-, hu, -⟩, -⟩
    omega
  · intro hle
    have hy : dst.width * dst.height ≤ buf.size 0 := hsize₀.ge
    have hu : (dst.width + 1) / 2 * ((dst.height + 1) / 2) ≤ buf.size 1 := by omega
    have hv : (dst.width + 1) / 2 * ((dst.height + 1) / 2) ≤ buf.size 2 := by omega
    exact ⟨⟨hy, hu, hv⟩, ⟨hapart 0 (by decide) 1 (by decide) (by decide) _ _ hy hu,
      hapart 0 (by decide) 2 (by decide) (by decide) _ _ hy hv⟩,
      hapart 1 (by decide) 2 (by decide) (by decide) _ _ hu hv⟩

lemma not_placed_nv12m (hfmt : dst.pixelformat = pixFmtNv12m) (hthree : ThreePlanes dst)
    (hb : Bounded dst) (hbuf : buf.For dst) (hout : ThreeOutputs buf writes) :
    ¬ Placed dst buf writes := by
  have harea := hb.area_pos
  have hchroma := le_four_mul_chroma dst.width dst.height
  have hplane : 1 < dst.numPlanes := by
    rw [hthree.numPlanes]
    decide
  rw [placed_interleaved_iff (.inr hfmt)]
  simp only [Component.extent, hout.u, Nat.mul_assoc 2]
  rintro ⟨⟨-, huv⟩, -⟩
  rw [hbuf.inside_iff hplane (hthree.size_pos hb hbuf (by decide)) (by omega),
    hthree.size_chroma hbuf (.inl rfl)] at huv
  omega

end

/-- For every requested format and every buffer for it, each component has its place in a plane,
apart from the others, exactly for NV12 and YUV420M with an even width and height. -/
theorem components_placed_iff (ctx : Ctx) (f : PixFormat) (buf : Buffer)
    (hbuf : buf.For (sFmt ctx false f).dstFmt) {busy : Bool} {metadataAddr metadataSize : ℕ}
    {writes : List (Reg × ℕ)}
    (hrun : deviceRun busy (sFmt ctx false f).dstFmt buf metadataAddr metadataSize = some writes) :
    Placed (sFmt ctx false f).dstFmt buf writes ↔
      (f.pixelformat = pixFmtNv12 ∨ f.pixelformat = pixFmtYuv420m) ∧
        clamp f.width 64 7680 % 2 = 0 ∧ clamp f.height 64 4320 % 2 = 0 := by
  change buf.For (tryFmt false f) at hbuf
  change deviceRun busy (tryFmt false f) buf metadataAddr metadataSize = some writes at hrun
  change Placed (tryFmt false f) buf writes ↔ _
  have hb := tryFmt_bounded f
  rw [← tryFmt_width, ← tryFmt_height]
  rcases takenFormat_cases f.pixelformat with ⟨hf, ht⟩ | ⟨hf, ht⟩ | ⟨hf, ht⟩ | ⟨hf, ht⟩
  · have hthree := tryFmt_threePlanes (f := f) (by rw [ht]; decide)
    rw [placed_yuv420m_iff ((tryFmt_pixelformat f).trans ht) hthree hb hbuf
      (hthree.output hb hbuf hrun)]
    exact (and_iff_right (.inr hf)).symm
  · have hone := tryFmt_onePlane (f := f) (.inl ht)
    rw [placed_nv12_iff ((tryFmt_pixelformat f).trans ht) hone hb hbuf (hone.output hb hbuf hrun)]
    exact (and_iff_right (.inl hf)).symm
  · have hthree := tryFmt_threePlanes (f := f) (by rw [ht]; decide)
    refine iff_of_false (not_placed_nv12m ((tryFmt_pixelformat f).trans ht) hthree hb hbuf
      (hthree.output hb hbuf hrun)) fun h => absurd h.1 ?_
    rw [hf]
    decide
  · have hone := tryFmt_onePlane (f := f) (.inr ht)
    refine iff_of_false (not_placed_yuv420 ((tryFmt_pixelformat f).trans ht) hone hb
      (hone.output hb hbuf hrun)) ?_
    rintro ⟨h | h, -⟩
    · exact hf.1 h
    · exact hf.2 h

def smallRequest (fourcc : UInt32) : PixFormat := ⟨fourcc, 64, 64, 0, fun _ => ⟨0, 0⟩⟩

def smallBuffer : Buffer := ⟨fun _ => 4096, fun _ => 6144⟩

lemma smallBuffer_for {fourcc : UInt32} (hone : OnePlane (tryFmt false (smallRequest fourcc))) :
    smallBuffer.For (tryFmt false (smallRequest fourcc)) where
  setup := by
    have hsize : clamp 64 64 7680 * clamp 64 64 4320 * 3 / 2 = 6144 := by decide
    rw [queueSetup, if_neg (fun h => h rfl)]
    congr 2
    funext i
    rw [hone.numPlanes]
    split_ifs with hi
    · obtain rfl := Nat.lt_one_iff.mp hi
      rw [hone.sizeimage, tryFmt_width, tryFmt_height]
      exact hsize
    · rfl
  fits := fun _ _ => show 4096 + 6144 ≤ 4294967296 by decide
  apart := fun i hi j hj hij => by
    rw [hone.numPlanes] at hi hj
    omega

def smallCtx : Ctx := ⟨smallRequest pixFmtAv1Frame, smallRequest pixFmtNv12⟩

/-- NV12 in a plane of three halves of the area. -/
theorem components_placed_iff_nv12 :
    smallBuffer.For (sFmt smallCtx false (smallRequest pixFmtNv12)).dstFmt ∧
    ∃ writes, deviceRun false (sFmt smallCtx false (smallRequest pixFmtNv12)).dstFmt smallBuffer 0 0
      = some writes ∧
      Placed (sFmt smallCtx false (smallRequest pixFmtNv12)).dstFmt smallBuffer writes := by
  have hbuf : smallBuffer.For (sFmt smallCtx false (smallRequest pixFmtNv12)).dstFmt :=
    @smallBuffer_for pixFmtNv12 (tryFmt_onePlane (.inl (by decide)))
  obtain ⟨writes, hrun⟩ : ∃ writes, deviceRun false
    (sFmt smallCtx false (smallRequest pixFmtNv12)).dstFmt smallBuffer 0 0 = some writes := ⟨_, rfl⟩
  exact ⟨hbuf, writes, hrun,
    (components_placed_iff smallCtx _ smallBuffer hbuf hrun).mpr (by decide)⟩

/-- YUV420: V is written to address zero. -/
theorem yuv420_misplaced :
    smallBuffer.For (sFmt smallCtx false (smallRequest pixFmtYuv420)).dstFmt ∧
    ∃ writes, deviceRun false (sFmt smallCtx false (smallRequest pixFmtYuv420)).dstFmt smallBuffer
      0 0 = some writes ∧ writes.lookup .outputAddrV = some 0 ∧
      ¬ Placed (sFmt smallCtx false (smallRequest pixFmtYuv420)).dstFmt smallBuffer writes := by
  have hone : OnePlane (tryFmt false (smallRequest pixFmtYuv420)) :=
    tryFmt_onePlane (.inr (by decide))
  have hbuf := smallBuffer_for hone
  have hb := tryFmt_bounded (smallRequest pixFmtYuv420)
  have hrun : deviceRun false (tryFmt false (smallRequest pixFmtYuv420)) smallBuffer 0 0 =
    some _ := rfl
  exact ⟨hbuf, _, hrun, rfl, not_placed_yuv420 rfl hone hb (hone.output hb hbuf hrun)⟩

/-! ### The formats of an open device -/

lemma takenFormat_takenFormat (fourcc : UInt32) :
    takenFormat isOutput (takenFormat isOutput fourcc) = takenFormat isOutput fourcc := by
  cases h : findFormat fourcc (!isOutput) with
  | none =>
    simp only [takenFormat, h]
    cases isOutput <;> decide
  | some _ => simp only [takenFormat, h]

lemma clamp_clamp (val lo hi : ℕ) : clamp (clamp val lo hi) lo hi = clamp val lo hi := by
  simp only [clamp]
  omega

lemma tryFmt_tryFmt (f : PixFormat) :
    tryFmt isOutput (tryFmt isOutput f) = tryFmt isOutput f := by
  cases isOutput with
  | true => simp [tryFmt, takenFormat_takenFormat, clamp_clamp]
  | false =>
    by_cases h : takenFormat false f.pixelformat = pixFmtNv12 ∨
        takenFormat false f.pixelformat = pixFmtYuv420
    · simp [tryFmt, takenFormat_takenFormat, clamp_clamp, h]
    · simp only [tryFmt, takenFormat_takenFormat, clamp_clamp, h, if_false, Bool.false_eq_true]
      congr 1
      funext i
      split_ifs <;> rfl

def sFmts (ctx : Ctx) (calls : List (Bool × PixFormat)) : Ctx :=
  calls.foldl (fun ctx c => sFmt ctx c.1 c.2) ctx

lemma sFmts_stable_iff (ctx : Ctx) (calls : List (Bool × PixFormat)) (isOutput : Bool)
    (fmt : Ctx → PixFormat) (hset : ∀ ctx f, fmt (sFmt ctx isOutput f) = tryFmt isOutput f)
    (hkeep : ∀ ctx f, fmt (sFmt ctx (!isOutput) f) = fmt ctx) :
    tryFmt isOutput (fmt (sFmts ctx calls)) = fmt (sFmts ctx calls) ↔
      tryFmt isOutput (fmt ctx) = fmt ctx ∨ ∃ c ∈ calls, c.1 = isOutput := by
  induction calls generalizing ctx with
  | nil => simp [sFmts]
  | cons c calls ih =>
    refine (ih (sFmt ctx c.1 c.2)).trans ?_
    rcases Bool.eq_or_eq_not c.1 isOutput with hc | hc
    · simp [hc, hset, tryFmt_tryFmt]
    · simp [hc, hkeep]

/-- The default formats of `sun50i_av1_open`. -/
def openCtx : Ctx where
  srcFmt := ⟨pixFmtAv1Frame, 0, 0, 1, update (fun _ => ⟨0, 0⟩) 0 ⟨0, 1048576⟩⟩
  dstFmt := ⟨pixFmtNv12, 1920, 1080, 1, update (fun _ => ⟨0, 0⟩) 0 ⟨1920, 1920 * 1080 * 3 / 2⟩⟩

/-- After any requests since the device was opened, asking for the capture format that is set
changes nothing, and so it is with the output format exactly if one has been asked for. -/
theorem formats_stable_iff (calls : List (Bool × PixFormat)) :
    tryFmt false (sFmts openCtx calls).dstFmt = (sFmts openCtx calls).dstFmt ∧
    (tryFmt true (sFmts openCtx calls).srcFmt = (sFmts openCtx calls).srcFmt ↔
      ∃ c ∈ calls, c.1 = true) := by
  constructor
  · have hfmt : takenFormat false pixFmtNv12 = pixFmtNv12 := by decide
    refine (sFmts_stable_iff openCtx calls false Ctx.dstFmt (fun _ _ => rfl) fun _ _ => rfl).mpr ?_
    exact .inl (by simp [openCtx, tryFmt, hfmt, clamp, u32])
  · have hzero : clamp 0 64 7680 ≠ 0 := by decide
    rw [sFmts_stable_iff openCtx calls true Ctx.srcFmt (fun _ _ => rfl) fun _ _ => rfl]
    simp [openCtx, tryFmt, hzero]

end Av1
