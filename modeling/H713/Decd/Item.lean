import H713.Machine.Bits
import Mathlib.Data.Nat.ModEq

/-!
# Frame items

`frame_item_create` makes a frame item from the descriptor of userspace. For a buffer that is not
linear the address of the chroma plane is computed from the format, the size and the alignment.
-/

namespace Decd

open Machine List Nat

/-- What is read of a `struct dec_frame_submit_desc`. -/
structure SubmitDesc where
  linear : Bool
  format : UInt32
  width : UInt32
  height : UInt32
  align : UInt32
  splitFields : Bool
  fieldSel1 : UInt32
  yPhys : UInt64
  cPhys : UInt64

/-- What the allocations and mappings of one `frame_item_create` give. -/
structure Supply where
  item : Bool
  /-- the DMA address of the image buffer -/
  image : Option UInt64
  info : Bool
  /-- the physical address of the page for the video info -/
  page : Option UInt32
  fence : Bool

/-- `struct dec_frame_item` -/
structure FrameItem where
  imageMap : Option UInt64
  infoMap : Bool
  yAddr : UInt64
  yAux : UInt32
  cAddr : UInt64
  cAux : UInt32
  videoInfoAddr : UInt32
  formatShadow : UInt32
  videoInfoPage : Option UInt32
  fence : Bool
  altYValid : Bool
  altCValid : Bool
  yAddrAlt : UInt64
  cAddrAlt : UInt64
  refcount : ℤ
deriving DecidableEq, Repr

def fmtAttrTbl : List (UInt32 × UInt32) :=
  [(6, 8), (4, 8), (2, 8), (0, 8), (5, 10), (3, 10), (1, 10), (20, 10)]

variable (bits : UInt32)

def multiplier : UInt32 := if bits = 8 then 1 else 2

def SubmitDesc.stride (d : SubmitDesc) (bits : UInt32) : UInt32 :=
  let stride := d.width * multiplier bits
  if d.align = 0 then stride else alignUp stride d.align

variable (d : SubmitDesc)

def SubmitDesc.cOffset : UInt32 :=
  match fmtAttrTbl.find? (fun e => e.1 = d.format) with
  | none   => 0
  | some e => d.height * d.stride e.2

def FrameItem.zeroed : FrameItem where
  imageMap := none
  infoMap := false
  yAddr := 0
  yAux := 0
  cAddr := 0
  cAux := 0
  videoInfoAddr := 0
  formatShadow := 0
  videoInfoPage := none
  fence := false
  altYValid := false
  altCValid := false
  yAddrAlt := 0
  cAddrAlt := 0
  refcount := 1

variable (it : FrameItem)

def FrameItem.setupFields (d : SubmitDesc) : FrameItem :=
  if d.splitFields then
    let split := { it with
      altYValid := true, altCValid := true, yAddrAlt := it.yAddr, cAddrAlt := it.cAddr }
    if d.fieldSel1 = 0 then
      { split with
        altCValid := false, yAddr := split.yAddrAlt, yAddrAlt := it.yAddr,
        cAddr := split.cAddrAlt, cAddrAlt := it.cAddr }
    else split
  else { it with yAddrAlt := it.yAddr, cAddrAlt := it.cAddr }

def frameItemCreate (s : Supply) : Option FrameItem :=
  if d.linear then
    if s.item then
      let it := { FrameItem.zeroed with
        videoInfoPage := s.page, videoInfoAddr := s.page.getD 0, yAddr := d.yPhys,
        cAddr := d.cPhys }
      some { it.setupFields d with fence := s.fence }
    else none
  else if 0x14 < d.format then none
  else if s.item then
    match s.image with
    | none     => none
    | some dma =>
      if s.info then
        let yDma := dma.toUInt32
        let it := { FrameItem.zeroed with
          imageMap := some dma, infoMap := true, videoInfoPage := s.page,
          videoInfoAddr := s.page.getD 0, yAddr := yDma.toUInt64,
          cAddr := (yDma + d.cOffset).toUInt64 }
        some { it.setupFields d with fence := s.fence }
      else none
  else none

lemma FrameItem.setupFields_addr (d : SubmitDesc) :
    (it.setupFields d).yAddr = it.yAddr ∧ (it.setupFields d).cAddr = it.cAddr := by
  unfold setupFields
  split_ifs <;> exact ⟨rfl, rfl⟩

lemma frameItemCreate_eq_some {d : SubmitDesc} {s : Supply} {it : FrameItem}
    (hd : d.linear = false) (h : frameItemCreate d s = some it) :
    ∃ dma, s.image = some dma ∧ it.cAddr = (dma.toUInt32 + d.cOffset).toUInt64 := by
  unfold frameItemCreate at h
  rw [hd, if_neg Bool.false_ne_true] at h
  cases himage : s.image with
  | none =>
    rw [himage] at h
    split_ifs at h
  | some dma =>
    rw [himage] at h
    split_ifs at h with hformat hitem hinfo
    cases h
    exact ⟨dma, rfl, (FrameItem.setupFields_addr _ d).2⟩

lemma FrameItem.setupFields_refcount (d : SubmitDesc) :
    (it.setupFields d).refcount = it.refcount := by
  unfold setupFields
  split_ifs <;> rfl

lemma frameItemCreate_refcount {d : SubmitDesc} {s : Supply} {it : FrameItem}
    (h : frameItemCreate d s = some it) : it.refcount = 1 := by
  unfold frameItemCreate at h
  cases himage : s.image with
  | none =>
    rw [himage] at h
    split_ifs at h
    cases h
    exact FrameItem.setupFields_refcount _ d
  | some dma =>
    rw [himage] at h
    split_ifs at h
    all_goals
      cases h
      exact FrameItem.setupFields_refcount _ d

/-! ### The chroma address -/

def SubmitDesc.IsLine (t : ℕ) : Prop :=
  IsLeast {t | max 1 d.align.toNat ∣ t ∧ d.width.toNat * (multiplier bits).toNat ≤ t} t

variable (dma : UInt64)

def SubmitDesc.Fits : Prop :=
  ∃ e ∈ fmtAttrTbl, e.1 = d.format ∧
    ∃ t, d.IsLine e.2 t ∧ dma.toNat + d.height.toNat * t < 4294967296

def SubmitDesc.Chroma (it : FrameItem) : Prop :=
  ∃ e ∈ fmtAttrTbl, e.1 = d.format ∧
    ∃ t, d.IsLine e.2 t ∧ it.cAddr.toNat = dma.toNat + d.height.toNat * t

lemma SubmitDesc.IsLine.eq {d : SubmitDesc} {bits : UInt32} {t : ℕ} (ht : d.IsLine bits t) :
    t = (d.width.toNat * (multiplier bits).toNat + (max 1 d.align.toNat - 1)) /
      max 1 d.align.toNat * max 1 d.align.toNat :=
  ht.unique (isLeast_multiple (by omega) _)

lemma fmtAttrTbl_unique : ∀ e ∈ fmtAttrTbl, ∀ e' ∈ fmtAttrTbl, e.1 = e'.1 → e = e' := by
  have hall : fmtAttrTbl.all (fun e => fmtAttrTbl.all fun e' => e.1 = e'.1 → e = e') = true := by
    decide
  intro e he e' he'
  exact of_decide_eq_true (all_eq_true.mp (all_eq_true.mp hall e he) e' he')

lemma SubmitDesc.cOffset_of_mem {d : SubmitDesc} {e : UInt32 × UInt32} (he : e ∈ fmtAttrTbl)
    (hformat : e.1 = d.format) : d.cOffset = d.height * d.stride e.2 := by
  have hfind : fmtAttrTbl.find? (fun e => e.1 = d.format) = some e := by
    cases h : fmtAttrTbl.find? (fun e => e.1 = d.format) with
    | none => exact absurd (decide_eq_true hformat) (List.find?_eq_none.mp h e he)
    | some e' =>
      have hformat' : e'.1 = d.format := by simpa using List.find?_some h
      rw [fmtAttrTbl_unique e' (mem_of_find?_eq_some h) e he (hformat'.trans hformat.symm)]
  rw [cOffset, hfind]

lemma SubmitDesc.stride_toNat {d : SubmitDesc} {bits : UInt32} {t : ℕ}
    (halign : d.align = 0 ∨ ∃ k, d.align.toNat = 2 ^ k) (ht : d.IsLine bits t)
    (hlt : t < 4294967296) : (d.stride bits).toNat = t := by
  obtain ⟨hdvd, hle⟩ := ht.1
  have hbytes : (d.width * multiplier bits).toNat = d.width.toNat * (multiplier bits).toNat := by
    rw [UInt32.toNat_mul, mod_eq_of_lt (lt_of_le_of_lt hle hlt)]
  have ht' := ht.eq
  rw [stride]
  by_cases hzero : d.align = 0
  · have hone : max 1 d.align.toNat = 1 := by rw [hzero]; rfl
    rw [if_pos hzero, hbytes, ht', hone, Nat.div_one, Nat.mul_one, Nat.add_zero]
  · obtain ⟨k, hk⟩ := halign.resolve_left hzero
    have hpos : 1 ≤ 2 ^ k := Nat.one_le_two_pow
    have hmax : max 1 d.align.toNat = 2 ^ k := by omega
    rw [hmax] at hdvd ht'
    have hk32 : k ≤ 32 := by
      have hpow : 2 ^ k < 2 ^ 32 := hk ▸ d.align.toNat_lt
      exact ((Nat.pow_lt_pow_iff_right (by decide)).mp hpow).le
    -- the line and the whole address space are multiples, so there is room for one more
    have hroom : 2 ^ k ≤ 2 ^ 32 - t :=
      Nat.le_of_dvd (by omega) (Nat.dvd_sub (Nat.pow_dvd_pow 2 hk32) hdvd)
    rw [if_neg hzero, alignUp_toNat hk (by rw [hbytes]; omega), hbytes, ht']

/-- The bytes of a line as the alignment macro gives them, in 32-bit arithmetic. -/
def SubmitDesc.masked : ℕ :=
  let bytes := d.width.toNat * (multiplier bits).toNat
  if d.align = 0 then bytes % 4294967296
  else (bytes + (d.align.toNat - 1)) % 4294967296 &&& (4294967295 - (d.align.toNat - 1))

/-- All lines together are as long with the masked line as with the true one. -/
def SubmitDesc.LinesKept : Prop :=
  ∀ e ∈ fmtAttrTbl, e.1 = d.format → ∀ t, d.IsLine e.2 t →
    d.height.toNat * d.masked e.2 ≡ d.height.toNat * t [MOD 4294967296]

lemma SubmitDesc.stride_masked :
    (d.stride bits).toNat = d.masked bits := by
  rw [stride, masked]
  split_ifs with hzero
  · exact UInt32.toNat_mul _ _
  · have hone : (1 : UInt32) ≤ d.align :=
      UInt32.not_lt.mp fun hlt => hzero (UInt32.lt_one_iff.mp hlt)
    have hmask : (d.align - 1).toNat = d.align.toNat - 1 := UInt32.toNat_sub_of_le _ _ hone
    rw [alignUp, UInt32.toNat_and, UInt32.toNat_not, UInt32.toNat_add, hmask, UInt32.toNat_mul,
      mod_add_mod]
    rfl

lemma SubmitDesc.Fits.linesKept {d : SubmitDesc} {dma : UInt64} (h : d.Fits dma)
    (halign : d.align = 0 ∨ ∃ k, d.align.toNat = 2 ^ k) : d.LinesKept := by
  obtain ⟨e, he, hformat, t, ht, hfits⟩ := h
  intro e' he' hformat' t' ht'
  obtain rfl := fmtAttrTbl_unique e' he' e he (hformat'.trans hformat.symm)
  obtain rfl := ht'.unique ht
  rcases Nat.eq_zero_or_pos d.height.toNat with hzero | hpos
  · rw [hzero, Nat.zero_mul, Nat.zero_mul]
  · have hle : t' ≤ d.height.toNat * t' := Nat.le_mul_of_pos_left t' hpos
    rw [← SubmitDesc.stride_masked, SubmitDesc.stride_toNat halign ht (by omega)]

/-- An item with DMA buffers has its chroma plane in place exactly when the format is in the table,
the address fits into 32 bits and all lines together are as long with the masked line as with the
true one. An alignment that is zero or a power of two is enough for the last. -/
theorem frameItemCreate_chroma {d : SubmitDesc} {s : Supply} {it : FrameItem}
    (hd : d.linear = false) (h : frameItemCreate d s = some it) :
    ∃ dma, s.image = some dma ∧
      (d.Chroma dma it ↔ d.Fits dma ∧ d.LinesKept) ∧
      ((d.align = 0 ∨ ∃ k, d.align.toNat = 2 ^ k) → d.Fits dma → d.Chroma dma it) := by
  obtain ⟨dma, himage, haddr⟩ := frameItemCreate_eq_some hd h
  have hnat : it.cAddr.toNat = (dma.toNat + d.cOffset.toNat) % 4294967296 := by
    rw [haddr, UInt32.toNat_toUInt64, UInt32.toNat_add, UInt64.toNat_toUInt32]
    exact mod_add_mod _ _ _
  have hplace : ∀ e ∈ fmtAttrTbl, e.1 = d.format →
      it.cAddr.toNat = (dma.toNat + d.height.toNat * d.masked e.2) % 4294967296 := by
    intro e he hformat
    rw [hnat, SubmitDesc.cOffset_of_mem he hformat, UInt32.toNat_mul, SubmitDesc.stride_masked]
    exact add_mod_mod _ _ _
  have hiff : d.Chroma dma it ↔ d.Fits dma ∧ d.LinesKept := by
    constructor
    · rintro ⟨e, he, hformat, t, ht, hvalue⟩
      have hlt : it.cAddr.toNat < 4294967296 := hnat ▸ mod_lt _ (by decide)
      refine ⟨⟨e, he, hformat, t, ht, hvalue ▸ hlt⟩, fun e' he' hformat' t' ht' => ?_⟩
      obtain rfl := fmtAttrTbl_unique e' he' e he (hformat'.trans hformat.symm)
      obtain rfl := ht'.unique ht
      refine Nat.ModEq.add_left_cancel' dma.toNat ?_
      rw [Nat.ModEq, ← hplace e' he' hformat', ← hvalue, mod_eq_of_lt hlt]
    · rintro ⟨⟨e, he, hformat, t, ht, hfits⟩, hlines⟩
      have hmod := (hlines e he hformat t ht).add_left dma.toNat
      exact ⟨e, he, hformat, t, ht, by rw [hplace e he hformat, hmod, mod_eq_of_lt hfits]⟩
  exact ⟨dma, himage, hiff, fun halign hfits => hiff.mpr ⟨hfits, hfits.linesKept halign⟩⟩

def hdDesc (format align : UInt32) : SubmitDesc where
  linear := false
  format := format
  width := 1920
  height := 1080
  align := align
  splitFields := false
  fieldSel1 := 0
  yPhys := 0
  cPhys := 0

/-- Nine pixels a line, in lines of a multiple of three. -/
def narrowDesc : SubmitDesc := { hdDesc 0 3 with width := 9, height := 4 }

def supplyAt : Supply := ⟨true, some dma, true, some 0x4D941000, true⟩

def hdItem : FrameItem where
  imageMap := some 0x50000000
  infoMap := true
  yAddr := 0x50000000
  yAux := 0
  cAddr := 0x501FA400
  cAux := 0
  videoInfoAddr := 0x4D941000
  formatShadow := 0
  videoInfoPage := some 0x4D941000
  fence := true
  altYValid := false
  altCValid := false
  yAddrAlt := 0x50000000
  cAddrAlt := 0x501FA400
  refcount := 1

lemma frameItemCreate_hdItem :
    frameItemCreate (hdDesc 0 16) (supplyAt 0x50000000) = some hdItem := by decide

lemma frameItemCreate_narrowDesc :
    frameItemCreate narrowDesc (supplyAt 0x50000000) =
      some { hdItem with cAddr := 0x50000024, cAddrAlt := 0x50000024 } := by decide

/-- An alignment of three is no power of two, but keeps lines of nine bytes. -/
theorem frameItemCreate_chroma_hd :
    (hdDesc 0 16).Fits 0x50000000 ∧ (hdDesc 0 16).Chroma 0x50000000 hdItem ∧
      narrowDesc.LinesKept ∧
      narrowDesc.Chroma 0x50000000 { hdItem with cAddr := 0x50000024, cAddrAlt := 0x50000024 } := by
  have hline : (hdDesc 0 16).IsLine 8 1920 := isLeast_multiple (by decide) 1920
  have hfits : (hdDesc 0 16).Fits 0x50000000 := ⟨(0, 8), by decide, rfl, 1920, hline, by decide⟩
  have hline' : narrowDesc.IsLine 8 9 := isLeast_multiple (by decide) 9
  have hfits' : narrowDesc.Fits 0x50000000 := ⟨(0, 8), by decide, rfl, 9, hline', by decide⟩
  have hlines : narrowDesc.LinesKept := by
    intro e he hformat t ht
    obtain rfl := fmtAttrTbl_unique e he (0, 8) (by decide) hformat
    obtain rfl := ht.unique hline'
    decide
  obtain ⟨dma, himage, -, hchroma⟩ := frameItemCreate_chroma rfl frameItemCreate_hdItem
  obtain ⟨dma', himage', hiff, -⟩ := frameItemCreate_chroma rfl frameItemCreate_narrowDesc
  cases himage
  cases himage'
  exact ⟨hfits, hchroma (.inr ⟨4, rfl⟩) hfits, hlines, hiff.mpr ⟨hfits', hlines⟩⟩

/-- Format 7 is accepted although it is not in the table. An alignment of seven and a buffer at the
end of the address space misplace the chroma plane. -/
theorem frameItemCreate_wrong_chroma :
    (∃ it, frameItemCreate (hdDesc 7 16) (supplyAt 0x50000000) = some it ∧
      ¬ (hdDesc 7 16).Chroma 0x50000000 it) ∧
    (∃ it, frameItemCreate (hdDesc 0 7) (supplyAt 0x50000000) = some it ∧
      ¬ (hdDesc 0 7).Chroma 0x50000000 it) ∧
    ∃ it, frameItemCreate (hdDesc 0 16) (supplyAt 0xFFF00000) = some it ∧
      it.cAddr = 0xFA400 ∧ ¬ (hdDesc 0 16).Chroma 0xFFF00000 it := by
  refine ⟨⟨_, rfl, ?_⟩, ⟨_, rfl, ?_⟩, ⟨_, rfl, by decide, ?_⟩⟩
  · rintro ⟨e, he, hformat, -⟩
    have hall : fmtAttrTbl.all (fun e => e.1 ≠ 7) = true := by decide
    exact of_decide_eq_true (all_eq_true.mp hall e he) hformat
  · rintro ⟨e, he, hformat, t, ht, hvalue⟩
    obtain rfl := fmtAttrTbl_unique e he (0, 8) (by decide) hformat
    rw [ht.eq] at hvalue
    revert hvalue
    decide
  · rintro ⟨e, he, hformat, t, ht, hvalue⟩
    obtain rfl := fmtAttrTbl_unique e he (0, 8) (by decide) hformat
    rw [ht.eq] at hvalue
    revert hvalue
    decide

end Decd
