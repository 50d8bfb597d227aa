import H713.Machine.Ramp
import H713.Machine.Stores
import Mathlib.Data.Int.ConditionallyCompleteOrder
import Mathlib.Data.Nat.SuccPred
import Mathlib.Data.List.FinRange
import Mathlib.Data.List.Induction
import Mathlib.Data.List.TakeWhile

/-!
# Gamma curves

A gamma curve has 33 control points, which `interpolate` spreads over a table of 1024 entries:
segment by segment, each from its first entry to the first one of the next, which is written twice.
`pack_lut` puts two entries into a word.
-/

namespace Userspace

open Machine Function List Nat

abbrev GammaCurve := Fin 33 → Int16

/-! ### The functions -/

def lutEntries : ℕ := 1024

def lutSampleMask : ℤ := 4095

def stepQ16 : UInt32 := ((1023 : UInt32) <<< 16) / 32

def knot (seg : ℕ) : ℕ := ((stepQ16 * UInt32.ofNat seg) >>> 16).toNat

def gammaSample (x0 x1 : ℕ) (y0 y1 : Int16) (x : ℕ) : Int16 :=
  let dx : ℤ := x1 - x0
  let dy : ℤ := y1.toInt - y0.toInt
  let frac := if 0 < dx then ((x - x0) * dy).tdiv dx else 0
  let v := y0.toInt + frac
  let v := if v < 0 then 0 else v
  let v := if lutSampleMask < v then lutSampleMask else v
  Int16.ofInt v

variable (c : GammaCurve) (lut : ℕ → Int16) (seg : Fin 32)

def fillSegment : ℕ → Int16 :=
  let x0 := knot seg
  let x1 := knot (seg + 1)
  let xs := (List.range' x0 (x1 + 1 - x0)).takeWhile fun x => x < lutEntries
  store (xs.map fun x => (x, gammaSample x0 x1 (c seg.castSucc) (c seg.succ) x)) lut

def interpolateInto : ℕ → Int16 :=
  let lut := (List.finRange 32).foldl (fillSegment c) lut
  Function.update (Function.update lut 0 (c 0)) (lutEntries - 1) (c 32)

def interpolate : ℕ → Int16 := interpolateInto c fun _ => 0

def lutSample (v : Int16) : UInt32 := UInt32.ofInt v.toInt &&& 4095

def packLut (i : ℕ) : UInt32 :=
  (lutSample (lut (2 * i + 1)) <<< 12) ||| lutSample (lut (2 * i))

/-! ### Segments -/

lemma knot_eq {seg : ℕ} (h : seg < 33) : knot seg = 1023 * seg / 32 := by
  have hall : ∀ seg < 33, knot seg = 1023 * seg / 32 := by decide
  exact hall seg h

def GammaCurve.InRange : Prop := ∀ s, 0 ≤ (c s).toInt ∧ (c s).toInt ≤ 4095

def segmentRamp (x : ℕ) : ℤ :=
  ramp (c seg.castSucc).toInt (c seg.succ).toInt ((knot (seg + 1) : ℤ) - knot seg) (x - knot seg)

def InSegment (x : ℕ) : Prop := knot seg ≤ x ∧ x ≤ knot (seg + 1)

instance (x : ℕ) : Decidable (InSegment seg x) := inferInstanceAs (Decidable (_ ∧ _))

section

variable {c : GammaCurve} {seg : Fin 32} {x : ℕ}

lemma knot_lt_succ (seg : Fin 32) : knot seg < knot (seg + 1) := by
  rw [knot_eq (by omega), knot_eq (by omega)]
  omega

lemma segmentRamp_mem (h : InSegment seg x) :
    min (c seg.castSucc).toInt (c seg.succ).toInt ≤ segmentRamp c seg x ∧
      segmentRamp c seg x ≤ max (c seg.castSucc).toInt (c seg.succ).toInt := by
  have hlt := knot_lt_succ seg
  obtain ⟨h₀, h₁⟩ := h
  exact ramp_mem (by omega) (by omega) (by omega)

lemma gammaSample_toInt (hc : c.InRange) (h : InSegment seg x) :
    (gammaSample (knot seg) (knot (seg + 1)) (c seg.castSucc) (c seg.succ) x).toInt =
      segmentRamp c seg x := by
  have hlt := knot_lt_succ seg
  have hmem := segmentRamp_mem (c := c) h
  have h₀ := hc seg.castSucc
  have h₁ := hc seg.succ
  have hv : 0 ≤ segmentRamp c seg x ∧ segmentRamp c seg x ≤ 4095 := by omega
  have hdx : (0 : ℤ) < (knot (seg + 1) : ℤ) - knot seg := by omega
  have hsample : gammaSample (knot seg) (knot (seg + 1)) (c seg.castSucc) (c seg.succ) x =
      Int16.ofInt (segmentRamp c seg x) := by
    simp only [gammaSample, if_pos hdx, lutSampleMask]
    change Int16.ofInt (if 4095 < (if segmentRamp c seg x < 0 then 0 else segmentRamp c seg x)
      then 4095 else if segmentRamp c seg x < 0 then 0 else segmentRamp c seg x) = _
    rw [if_neg (show ¬ segmentRamp c seg x < 0 by omega), if_neg (by omega)]
  rw [hsample]
  exact Int16.toInt_ofInt_of_le (by omega) (by omega)

lemma segmentRamp_unique {seg' : Fin 32} (h : InSegment seg x) (h' : InSegment seg' x) :
    segmentRamp c seg x = segmentRamp c seg' x := by
  wlog hle : seg ≤ seg' generalizing seg seg'
  · exact (this h' h (le_of_not_ge hle)).symm
  rcases hle.eq_or_lt with rfl | hlt
  · rfl
  have hlt' : (seg : ℕ) < seg' := hlt
  obtain ⟨-, h₁⟩ := h
  obtain ⟨h₀, -⟩ := h'
  have hnext : (seg' : ℕ) = seg + 1 := by
    rw [knot_eq (by omega)] at h₀ h₁
    omega
  have hx : x = knot (seg + 1) := by
    rw [hnext] at h₀
    omega
  have hend : seg.succ = seg'.castSucc := by
    ext
    simp [hnext]
  have hdx := knot_lt_succ seg
  rw [segmentRamp, segmentRamp, hx, hnext, ramp_self (by omega), Int.sub_self, ramp_zero, hend]

variable (lut : ℕ → Int16)

lemma fillSegment_apply :
    fillSegment c lut seg x =
      if InSegment seg x then
        gammaSample (knot seg) (knot (seg + 1)) (c seg.castSucc) (c seg.succ) x
      else lut x := by
  have hend : knot (seg + 1) < lutEntries := by
    rw [knot_eq (by omega), lutEntries]
    omega
  have hall : (List.range' (knot seg) (knot (seg + 1) + 1 - knot seg)).takeWhile
      (fun x => x < lutEntries) = List.range' (knot seg) (knot (seg + 1) + 1 - knot seg) := by
    rw [takeWhile_eq_self_iff]
    intro x hx
    rw [mem_range'_1] at hx
    rw [decide_eq_true_iff]
    omega
  rw [fillSegment, hall, store_map]
  refine if_congr ?_ rfl rfl
  rw [mem_range'_1, InSegment]
  omega

lemma fillSegments_spec (hc : c.InRange) (segs : List (Fin 32)) (lut : ℕ → Int16) (x : ℕ) :
    (∀ seg ∈ segs, InSegment seg x →
      (segs.foldl (fillSegment c) lut x).toInt = segmentRamp c seg x) ∧
    ((∀ seg ∈ segs, ¬ InSegment seg x) → segs.foldl (fillSegment c) lut x = lut x) := by
  induction segs using List.reverseRecOn with
  | nil => exact ⟨fun seg h => absurd h not_mem_nil, fun _ => rfl⟩
  | append_singleton segs last ih =>
    rw [foldl_append, foldl_cons, foldl_nil, fillSegment_apply]
    by_cases hlast : InSegment last x
    · rw [if_pos hlast]
      refine ⟨fun seg _ hin => ?_, fun hno => absurd hlast (hno last (by simp))⟩
      rw [gammaSample_toInt hc hlast]
      exact segmentRamp_unique hlast hin
    · rw [if_neg hlast]
      refine ⟨fun seg hmem hin => ?_, fun hno => ih.2 fun seg hmem => hno seg (by simp [hmem])⟩
      rcases mem_append.mp hmem with hmem | hmem
      · exact ih.1 seg hmem hin
      · rw [mem_singleton] at hmem
        exact absurd (hmem ▸ hin) hlast

lemma exists_segment {x : ℕ} (hx : x + 1 < lutEntries) :
    ∃ seg, InSegment seg x ∧ InSegment seg (x + 1) := by
  rw [lutEntries] at hx
  refine ⟨⟨(32 * x + 31) / 1023, by omega⟩, ?_⟩
  simp only [InSegment]
  rw [knot_eq (by omega), knot_eq (by omega)]
  omega

lemma segmentRamp_knot (s : Fin 33) (h : InSegment seg (knot s)) :
    segmentRamp c seg (knot s) = (c s).toInt := by
  cases s using Fin.lastCases with
  | last =>
    have hlast : InSegment (Fin.last 31) (knot 32) := by decide
    rw [segmentRamp_unique h hlast, segmentRamp]
    exact ramp_self (by decide)
  | cast s =>
    have hlt := knot_lt_succ s
    rw [segmentRamp_unique h ⟨Nat.le_refl _, hlt.le⟩, segmentRamp, Fin.val_castSucc, Int.sub_self,
      ramp_zero]

lemma interpolateInto_toInt (hc : c.InRange) (lut : ℕ → Int16) (h : InSegment seg x) :
    (interpolateInto c lut x).toInt = segmentRamp c seg x := by
  have hlast : lutEntries - 1 = knot (32 : Fin 33) := by decide
  have hfirst : 0 = knot (0 : Fin 33) := by decide
  rw [interpolateInto]
  -- the two ends get the values they have already
  by_cases hx : x = lutEntries - 1
  · rw [hlast] at hx
    subst hx
    rw [hlast, update_self, segmentRamp_knot 32 h]
  rw [update_of_ne hx]
  by_cases hx : x = 0
  · rw [hfirst] at hx
    subst hx
    rw [← hfirst, update_self, hfirst, segmentRamp_knot 0 h]
  rw [update_of_ne hx]
  exact (fillSegments_spec hc _ lut x).1 seg (mem_finRange seg) h

lemma exists_segment_self (hx : x < lutEntries) : ∃ seg, InSegment seg x := by
  rw [lutEntries] at hx
  by_cases hlast : x = 1023
  · exact ⟨31, by subst hlast; decide⟩
  · obtain ⟨seg, h, -⟩ := exists_segment (x := x) (by rw [lutEntries]; omega)
    exact ⟨seg, h⟩

/-! ### Packing -/

lemma lutSample_lt (v : Int16) : (lutSample v).toNat < 4096 := by
  rw [lutSample, UInt32.toNat_and]
  exact lt_succ_of_le and_le_right

lemma lutSample_toNat {v : Int16} (h₀ : 0 ≤ v.toInt) (h₁ : v.toInt ≤ 4095) :
    ((lutSample v).toNat : ℤ) = v.toInt := by
  have hword : (UInt32.ofInt v.toInt).toNat = v.toInt.toNat := by
    have hmod : v.toInt % 2 ^ 32 = v.toInt := Int.emod_eq_of_lt h₀ (by omega)
    rw [UInt32.ofInt, hmod]
    exact UInt32.toNat_ofNat_of_lt' (show v.toInt.toNat < 4294967296 by omega)
  have hmask : v.toInt.toNat &&& 4095 = v.toInt.toNat :=
    and_two_pow_sub_one_of_lt_two_pow (n := 12) (by omega)
  rw [lutSample, UInt32.toNat_and, hword]
  change ((v.toInt.toNat &&& 4095 : ℕ) : ℤ) = v.toInt
  rw [hmask, Int.toNat_of_nonneg h₀]

lemma packLut_toNat (i : ℕ) :
    (packLut lut i).toNat =
      (lutSample (lut (2 * i + 1))).toNat * 4096 + (lutSample (lut (2 * i))).toNat := by
  have hodd := lutSample_lt (lut (2 * i + 1))
  have heven := lutSample_lt (lut (2 * i))
  have hshift : (lutSample (lut (2 * i + 1)) <<< 12).toNat =
      (lutSample (lut (2 * i + 1))).toNat * 4096 := by
    rw [UInt32.toNat_shiftLeft, shiftLeft_eq]
    exact mod_eq_of_lt (show (lutSample (lut (2 * i + 1))).toNat * 4096 < 4294967296 by omega)
  have hor := shiftLeft_add_eq_or_of_lt (i := 12) heven (lutSample (lut (2 * i + 1))).toNat
  rw [shiftLeft_eq] at hor
  rw [packLut, UInt32.toNat_or, hshift]
  exact hor.symm

lemma packLut_even (i : ℕ) :
    packLut lut i &&& 4095 = lutSample (lut (2 * i)) := by
  have heven := lutSample_lt (lut (2 * i))
  apply UInt32.toNat_inj.mp
  rw [UInt32.toNat_and, packLut_toNat]
  refine (and_two_pow_sub_one_eq_mod _ 12).trans ?_
  omega

lemma packLut_odd (i : ℕ) :
    (packLut lut i >>> 12) &&& 4095 = lutSample (lut (2 * i + 1)) := by
  have hodd := lutSample_lt (lut (2 * i + 1))
  have heven := lutSample_lt (lut (2 * i))
  apply UInt32.toNat_inj.mp
  rw [UInt32.toNat_and, UInt32.toNat_shiftRight, packLut_toNat, shiftRight_eq_div_pow]
  refine (and_two_pow_sub_one_eq_mod _ 12).trans ?_
  change (_ / 4096) % 4096 = _
  omega

def unpackLut (words : ℕ → UInt32) (x : ℕ) : UInt32 :=
  if x % 2 = 0 then words (x / 2) &&& 4095 else (words (x / 2) >>> 12) &&& 4095

lemma unpackLut_packLut (x : ℕ) :
    unpackLut (packLut lut) x = lutSample (lut x) := by
  by_cases hx : x % 2 = 0
  · rw [unpackLut, if_pos hx, packLut_even]
    congr 2
    omega
  · rw [unpackLut, if_neg hx, packLut_odd]
    congr 2
    omega

/-! ### The table -/

lemma interpolateInto_congr (hc : c.InRange) (lut lut' : ℕ → Int16) (hx : x < lutEntries) :
    interpolateInto c lut x = interpolateInto c lut' x := by
  obtain ⟨seg, hseg⟩ := exists_segment_self hx
  apply Int16.toInt_inj.mp
  rw [interpolateInto_toInt hc lut hseg, interpolateInto_toInt hc lut' hseg]

lemma interpolateInto_outside (hc : c.InRange) (lut : ℕ → Int16) (hx : lutEntries ≤ x) :
    interpolateInto c lut x = lut x := by
  rw [lutEntries] at hx
  rw [interpolateInto, lutEntries, update_of_ne (by omega),
    update_of_ne (by omega)]
  refine (fillSegments_spec hc _ lut x).2 fun seg _ h => ?_
  have hend := h.2
  rw [knot_eq (by omega)] at hend
  omega

lemma interpolate_mono (hc : c.InRange) (hmono : ∀ s t, s ≤ t → (c s).toInt ≤ (c t).toInt) :
    MonotoneOn (fun x => (interpolate c x).toInt) (Set.Iio lutEntries) := by
  refine monotoneOn_of_le_add_one Set.ordConnected_Iio fun x _ _ hx => ?_
  obtain ⟨seg, h₀, h₁⟩ := exists_segment hx
  have hdx := knot_lt_succ seg
  have hy := hmono _ _ (Fin.castSucc_le_succ seg)
  change (interpolate c x).toInt ≤ (interpolate c (x + 1)).toInt
  rw [interpolate, interpolateInto_toInt hc _ h₀, interpolateInto_toInt hc _ h₁]
  exact ramp_mono (by omega) hy (by omega)

lemma interpolate_anti (hc : c.InRange) (hanti : ∀ s t, s ≤ t → (c t).toInt ≤ (c s).toInt) :
    AntitoneOn (fun x => (interpolate c x).toInt) (Set.Iio lutEntries) := by
  refine antitoneOn_of_add_one_le Set.ordConnected_Iio fun x _ _ hx => ?_
  obtain ⟨seg, h₀, h₁⟩ := exists_segment hx
  have hdx := knot_lt_succ seg
  have hy := hanti _ _ (Fin.castSucc_le_succ seg)
  change (interpolate c (x + 1)).toInt ≤ (interpolate c x).toInt
  rw [interpolate, interpolateInto_toInt hc _ h₀, interpolateInto_toInt hc _ h₁]
  exact ramp_anti (by omega) hy (by omega)

lemma interpolate_mem (hc : c.InRange) (h : InSegment seg x) :
    min (c seg.castSucc).toInt (c seg.succ).toInt ≤ (interpolate c x).toInt ∧
      (interpolate c x).toInt ≤ max (c seg.castSucc).toInt (c seg.succ).toInt := by
  rw [interpolate, interpolateInto_toInt hc _ h]
  exact segmentRamp_mem h

lemma interpolate_inRange (hc : c.InRange) (hx : x < lutEntries) :
    0 ≤ (interpolate c x).toInt ∧ (interpolate c x).toInt ≤ 4095 := by
  obtain ⟨seg, hseg⟩ := exists_segment_self hx
  have hmem := interpolate_mem hc hseg
  have h₀ := hc seg.castSucc
  have h₁ := hc seg.succ
  omega

lemma interpolate_knot (hc : c.InRange) (s : Fin 33) : interpolate c (knot s) = c s := by
  have hx : knot s < lutEntries := by
    rw [knot_eq s.isLt, lutEntries]
    omega
  obtain ⟨seg, hseg⟩ := exists_segment_self hx
  apply Int16.toInt_inj.mp
  rw [interpolate, interpolateInto_toInt hc _ hseg, segmentRamp_knot s hseg]

end

/-- `interpolate` writes the whole table and nothing else, in the range, through the control points
and between them, monotone or antitone when they are; and `pack_lut` loses nothing. -/
theorem interpolate_spec (c : GammaCurve) (hc : ∀ s, 0 ≤ (c s).toInt ∧ (c s).toInt ≤ 4095) :
    (∀ lut x, interpolateInto c lut x = if x < 1024 then interpolate c x else lut x) ∧
    (∀ x < 1024, 0 ≤ (interpolate c x).toInt ∧ (interpolate c x).toInt ≤ 4095) ∧
    (∀ s : Fin 33, interpolate c (1023 * s / 32) = c s) ∧
    (∀ (seg : Fin 32) (x : ℕ), 1023 * seg / 32 ≤ x → x ≤ 1023 * (seg + 1) / 32 →
      min (c seg.castSucc).toInt (c seg.succ).toInt ≤ (interpolate c x).toInt ∧
        (interpolate c x).toInt ≤ max (c seg.castSucc).toInt (c seg.succ).toInt) ∧
    ((∀ s t, s ≤ t → (c s).toInt ≤ (c t).toInt) →
      ∀ x y, x ≤ y → y < 1024 → (interpolate c x).toInt ≤ (interpolate c y).toInt) ∧
    ((∀ s t, s ≤ t → (c t).toInt ≤ (c s).toInt) →
      ∀ x y, x ≤ y → y < 1024 → (interpolate c y).toInt ≤ (interpolate c x).toInt) ∧
    (∀ x < 1024,
      ((unpackLut (packLut (interpolate c)) x).toNat : ℤ) = (interpolate c x).toInt) := by
  refine ⟨fun lut x => ?_, fun x hx => interpolate_inRange hc hx, fun s => ?_,
    fun seg x h₀ h₁ => ?_, fun hmono x y hxy hy => ?_, fun hanti x y hxy hy => ?_,
    fun x hx => ?_⟩
  · by_cases hx : x < 1024
    · rw [if_pos hx]
      exact interpolateInto_congr hc _ _ hx
    · rw [if_neg hx]
      exact interpolateInto_outside hc lut (Nat.not_lt.mp hx)
  · rw [← knot_eq s.isLt]
    exact interpolate_knot hc s
  · refine interpolate_mem hc ⟨?_, ?_⟩
    · rwa [knot_eq (by omega)]
    · rwa [knot_eq (by omega)]
  · exact interpolate_mono hc hmono (lt_of_le_of_lt hxy hy) hy hxy
  · exact interpolate_anti hc hanti (lt_of_le_of_lt hxy hy) hy hxy
  · have hrange := interpolate_inRange hc hx
    rw [unpackLut_packLut, lutSample_toNat hrange.1 hrange.2]

/-- A falling curve. -/
theorem interpolate_spec_falling :
    (interpolate (fun s => Int16.ofNat (4095 - 127 * s)) 512).toInt ≤
      (interpolate (fun s => Int16.ofNat (4095 - 127 * s)) 511).toInt := by
  refine (interpolate_spec _ ?_).2.2.2.2.2.1 ?_ 511 512 (by decide) (by decide)
  · decide
  · decide

end Userspace
