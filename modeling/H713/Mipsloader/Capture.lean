import H713.Machine.RingWrite
import H713.Machine.Word
import Mathlib.Data.List.GetD
import Mathlib.Data.List.Induction

/-!
# The capture buffer

The log of the MIPS core is kept in a ring of 64 MiB. `elog_wp` counts the bytes in a `size_t` of 32
bits, and `elog_full_read` tells by it whether the ring has been filled: after the counter wraps,
the ring looks as if it had just been started.
-/

namespace Mipsloader

open Machine Function List Nat

def elogCaptureSize : ℕ := 67108864

/-- `elog_linear`, unless it is `NULL`, and `elog_wp`. -/
structure Capture where
  elogLinear : Option (ℕ → UInt8)
  elogWp : ℕ

/-! ### The functions -/

variable (m : ℕ → UInt8)

def copyTo (pos : ℕ) (data : List UInt8) : ℕ → UInt8 :=
  fun k => if pos ≤ k ∧ k < pos + data.length then data.getD (k - pos) 0 else m k

def copyFrom (pos n : ℕ) : List UInt8 := (List.range n).map fun j => m (pos + j)

@[simp] lemma length_copyFrom (pos n : ℕ) : (copyFrom m pos n).length = n := by
  rw [copyFrom, length_map, length_range]

lemma copyFrom_add (pos n k : ℕ) :
    copyFrom m pos (n + k) = copyFrom m pos n ++ copyFrom m (pos + n) k := by
  rw [copyFrom, range_add, map_append, map_map, copyFrom, copyFrom]
  congr 1
  refine map_congr_left fun j _ => ?_
  rw [comp_apply, Nat.add_assoc]

lemma copyFrom_succ (pos n : ℕ) :
    copyFrom m pos (n + 1) = copyFrom m pos n ++ [m (pos + n)] := copyFrom_add m pos n 1

lemma copyFrom_update {pos n w : ℕ} (b : UInt8) (h : pos + n ≤ w) :
    copyFrom (update m w b) pos n = copyFrom m pos n := by
  refine map_congr_left fun j hj => ?_
  rw [mem_range] at hj
  exact update_of_ne (by omega) _ _

lemma pos_lt_size (wp : ℕ) : wp % elogCaptureSize < elogCaptureSize :=
  mod_lt _ (zero_lt_succ _)

lemma drop_chunk_lt {data : List UInt8} (wp : ℕ) (h : data ≠ []) :
    (data.drop (min (elogCaptureSize - wp % elogCaptureSize) data.length)).length <
      data.length := by
  have hpos := pos_lt_size wp
  have hlen := length_pos_of_ne_nil h
  rw [length_drop]
  omega

def emitLoop (m : ℕ → UInt8) (wp : ℕ) (data : List UInt8) : (ℕ → UInt8) × ℕ :=
  if _h : data = [] then (m, wp)
  else
    let pos := wp % elogCaptureSize
    let chunk := min (elogCaptureSize - pos) data.length
    emitLoop (copyTo m pos (data.take chunk)) (u32 (wp + chunk)) (data.drop chunk)
termination_by data.length
decreasing_by exact drop_chunk_lt wp ‹_›

def elogEmitRaw (c : Capture) (data : List UInt8) : Capture :=
  match c.elogLinear with
  | none   => c
  | some m => ⟨some (emitLoop m c.elogWp data).1, (emitLoop m c.elogWp data).2⟩

def elogFullRead (c : Capture) (off count : ℕ) : Option (List UInt8) :=
  let wp := c.elogWp
  if wp = 0 then some []
  else
    let available := if wp < elogCaptureSize then wp else elogCaptureSize
    if available ≤ u32 off then some []
    else
      let count := if available < off + count then ofInt32 (available - off) else count
      c.elogLinear.map fun m =>
        if wp ≤ elogCaptureSize then copyFrom m (u32 off) count
        else
          let pos := (wp % elogCaptureSize + off) % elogCaptureSize
          let firstChunk := elogCaptureSize - pos
          if count ≤ firstChunk then copyFrom m pos count
          else copyFrom m pos firstChunk ++ copyFrom m 0 (count - firstChunk)

/-! ### What is in the ring -/

section

variable {m : ℕ → UInt8} {wp : ℕ} {data out : List UInt8}

lemma u32_mod_size (n : ℕ) : u32 n % elogCaptureSize = n % elogCaptureSize :=
  mod_mod_of_dvd n (by decide)

lemma ringWrite_u32 (f : ℕ → UInt8) (n k : ℕ) :
    ringWrite elogCaptureSize (u32 k) f n m = ringWrite elogCaptureSize k f n m := by
  rw [← ringWrite_mod, u32_mod_size, ringWrite_mod]

lemma copyTo_eq (wp n : ℕ) (hn : n ≤ elogCaptureSize - wp % elogCaptureSize)
    (hlen : n ≤ data.length) :
    copyTo m (wp % elogCaptureSize) (data.take n) =
      ringWrite elogCaptureSize wp (fun j => data.getD j 0) n m := by
  have hpos := pos_lt_size wp
  rw [← ringWrite_mod, ringWrite_of_le (by omega)]
  funext k
  rw [copyTo, length_take, Nat.min_eq_left hlen]
  refine if_ctx_congr Iff.rfl (fun hk => ?_) fun _ => rfl
  rw [getD_eq_getElem?_getD, List.getElem?_take_of_lt (by omega), getD_eq_getElem?_getD]

lemma u32_u32 (n : ℕ) : u32 (u32 n) = u32 n := mod_mod n 4294967296

lemma emitLoop_eq (m : ℕ → UInt8) (wp : ℕ) (data : List UInt8) (hwp : u32 wp = wp) :
    emitLoop m wp data =
      (ringWrite elogCaptureSize wp (fun j => data.getD j 0) data.length m,
        u32 (wp + data.length)) := by
  fun_induction emitLoop m wp data with
  | case1 m wp =>
    rw [length_nil, Nat.add_zero, hwp]
    rfl
  | case2 m wp data h pos chunk ih =>
    have hle : chunk ≤ data.length := Nat.min_le_right _ _
    have hrest : (fun j => (data.drop chunk).getD j 0) = fun j => data.getD (chunk + j) 0 := by
      funext j
      rw [getD_eq_getElem?_getD, List.getElem?_drop, getD_eq_getElem?_getD]
    have hadd := @ringWrite_add _ elogCaptureSize wp (fun j => data.getD j 0) m chunk
      (data.length - chunk)
    rw [Nat.add_sub_cancel' hle] at hadd
    have hcount : u32 (u32 (wp + chunk) + (data.length - chunk)) = u32 (wp + data.length) := by
      simp only [u32]
      omega
    rw [ih (u32_u32 _), copyTo_eq wp chunk (Nat.min_le_left _ _) hle, ringWrite_u32, hrest,
      length_drop, hcount, hadd]

/-- The bytes emitted so far, `out`, are in the ring one after the other, and counted up to a
multiple of `2 ^ 32`. -/
structure Holds (m₀ : ℕ → UInt8) (c : Capture) (out : List UInt8) : Prop where
  linear : c.elogLinear =
    some (ringWrite elogCaptureSize 0 (fun j => out.getD j 0) out.length m₀)
  wp : c.elogWp = u32 out.length

lemma Holds.emit {m₀ : ℕ → UInt8} {c : Capture} (h : Holds m₀ c out) (data : List UInt8) :
    Holds m₀ (elogEmitRaw c data) (out ++ data) := by
  have hwp : u32 c.elogWp = c.elogWp := by rw [h.wp, u32_u32]
  have hold : ∀ j < out.length, out.getD j 0 = (out ++ data).getD j 0 := by
    intro j hj
    rw [getD_append _ _ _ _ hj]
  have hnew : (fun j => data.getD j 0) = fun j => (out ++ data).getD (out.length + j) 0 := by
    funext j
    rw [getD_append_right _ _ _ _ (Nat.le_add_right _ _), Nat.add_sub_cancel_left]
  rw [elogEmitRaw, h.linear]
  refine ⟨?_, ?_⟩
  · have hadd := @ringWrite_add _ elogCaptureSize 0 (fun j => (out ++ data).getD j 0) m₀ out.length
      data.length
    dsimp only
    rw [emitLoop_eq _ _ _ hwp, h.wp, ringWrite_u32, hnew, ringWrite_congr hold, length_append,
      hadd, Nat.zero_add]
  · dsimp only
    rw [emitLoop_eq _ _ _ hwp, h.wp, length_append]
    simp only [u32]
    omega

lemma holds_emits (m₀ : ℕ → UInt8) (datas : List (List UInt8)) :
    Holds m₀ (datas.foldl elogEmitRaw ⟨some m₀, 0⟩) datas.flatten := by
  induction datas using List.reverseRecOn with
  | nil => exact ⟨rfl, rfl⟩
  | append_singleton datas data ih =>
    rw [foldl_append, flatten_append, flatten_singleton]
    exact ih.emit data

/-! ### Reading -/

def lastBytes (out : List UInt8) : List UInt8 :=
  out.drop (out.length - min out.length elogCaptureSize)

lemma length_lastBytes (out : List UInt8) :
    (lastBytes out).length = min out.length elogCaptureSize := by
  rw [lastBytes, length_drop]
  omega

lemma copyFrom_wrap (m : ℕ → UInt8) {pos n : ℕ} (hpos : pos < elogCaptureSize)
    (hn : n ≤ elogCaptureSize) :
    (if n ≤ elogCaptureSize - pos then copyFrom m pos n
      else copyFrom m pos (elogCaptureSize - pos) ++ copyFrom m 0 (n - (elogCaptureSize - pos))) =
      (List.range n).map fun j => m ((pos + j) % elogCaptureSize) := by
  split_ifs with hfit
  · refine map_congr_left fun j hj => ?_
    rw [mem_range] at hj
    rw [mod_eq_of_lt (by omega)]
  · have hsplit : n = (elogCaptureSize - pos) + (n - (elogCaptureSize - pos)) := by omega
    conv_rhs => rw [hsplit, range_add, map_append, map_map]
    congr 1
    · refine map_congr_left fun j hj => ?_
      rw [mem_range] at hj
      rw [mod_eq_of_lt (by omega)]
    · refine map_congr_left fun j hj => ?_
      rw [mem_range] at hj
      have hplace : pos + (elogCaptureSize - pos + j) = elogCaptureSize + j := by omega
      simp only [comp_apply]
      rw [hplace, add_mod_left, mod_eq_of_lt (by omega), Nat.zero_add]

lemma map_ring (m₀ : ℕ → UInt8) {start off n : ℕ}
    (hstart : start % elogCaptureSize =
      (out.length - min out.length elogCaptureSize) % elogCaptureSize)
    (hn : off + n ≤ min out.length elogCaptureSize) :
    ((List.range n).map fun j => ringWrite elogCaptureSize 0 (fun j => out.getD j 0) out.length m₀
      ((start + off + j) % elogCaptureSize)) = ((lastBytes out).drop off).take n := by
  have hlen : (((lastBytes out).drop off).take n).length = n := by
    rw [length_take, length_drop, length_lastBytes]
    omega
  refine ext_getElem (by rw [length_map, length_range, hlen]) fun j hj _ => ?_
  rw [length_map, length_range] at hj
  -- the byte and its place in the ring have the same number, up to the size
  have hplace : (start + off + j) % elogCaptureSize =
      (0 + (out.length - min out.length elogCaptureSize + off + j)) % elogCaptureSize := by
    rw [Nat.zero_add, Nat.add_assoc, Nat.add_assoc, add_mod, hstart, ← add_mod]
  rw [getElem_map, getElem_range, hplace, ringWrite_last (by omega) (by omega),
    getElem_take, getElem_drop]
  simp only [lastBytes]
  rw [getElem_drop, getD_eq_getElem _ _ (by omega)]
  congr 1
  omega

lemma Holds.read {m₀ : ℕ → UInt8} {c : Capture} (h : Holds m₀ c out)
    (htotal : out.length < 4294967296 ∨ elogCaptureSize ≤ u32 out.length) {off : ℕ}
    (hoff : off < 4294967296) (count : ℕ) :
    elogFullRead c off count = some (((lastBytes out).drop off).take count) := by
  have hlast := length_lastBytes out
  have hu32 : u32 out.length = out.length % 4294967296 := rfl
  have havail : (if c.elogWp < elogCaptureSize then c.elogWp else elogCaptureSize) =
      min out.length elogCaptureSize := by
    rw [h.wp]
    split_ifs <;> omega
  rw [elogFullRead, havail, u32_of_lt hoff, h.linear]
  dsimp only [Option.map_some]
  by_cases hzero : c.elogWp = 0
  · have hnil : lastBytes out = [] := by
      rw [← length_eq_zero_iff, hlast]
      rw [h.wp] at hzero
      simp only [elogCaptureSize] at *
      omega
    rw [if_pos hzero, hnil, drop_nil, take_nil]
  rw [if_neg hzero]
  by_cases hend : min out.length elogCaptureSize ≤ off
  · rw [if_pos hend, drop_eq_nil_of_le (by omega), take_nil]
  rw [if_neg hend]
  have hcount : (if min out.length elogCaptureSize < off + count then
      ofInt32 ((min out.length elogCaptureSize : ℕ) - off) else count) =
      min count (min out.length elogCaptureSize - off) := by
    split_ifs
    · simp only [ofInt32, elogCaptureSize] at *
      omega
    · omega
  have htake : ((lastBytes out).drop off).take count =
      ((lastBytes out).drop off).take (min count (min out.length elogCaptureSize - off)) := by
    rw [← hlast, ← length_drop, ← take_eq_take_min]
  rw [hcount, htake]
  generalize hn : min count (min out.length elogCaptureSize - off) = n
  congr 1
  by_cases hfirst : c.elogWp ≤ elogCaptureSize
  · -- the ring has not come round, or the counter stands at its size
    have hstart : 0 % elogCaptureSize =
        (out.length - min out.length elogCaptureSize) % elogCaptureSize := by
      rw [h.wp] at hfirst
      simp only [elogCaptureSize] at *
      omega
    rw [if_pos hfirst, ← map_ring m₀ hstart (by omega)]
    refine map_congr_left fun j hj => ?_
    rw [mem_range] at hj
    rw [Nat.zero_add, mod_eq_of_lt (by omega)]
  · have hstart : c.elogWp % elogCaptureSize % elogCaptureSize =
        (out.length - min out.length elogCaptureSize) % elogCaptureSize := by
      rw [h.wp] at hfirst ⊢
      simp only [elogCaptureSize] at *
      omega
    rw [if_neg hfirst, copyFrom_wrap _ (pos_lt_size _) (by omega),
      ← map_ring m₀ hstart (by omega)]
    refine map_congr_left fun j _ => ?_
    rw [mod_add_mod]

lemma Holds.read_short {m₀ : ℕ → UInt8} {c : Capture} (h : Holds m₀ c out)
    (hshort : u32 out.length < elogCaptureSize) :
    ∃ bytes, elogFullRead c 0 elogCaptureSize = some bytes ∧
      bytes.length = u32 out.length := by
  rw [elogFullRead, h.wp, if_pos hshort, h.linear]
  dsimp only [Option.map_some]
  by_cases hzero : u32 out.length = 0
  · exact ⟨[], if_pos hzero, hzero.symm⟩
  have hcount : ofInt32 ((u32 out.length : ℤ) - 0) = u32 out.length := by
    have hlt := u32_lt out.length
    simp only [ofInt32]
    omega
  have hoff : u32 0 = 0 := rfl
  rw [if_neg hzero, hoff, if_neg (by omega), if_pos (by omega), if_pos (by omega)]
  refine ⟨_, rfl, ?_⟩
  rw [length_copyFrom]
  exact hcount

end

/-- After any sequence of `elog_emit_raw`, every read returns the bytes it asks for of the last 64
MiB, exactly when the counter has not wrapped or has gone through the ring once more since. -/
theorem elogFullRead_iff (m₀ : ℕ → UInt8) (datas : List (List UInt8)) :
    (∀ off count, off < 4294967296 →
      elogFullRead (datas.foldl elogEmitRaw ⟨some m₀, 0⟩) off count =
        some (((lastBytes datas.flatten).drop off).take count)) ↔
      datas.flatten.length < 4294967296 ∨
        elogCaptureSize ≤ datas.flatten.length % 4294967296 := by
  have hholds := holds_emits m₀ datas
  refine ⟨fun h => ?_, fun h off count hoff => hholds.read h hoff count⟩
  by_contra hno
  rw [not_or, Nat.not_lt, Nat.not_le] at hno
  obtain ⟨bytes, hread, hlen⟩ := hholds.read_short hno.2
  have hall := h 0 elogCaptureSize (by decide)
  rw [hread, Option.some.injEq] at hall
  -- the ring is full, but fewer bytes come back
  have hfull : bytes.length = elogCaptureSize := by
    rw [hall, length_take, length_drop, length_lastBytes]
    simp only [elogCaptureSize] at *
    omega
  rw [hlen] at hfull
  exact absurd hfull hno.2.ne

def twoHalves : List (List UInt8) := [List.replicate 2147483648 7, List.replicate 2147483648 7]

lemma flatten_twoHalves : twoHalves.flatten = List.replicate 4294967296 7 := by
  rw [twoHalves, flatten_cons, flatten_singleton, replicate_append_replicate]

/-- After `2 ^ 32` bytes nothing can be read; and at offset `2 ^ 32` the first byte can be read
again. -/
theorem wrapped_reads :
    elogFullRead (twoHalves.foldl elogEmitRaw ⟨some fun _ => 0, 0⟩) 0 1 = some [] ∧
    ((lastBytes twoHalves.flatten).drop 0).take 1 = [7] ∧
    elogFullRead ([[7]].foldl elogEmitRaw ⟨some fun _ => 0, 0⟩) 4294967296 1 = some [7] ∧
    ((lastBytes [[7]].flatten).drop 4294967296).take 1 = [] := by
  refine ⟨?_, ?_, ?_, ?_⟩
  · have hwp := (holds_emits (fun _ => 0) twoHalves).wp
    rw [flatten_twoHalves, length_replicate, show u32 4294967296 = 0 from rfl] at hwp
    rw [elogFullRead, if_pos hwp]
  · rw [flatten_twoHalves, lastBytes, length_replicate, drop_replicate,
      drop_zero, take_replicate]
    rfl
  · have hholds := holds_emits (fun _ => 0) [[7]]
    rw [elogFullRead, hholds.wp, hholds.linear]
    rfl
  · rfl

end Mipsloader
