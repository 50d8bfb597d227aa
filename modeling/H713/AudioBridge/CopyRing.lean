import H713.Machine.Bytes
import H713.Machine.Loop
import H713.Machine.RingWrite

/-!
# The copy between the PCM buffer and a segment of the bridge

Each period `trid_stream_transfer` copies `period_bytes` between the PCM buffer and the segment of
the stream. Both are rings of unrelated sizes, and `trid_copy_ring` goes on in chunks that end where
one of them does.
-/

namespace AudioBridge

open Machine Option Nat

/-- The sizes of a stream. No object takes more than half of the 32-bit address space. -/
structure Sizes where
  period : ℕ
  buffer : ℕ
  segment : ℕ
  period_pos : 0 < period
  period_le : period ≤ buffer
  buffer_le : buffer ≤ 2147483648
  segment_pos : 0 < segment
  segment_le : segment ≤ 2147483648

/-! ### `trid_copy_ring` -/

/-- What changes in the loop. -/
structure Copy where
  dst : Bytes
  dstOff : ℕ
  srcOff : ℕ
  bytes : ℕ

def copyRound (dstSize srcSize : ℕ) (src : Bytes) (s : Copy) : Copy ⊕ Bytes :=
  if s.bytes = 0 then .inr s.dst
  else
    let dstChunk := min s.bytes (sub32 dstSize s.dstOff)
    let srcChunk := min s.bytes (sub32 srcSize s.srcOff)
    let chunk := min dstChunk srcChunk
    .inl
      { dst := s.dst.copy s.dstOff src s.srcOff chunk
        bytes := s.bytes - chunk
        dstOff := u32 (s.dstOff + chunk) % dstSize
        srcOff := u32 (s.srcOff + chunk) % srcSize }

def tridCopyRing (fuel : ℕ) (dst : Bytes) (dstSize dstOff : ℕ) (src : Bytes) (srcSize srcOff : ℕ)
    (bytes : ℕ) : Option Bytes :=
  (Loop.loop (copyRound dstSize srcSize src) fuel ⟨dst, dstOff, srcOff, bytes⟩).map Prod.snd

def stream (size off : ℕ) (src : Bytes) (j : ℕ) : UInt8 := src.byte ((off + j) % size)

lemma copyRound_eq {dstSize srcSize : ℕ} (src : Bytes) {s : Copy} (hdst : dstSize ≤ 2147483648)
    (hsrc : srcSize ≤ 2147483648) (hd : s.dstOff < dstSize) (hs : s.srcOff < srcSize)
    (hbytes : s.bytes ≠ 0) :
    ∃ c, 0 < c ∧ c ≤ s.bytes ∧ copyRound dstSize srcSize src s =
      .inl ⟨⟨ringWrite dstSize s.dstOff (stream srcSize s.srcOff src) c s.dst.byte⟩,
        (s.dstOff + c) % dstSize, (s.srcOff + c) % srcSize, s.bytes - c⟩ := by
  refine ⟨min (min s.bytes (dstSize - s.dstOff)) (min s.bytes (srcSize - s.srcOff)),
    by omega, by omega, ?_⟩
  rw [copyRound, if_neg hbytes, sub32_of_le hd.le (by omega), sub32_of_le hs.le (by omega)]
  generalize hc : min (min s.bytes (dstSize - s.dstOff)) (min s.bytes (srcSize - s.srcOff)) = c
  have hpiece : ringWrite dstSize s.dstOff (stream srcSize s.srcOff src) c s.dst.byte =
      (s.dst.copy s.dstOff src s.srcOff c).byte := by
    rw [ringWrite_of_le (by omega), Bytes.copy]
    funext k
    refine if_ctx_congr Iff.rfl (fun hk => ?_) fun _ => rfl
    rw [stream, mod_eq_of_lt (by omega)]
  simp only [hc]
  rw [hpiece, u32_of_lt (by omega), u32_of_lt (by omega)]

lemma loop_copyRound {dstSize srcSize : ℕ} (src : Bytes) (hdst : dstSize ≤ 2147483648)
    (hsrc : srcSize ≤ 2147483648) {s : Copy} {fuel : ℕ} (hd : s.dstOff < dstSize)
    (hs : s.srcOff < srcSize) (hfuel : s.bytes < fuel) :
    ∃ n, Loop.loop (copyRound dstSize srcSize src) fuel s =
      some (n, ⟨ringWrite dstSize s.dstOff (stream srcSize s.srcOff src) s.bytes s.dst.byte⟩) := by
  induction fuel generalizing s with
  | zero => omega
  | succ fuel ih =>
    by_cases hbytes : s.bytes = 0
    · refine ⟨0, ?_⟩
      have hround : copyRound dstSize srcSize src s = .inr s.dst := if_pos hbytes
      rw [Loop.loop, hround, hbytes]
      rfl
    · obtain ⟨c, hpos, hle, hround⟩ := copyRound_eq src hdst hsrc hd hs hbytes
      have hd' : (s.dstOff + c) % dstSize < dstSize := mod_lt _ (by omega)
      have hs' : (s.srcOff + c) % srcSize < srcSize := mod_lt _ (by omega)
      rw [Loop.loop, hround]
      dsimp only
      obtain ⟨n, hloop⟩ := ih (s := ⟨⟨ringWrite dstSize s.dstOff (stream srcSize s.srcOff src) c
        s.dst.byte⟩, (s.dstOff + c) % dstSize, (s.srcOff + c) % srcSize, s.bytes - c⟩) hd' hs'
        (by dsimp only; omega)
      refine ⟨n + 1, ?_⟩
      rw [hloop]
      have hrest : ∀ j, stream srcSize ((s.srcOff + c) % srcSize) src j =
          stream srcSize s.srcOff src (c + j) := by
        intro j
        rw [stream, stream, mod_add_mod, Nat.add_assoc]
      have hsplit : ringWrite dstSize s.dstOff (stream srcSize s.srcOff src) s.bytes s.dst.byte =
          ringWrite dstSize (s.dstOff + c) (fun j => stream srcSize s.srcOff src (c + j))
            (s.bytes - c)
            (ringWrite dstSize s.dstOff (stream srcSize s.srcOff src) c s.dst.byte) := by
        rw [← ringWrite_add, Nat.add_sub_cancel' hle]
      simp only [map_some, ringWrite_mod]
      rw [hsplit, ringWrite_congr fun j _ => hrest j]

lemma tridCopyRing_eq {dstSize srcSize dstOff srcOff bytes fuel : ℕ} {dst src : Bytes}
    (hdst : dstSize ≤ 2147483648) (hsrc : srcSize ≤ 2147483648) (hd : dstOff < dstSize)
    (hs : srcOff < srcSize) (hfuel : bytes < fuel) :
    tridCopyRing fuel dst dstSize dstOff src srcSize srcOff bytes =
      some ⟨ringWrite dstSize dstOff (stream srcSize srcOff src) bytes dst.byte⟩ := by
  obtain ⟨n, hloop⟩ :=
    loop_copyRound src hdst hsrc (s := ⟨dst, dstOff, srcOff, bytes⟩) hd hs hfuel
  rw [tridCopyRing, hloop]
  rfl

/-! ### `trid_stream_transfer` -/

/-- What is used of a `struct trid_stream_state`. -/
structure StreamState where
  capture : Bool
  periodBytes : ℕ
  bufferBytes : ℕ
  hwPtrBytes : ℕ
  bridgeOffset : ℕ

def tridPcmPrepare (z : Sizes) (capture : Bool) : StreamState :=
  ⟨capture, z.period, z.buffer, 0, 0⟩

def transferCopy (fuel segmentSize : ℕ) (s : StreamState) (dst src : Bytes) : Option Bytes :=
  if s.capture then
    tridCopyRing fuel dst s.bufferBytes s.hwPtrBytes src segmentSize s.bridgeOffset s.periodBytes
  else
    tridCopyRing fuel dst segmentSize s.bridgeOffset src s.bufferBytes s.hwPtrBytes s.periodBytes

def tridStreamTransfer (fuel segmentSize : ℕ) (s : StreamState) (dst src : Bytes) :
    Option (StreamState × Bytes) :=
  (transferCopy fuel segmentSize s dst src).map fun dst =>
    ({ s with
      hwPtrBytes := u32 (s.hwPtrBytes + s.periodBytes) % s.bufferBytes
      bridgeOffset := u32 (s.bridgeOffset + s.periodBytes) % segmentSize }, dst)

def transfers (z : Sizes) (capture : Bool) (fuel : ℕ) (dst : Bytes) (src : ℕ → Bytes) :
    ℕ → Option (StreamState × Bytes)
  | 0     => some (tridPcmPrepare z capture, dst)
  | n + 1 => do
    let (s, dst) ← transfers z capture fuel dst src n
    tridStreamTransfer fuel z.segment s dst (src n)

/-! ### Any number of periods -/

def Sizes.dst (z : Sizes) (capture : Bool) : ℕ := if capture then z.buffer else z.segment

def Sizes.src (z : Sizes) (capture : Bool) : ℕ := if capture then z.segment else z.buffer

def Sizes.streamByte (z : Sizes) (capture : Bool) (src : ℕ → Bytes) (i : ℕ) : UInt8 :=
  (src (i / z.period)).byte (i % z.src capture)

def Sizes.at (z : Sizes) (capture : Bool) (n : ℕ) : StreamState :=
  ⟨capture, z.period, z.buffer, n * z.period % z.buffer, n * z.period % z.segment⟩

variable {z : Sizes} {capture : Bool} {fuel : ℕ}

lemma tridStreamTransfer_eq (n : ℕ) (dst : Bytes) (src : ℕ → Bytes) (hfuel : z.period < fuel) :
    tridStreamTransfer fuel z.segment (z.at capture n) dst (src n) =
      some (z.at capture (n + 1), ⟨ringWrite (z.dst capture) (n * z.period)
        (fun j => z.streamByte capture src (n * z.period + j)) z.period dst.byte⟩) := by
  have hperiod := z.period_pos
  have hle := z.period_le
  have hbuffer := z.buffer_le
  have hsegment := z.segment_le
  have hpos := z.segment_pos
  have hhw : n * z.period % z.buffer < z.buffer := mod_lt _ (by omega)
  have hbridge : n * z.period % z.segment < z.segment := mod_lt _ hpos
  have hat : z.at capture (n + 1) = { z.at capture n with
      hwPtrBytes := u32 (n * z.period % z.buffer + z.period) % z.buffer
      bridgeOffset := u32 (n * z.period % z.segment + z.period) % z.segment } := by
    rw [u32_of_lt (by omega), u32_of_lt (by omega), mod_add_mod, mod_add_mod, Sizes.at,
      succ_mul]
    rfl
  have hstream : ∀ j < z.period, stream (z.src capture) (n * z.period % z.src capture) (src n) j =
      z.streamByte capture src (n * z.period + j) := by
    intro j hj
    rw [stream, mod_add_mod, Sizes.streamByte, Nat.mul_comm n, mul_add_div hperiod,
      div_eq_of_lt hj, Nat.add_zero]
  have hcopy : transferCopy fuel z.segment (z.at capture n) dst (src n) =
      some ⟨ringWrite (z.dst capture) (n * z.period)
        (fun j => z.streamByte capture src (n * z.period + j)) z.period dst.byte⟩ := by
    rw [← ringWrite_congr hstream, ← ringWrite_mod]
    cases capture with
    | true => exact tridCopyRing_eq hbuffer hsegment hhw hbridge hfuel
    | false => exact tridCopyRing_eq hsegment hbuffer hbridge hhw hfuel
  rw [hat, tridStreamTransfer, hcopy]
  rfl

lemma transfers_eq (dst : Bytes) (src : ℕ → Bytes) (n : ℕ) (hfuel : z.period < fuel) :
    transfers z capture fuel dst src n = some (z.at capture n,
      ⟨ringWrite (z.dst capture) 0 (z.streamByte capture src) (n * z.period) dst.byte⟩) := by
  induction n with
  | zero =>
    rw [transfers, zero_mul, ringWrite, tridPcmPrepare, Sizes.at, zero_mul, zero_mod,
      zero_mod]
  | succ n ih =>
    rw [transfers, ih]
    simp only [bind_eq_bind, bind_some]
    rw [tridStreamTransfer_eq n _ src hfuel, succ_mul, ringWrite_add, Nat.zero_add]

/-- After any number of transfers the last bytes of the stream lie in the ring that is written, each
as it was when its period was copied, and both positions are at its end. -/
theorem transfers_spec (z : Sizes) (capture : Bool) (dst : Bytes) (src : ℕ → Bytes) (n : ℕ)
    (hfuel : z.period < fuel) :
    ∃ s dst', transfers z capture fuel dst src n = some (s, dst') ∧
      s.hwPtrBytes = n * z.period % z.buffer ∧ s.bridgeOffset = n * z.period % z.segment ∧
      ∀ i < n * z.period, n * z.period ≤ i + z.dst capture →
        dst'.byte (i % z.dst capture) = (src (i / z.period)).byte (i % z.src capture) := by
  refine ⟨_, _, transfers_eq dst src n hfuel, rfl, rfl, fun i hi hlast => ?_⟩
  have hring : ringWrite (z.dst capture) 0 (z.streamByte capture src) (n * z.period) dst.byte
      ((0 + i) % z.dst capture) = z.streamByte capture src i := ringWrite_last hi hlast
  rw [Nat.zero_add] at hring
  exact hring

def oddSizes : Sizes :=
  ⟨3, 5, 4, by decide, by decide, by decide, by decide, by decide⟩

/-- Three periods of playback. The last byte of the stream is byte three of the buffer. -/
theorem transfers_spec_odd :
    ∃ s dst', transfers oddSizes false 4 ⟨fun _ => 0⟩ (fun t => ⟨fun k => .ofNat (10 * t + k)⟩) 3 =
        some (s, dst') ∧
      s.hwPtrBytes = 4 ∧ s.bridgeOffset = 1 ∧ dst'.byte 0 = 23 := by
  obtain ⟨s, dst', hrun, hhw, hbridge, hbytes⟩ :=
    transfers_spec oddSizes false ⟨fun _ => 0⟩ (fun t => ⟨fun k => .ofNat (10 * t + k)⟩) 3
      (show oddSizes.period < 4 by decide)
  exact ⟨s, dst', hrun, hhw, hbridge, hbytes 8 (by decide) (by decide)⟩

end AudioBridge
