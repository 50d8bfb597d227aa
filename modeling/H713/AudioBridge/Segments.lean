import H713.Machine.Bits

/-!
# The addresses of the segments

The first and the last address of a stream's segment are written into two registers, 24 bits of
units of 16 bytes, and the four bits above them into a register that all streams share.
-/

namespace AudioBridge

open Machine Function Nat

/-- A `struct trid_dma_segment`. It is aligned, not empty, and within the 32-bit address space. -/
structure Segment where
  dma : UInt32
  size : UInt32
  aligned : dma.toNat % 16 = 0
  pos : 0 < size.toNat
  fits : dma.toNat + size.toNat ≤ 4294967296

structure Bridge where
  istream : ℕ → Segment
  ostream : ℕ → Segment

/-! ### Registers -/

def highAddrCtl : ℕ := 0x06142044
def audbrg : ℕ := 0x06148000
def irqMask : ℕ := audbrg + 0x388
def irqStatus : ℕ := audbrg + 0x38c
def streamSync : ℕ := audbrg + 0x390

def ostreamBase (n : ℕ) : ℕ := audbrg + 0x100 + n * 64
def istreamBase (n : ℕ) : ℕ := audbrg + 0x280 + n * 64

def regUpdateBits (r : ℕ → UInt32) (a : ℕ) (mask val : UInt32) : ℕ → UInt32 :=
  Function.update r a (updateBits (r a) mask val)

def upper32Bits (dma : UInt32) : UInt32 := ((dma.toUInt64 >>> 16) >>> 16).toUInt32

def streamConfig (r : ℕ → UInt32) (base : ℕ) (mask high : UInt32) (seg : Segment)
    (step cfg bit : UInt32) (irqEnable : Bool) : ℕ → UInt32 :=
  let r := regUpdateBits r highAddrCtl mask high
  let r := Function.update r base ((seg.dma >>> 4) &&& 0x00FFFFFF)
  let r := Function.update r (base + 0x04) (((seg.dma + seg.size - 1) >>> 4) &&& 0x00FFFFFF)
  let r := Function.update r (base + 0x0c) (step >>> 4)
  let r := Function.update r (base + 0x10) cfg
  let r := Function.update r streamSync 0
  let r := regUpdateBits r irqMask bit (if irqEnable then bit else 0)
  regUpdateBits r irqStatus bit bit

/-- The arguments of a call. The rate is not used. -/
structure Format where
  channels : UInt32
  sampleBits : UInt32
  periodBytes : UInt32
  irqEnable : Bool

def istreamCfg (seg : Segment) (f : Format) : UInt32 :=
  let bps := f.sampleBits / 8
  let wflag : UInt32 := if 16 < f.sampleBits then 1 else 0
  let fcode : UInt32 := if f.sampleBits ≤ 16 then 2 else 1
  let endField := ((seg.dma + seg.size - 1) >>> 4) &&& 0xFF
  endField ||| ((bps &&& 0x7) <<< 8) ||| (wflag <<< 11) ||| ((fcode &&& 0x3) <<< 12) |||
    ((f.channels &&& 0x7) <<< 14)

def sampleWidthCode (sampleBits : UInt32) : UInt32 :=
  if sampleBits = 32 then 1 else if sampleBits = 24 then 1 else 0

def ostreamCfg (f : Format) : UInt32 :=
  ((f.channels &&& 0x1f) <<< 8) ||| (sampleWidthCode f.sampleBits <<< 11)

def configStep (seg : Segment) (f : Format) (other : UInt32) : UInt32 :=
  let step := alignUp f.periodBytes 16
  if step = 0 ∨ seg.size < step then other else step

def tridIstreamConfig (b : Bridge) (r : ℕ → UInt32) (stream : ℕ) (f : Format) :
    (ℕ → UInt32) × ℤ :=
  if 4 ≤ stream then (r, -22)
  else
    let seg := b.istream stream
    (streamConfig r (istreamBase stream) 0xF (upper32Bits seg.dma) seg
      (configStep seg f seg.size) (istreamCfg seg f) (1 <<< (stream.toUInt32 + 10)) f.irqEnable, 0)

def tridOstreamConfig (b : Bridge) (r : ℕ → UInt32) (stream : ℕ) (f : Format) :
    (ℕ → UInt32) × ℤ :=
  if 2 ≤ stream then (r, -22)
  else
    let seg := b.ostream stream
    (streamConfig r (ostreamBase stream) 0xF0 (upper32Bits seg.dma <<< 4) seg
      (configStep seg f (if seg.size ≤ 3072 then seg.size else 3072)) (ostreamCfg f)
      (1 <<< (stream.toUInt32 + 4)) f.irqEnable, 0)

/-! ### How the hardware reads them -/

/-- An input or output stream. -/
structure Stream where
  output : Bool
  index : ℕ

namespace Stream

def Valid (t : Stream) : Prop := t.index < if t.output then 2 else 4

instance (t : Stream) : Decidable t.Valid := Nat.decLt _ _

def base (t : Stream) : ℕ := if t.output then ostreamBase t.index else istreamBase t.index

def segment (t : Stream) (b : Bridge) : Segment :=
  if t.output then b.ostream t.index else b.istream t.index

def mask (t : Stream) : UInt32 := if t.output then 0xF0 else 0xF

def decode (t : Stream) (r : ℕ → UInt32) (reg : ℕ) : UInt32 :=
  let high := r highAddrCtl &&& t.mask
  let ptr := r reg &&& 0xFFFFFF
  (high <<< (if t.output then 24 else 28)) ||| (ptr <<< 4)

def config (t : Stream) (b : Bridge) (r : ℕ → UInt32) (f : Format) : ℕ → UInt32 :=
  if t.output then (tridOstreamConfig b r t.index f).1 else (tridIstreamConfig b r t.index f).1

def Right (t : Stream) (b : Bridge) (r : ℕ → UInt32) : Prop :=
  (t.decode r t.base).toNat = (t.segment b).dma.toNat ∧
    (t.decode r (t.base + 4)).toNat =
      ((t.segment b).dma.toNat + (t.segment b).size.toNat - 1) / 16 * 16

end Stream

def configs (b : Bridge) (r : ℕ → UInt32) (calls : List (Stream × Format)) : ℕ → UInt32 :=
  calls.foldl (fun r c => c.1.config b r c.2) r

/-! ### One configuration -/

variable {b : Bridge} {r : ℕ → UInt32} {t t' : Stream} {f : Format}

lemma upper32Bits_eq_zero (dma : UInt32) : upper32Bits dma = 0 := by
  have hlt := dma.toNat_lt
  apply UInt32.toNat_inj.mp
  simp only [upper32Bits, UInt64.toNat_toUInt32, UInt64.toNat_shiftRight, UInt32.toNat_toUInt64,
    shiftRight_eq_div_pow]
  change dma.toNat / 2 ^ 16 / 2 ^ 16 % 2 ^ 32 = 0
  omega

def Stream.slot (t : Stream) : ℕ := if t.output then 4 + t.index else 10 + t.index

lemma Stream.base_eq (t : Stream) : t.base = audbrg + 64 * t.slot := by
  rw [base, slot]
  split_ifs
  · rw [ostreamBase]
    omega
  · rw [istreamBase]
    omega

lemma Stream.Valid.slot_le (h : t.Valid) : 4 ≤ t.slot ∧ t.slot ≤ 13 := by
  rw [Valid] at h
  rw [slot]
  split_ifs at h ⊢ <;> omega

lemma Stream.Valid.slot_inj (h : t.Valid) (h' : t'.Valid) (hslot : t.slot = t'.slot) : t = t' := by
  obtain ⟨output, index⟩ := t
  obtain ⟨output', index'⟩ := t'
  simp only [Valid, slot] at h h' hslot
  cases output <;> cases output' <;> simp at h h' hslot ⊢ <;> omega

lemma Stream.config_eq (h : t.Valid) (b : Bridge) (r : ℕ → UInt32) (f : Format) :
    ∃ step cfg bit, t.config b r f =
      streamConfig r t.base t.mask 0 (t.segment b) step cfg bit f.irqEnable := by
  rw [Valid] at h
  rw [config, mask, base, segment]
  split_ifs at h ⊢
  · rw [tridOstreamConfig, if_neg (by omega)]
    dsimp only
    rw [upper32Bits_eq_zero]
    exact ⟨_, _, _, rfl⟩
  · rw [tridIstreamConfig, if_neg (by omega)]
    dsimp only
    rw [upper32Bits_eq_zero]
    exact ⟨_, _, _, rfl⟩

/-- The registers of a stream have what its configuration writes. -/
structure Stream.Configured (t : Stream) (b : Bridge) (r : ℕ → UInt32) : Prop where
  start : r t.base = ((t.segment b).dma >>> 4) &&& 0x00FFFFFF
  stop : r (t.base + 4) = (((t.segment b).dma + (t.segment b).size - 1) >>> 4) &&& 0x00FFFFFF
  high : r highAddrCtl &&& t.mask = 0

section

variable {k k' : ℕ} {mask high : UInt32} {seg : Segment} {step cfg bit : UInt32} {irqEnable : Bool}

/-- The registers of a stream lie between the other ones that its configuration writes. -/
lemma stream_regs (hk : k ≤ 13) : highAddrCtl < audbrg + 64 * k ∧
    audbrg + 64 * k + 64 ≤ irqMask ∧ irqMask < irqStatus ∧ irqStatus < streamSync := by
  unfold highAddrCtl irqMask irqStatus streamSync audbrg
  omega

lemma streamConfig_high (hk : k ≤ 13) :
    streamConfig r (audbrg + 64 * k) mask high seg step cfg bit irqEnable highAddrCtl =
      updateBits (r highAddrCtl) mask high := by
  obtain ⟨hctl, hirq⟩ := stream_regs hk
  simp only [streamConfig, regUpdateBits]
  repeat rw [update_of_ne (by omega)]
  rw [update_self]

lemma streamConfig_start (hk : k ≤ 13) :
    streamConfig r (audbrg + 64 * k) mask high seg step cfg bit irqEnable (audbrg + 64 * k) =
      (seg.dma >>> 4) &&& 0x00FFFFFF := by
  obtain ⟨hctl, hirq⟩ := stream_regs hk
  simp only [streamConfig, regUpdateBits]
  repeat rw [update_of_ne (by omega)]
  rw [update_self]

lemma streamConfig_stop (hk : k ≤ 13) :
    streamConfig r (audbrg + 64 * k) mask high seg step cfg bit irqEnable (audbrg + 64 * k + 4) =
      ((seg.dma + seg.size - 1) >>> 4) &&& 0x00FFFFFF := by
  obtain ⟨hctl, hirq⟩ := stream_regs hk
  simp only [streamConfig, regUpdateBits]
  repeat rw [update_of_ne (by omega)]
  rw [update_self]

lemma streamConfig_other {i : ℕ} (hk : k ≤ 13) (hne : k ≠ k') (hi : i ≤ 4) :
    streamConfig r (audbrg + 64 * k') mask high seg step cfg bit irqEnable (audbrg + 64 * k + i) =
      r (audbrg + 64 * k + i) := by
  obtain ⟨hctl, hirq⟩ := stream_regs hk
  simp only [streamConfig, regUpdateBits]
  repeat rw [update_of_ne (by omega)]

end

lemma Stream.configured_config (h : t.Valid) (b : Bridge) (r : ℕ → UInt32) (f : Format) :
    t.Configured b (t.config b r f) := by
  obtain ⟨step, cfg, bit, hconfig⟩ := config_eq h b r f
  have hle := h.slot_le.2
  rw [hconfig, base_eq]
  refine ⟨?_, ?_, ?_⟩
  · rw [base_eq, streamConfig_start hle]
  · rw [base_eq, streamConfig_stop hle]
  · rw [streamConfig_high hle, updateBits_and_mask]
    exact UInt32.zero_and

lemma Stream.mask_disjoint (hne : t.output ≠ t'.output) : t'.mask &&& t.mask = 0 := by
  rw [mask, mask]
  cases ht : t.output <;> cases ht' : t'.output
  · exact absurd (ht.trans ht'.symm) hne
  · rfl
  · rfl
  · exact absurd (ht.trans ht'.symm) hne

lemma Stream.Configured.config (hc : t.Configured b r) (h : t.Valid) (h' : t'.Valid) (f : Format) :
    t.Configured b (t'.config b r f) := by
  by_cases hsame : t.slot = t'.slot
  · rw [h.slot_inj h' hsame]
    exact configured_config h' b r f
  · obtain ⟨step, cfg, bit, hconfig⟩ := config_eq h' b r f
    have hle := h.slot_le.2
    have hle' := h'.slot_le.2
    rw [hconfig, base_eq t']
    refine ⟨?_, ?_, ?_⟩
    · have hstart := hc.start
      rw [base_eq] at hstart ⊢
      exact (streamConfig_other hle hsame (Nat.zero_le 4)).trans hstart
    · have hstop := hc.stop
      rw [base_eq] at hstop ⊢
      exact (streamConfig_other hle hsame le_rfl).trans hstop
    · rw [streamConfig_high hle']
      by_cases hkind : t.output = t'.output
      · rw [mask, mask, hkind, updateBits_and_mask]
        exact UInt32.zero_and
      · rw [updateBits_and_of_disjoint (mask_disjoint hkind)]
        exact hc.high

lemma Stream.config_of_not_valid (h : ¬ t.Valid) (b : Bridge) (r : ℕ → UInt32) (f : Format) :
    t.config b r f = r := by
  rw [Valid] at h
  rw [config]
  split_ifs at h ⊢
  · rw [tridOstreamConfig, if_pos (by omega)]
  · rw [tridIstreamConfig, if_pos (by omega)]

lemma configured_configs {calls : List (Stream × Format)} (r : ℕ → UInt32) (h : t.Valid)
    (hmem : ∃ f, (t, f) ∈ calls) : t.Configured b (configs b r calls) := by
  have hkeep : ∀ (calls : List (Stream × Format)) (r : ℕ → UInt32), t.Configured b r →
      t.Configured b (configs b r calls) := by
    intro calls
    induction calls with
    | nil => exact fun r hr => hr
    | cons c calls ih =>
      intro r hr
      refine ih _ ?_
      by_cases hv : c.1.Valid
      · exact hr.config h hv c.2
      · dsimp only
        rw [Stream.config_of_not_valid hv]
        exact hr
  induction calls generalizing r with
  | nil =>
    obtain ⟨f, hf⟩ := hmem
    exact absurd hf List.not_mem_nil
  | cons c calls ih =>
    obtain ⟨f, hf⟩ := hmem
    rcases List.mem_cons.mp hf with rfl | hrest
    · exact hkeep calls _ (Stream.configured_config h b r f)
    · exact ih _ ⟨f, hrest⟩

/-! ### The address the hardware sees -/

lemma Stream.decode_toNat {x : UInt32} {reg : ℕ} (hhigh : r highAddrCtl &&& t.mask = 0)
    (hreg : r reg = (x >>> 4) &&& 0x00FFFFFF) :
    (t.decode r reg).toNat = x.toNat % 268435456 / 16 * 16 := by
  have hlt := x.toNat_lt
  have hptr : ((x >>> 4) &&& 0x00FFFFFF).toNat = x.toNat / 16 % 16777216 := by
    rw [UInt32.toNat_and, UInt32.toNat_shiftRight, shiftRight_eq_div_pow]
    exact and_two_pow_sub_one_eq_mod _ 24
  have hagain : (((x >>> 4) &&& 0x00FFFFFF) &&& 0xFFFFFF).toNat = x.toNat / 16 % 16777216 := by
    rw [UInt32.toNat_and, hptr]
    exact (and_two_pow_sub_one_eq_mod _ 24).trans (mod_mod _ _)
  rw [decode, hhigh, hreg, UInt32.zero_shiftLeft, UInt32.zero_or, UInt32.toNat_shiftLeft, hagain,
    shiftLeft_eq]
  change x.toNat / 16 % 16777216 * 2 ^ 4 % 2 ^ 32 = _
  omega

lemma Stream.Configured.right_iff (hc : t.Configured b r) :
    t.Right b r ↔ (t.segment b).dma.toNat + (t.segment b).size.toNat ≤ 268435456 := by
  have haligned := (t.segment b).aligned
  have hpos := (t.segment b).pos
  have hfits := (t.segment b).fits
  -- the sum may be 2 ^ 32, but taking one away goes back below it
  have hlast : ((t.segment b).dma + (t.segment b).size - 1).toNat =
      (t.segment b).dma.toNat + (t.segment b).size.toNat - 1 := by
    rw [UInt32.toNat_sub, UInt32.toNat_add]
    change (2 ^ 32 - 1 + ((t.segment b).dma.toNat + (t.segment b).size.toNat) % 2 ^ 32) % 2 ^ 32 = _
    omega
  rw [Stream.Right, Stream.decode_toNat hc.high hc.start, Stream.decode_toNat hc.high hc.stop,
    hlast]
  omega

/-- After any configurations of any streams, the addresses of a configured stream are right exactly
if its segment lies in the first 256 MiB. -/
theorem addresses_right_iff (b : Bridge) (r : ℕ → UInt32) (calls : List (Stream × Format))
    (h : t.Valid) (hmem : ∃ f, (t, f) ∈ calls) :
    t.Right b (configs b r calls) ↔
      (t.segment b).dma.toNat + (t.segment b).size.toNat ≤ 268435456 :=
  (configured_configs r h hmem).right_iff

/-! ### The segments of one block -/

section

variable {shared : UInt32}

lemma shared_add (hfits : shared.toNat + 393216 ≤ 4294967296) (k : ℕ) :
    (shared + UInt32.ofNat (k % 6 * 65536)).toNat = shared.toNat + k % 6 * 65536 := by
  have hlt : k % 6 < 6 := mod_lt _ (by omega)
  have hk : (UInt32.ofNat (k % 6 * 65536)).toNat = k % 6 * 65536 :=
    UInt32.toNat_ofNat_of_lt' (show _ < 4294967296 by omega)
  rw [UInt32.toNat_add, hk]
  omega

lemma shared_aligned (haligned : shared.toNat % 16 = 0) (hfits : shared.toNat + 393216 ≤ 4294967296)
    (k : ℕ) : (shared + UInt32.ofNat (k % 6 * 65536)).toNat % 16 = 0 := by
  rw [shared_add hfits]
  omega

lemma shared_fits (hfits : shared.toNat + 393216 ≤ 4294967296) (k : ℕ) :
    (shared + UInt32.ofNat (k % 6 * 65536)).toNat + (65536 : UInt32).toNat ≤ 4294967296 := by
  have hlt : k % 6 < 6 := mod_lt _ (by omega)
  rw [shared_add hfits]
  change _ + 65536 ≤ _
  omega

def tridSetupSegments (shared : UInt32) (haligned : shared.toNat % 16 = 0)
    (hfits : shared.toNat + 393216 ≤ 4294967296) : Bridge where
  istream i := ⟨shared + UInt32.ofNat (i % 6 * 65536), 65536, shared_aligned haligned hfits i,
    by decide, shared_fits hfits i⟩
  ostream i := ⟨shared + UInt32.ofNat ((4 + i) % 6 * 65536), 65536,
    shared_aligned haligned hfits (4 + i), by decide, shared_fits hfits (4 + i)⟩

end

def stereo : Format := ⟨2, 16, 4096, true⟩

/-- An input and an output stream of a bridge whose block is at 16 MiB. -/
theorem addresses_right_iff_low :
    (⟨true, 1⟩ : Stream).Right (tridSetupSegments 0x1000000 rfl (by decide))
      (configs (tridSetupSegments 0x1000000 rfl (by decide)) (fun _ => 0xFFFFFFFF)
        [(⟨false, 3⟩, stereo), (⟨true, 1⟩, stereo), (⟨false, 0⟩, stereo)]) :=
  (addresses_right_iff _ _ _ (by decide) ⟨stereo, by simp⟩).mpr (by decide)

/-- With the block at `0x4D000000`, the hardware reads the samples of input stream 0 from
`0x0D000000`. -/
theorem istream_reads_elsewhere :
    ¬ (⟨false, 0⟩ : Stream).Right (tridSetupSegments 0x4D000000 rfl (by decide))
        (configs (tridSetupSegments 0x4D000000 rfl (by decide)) (fun _ => 0)
          [(⟨false, 0⟩, stereo)]) ∧
      (⟨false, 0⟩ : Stream).decode
        (configs (tridSetupSegments 0x4D000000 rfl (by decide)) (fun _ => 0)
          [(⟨false, 0⟩, stereo)]) (istreamBase 0) = 0x0D000000 := by
  have hc : (⟨false, 0⟩ : Stream).Configured (tridSetupSegments 0x4D000000 rfl (by decide))
      (configs (tridSetupSegments 0x4D000000 rfl (by decide)) (fun _ => 0)
        [(⟨false, 0⟩, stereo)]) :=
    configured_configs _ (by decide) ⟨stereo, List.mem_singleton.mpr rfl⟩
  constructor
  · rw [hc.right_iff]
    decide
  · exact UInt32.toNat_inj.mp (Stream.decode_toNat hc.high hc.start)

end AudioBridge
