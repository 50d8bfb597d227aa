import H713.Machine.Regmap

/-!
# The registers of the audio codec

The codec has two windows of registers, one for the converters and the analog part and one for
I2S. Both are programmed in fixed sequences. The sequences of `sunxi_codec_init` depend on the
volumes and the swaps of the device tree.
-/

namespace Codec

open Machine List

/-- The fields of `struct sunxi_codec_data` that are set when the device is probed. -/
structure Data where
  digitalVol : UInt32
  speakerVol : UInt32
  headphoneVol : UInt32
  dacSwapEn : UInt32
  adcSwapEn : UInt32
  spkUsed : Bool
  paLevel : Bool

/-! ### Register addresses -/

def dacDpc : ℕ := 0x000
def dacVolCtrl : ℕ := 0x004
def dacFifoc : ℕ := 0x010
def dacFifos : ℕ := 0x014
def dacCnt : ℕ := 0x024
def dacDg : ℕ := 0x028
def adcFifoc : ℕ := 0x030
def adcVolCtrl : ℕ := 0x034
def adcFifos : ℕ := 0x038
def adcCnt : ℕ := 0x044
def adcDg : ℕ := 0x04C
def dacDapCtl : ℕ := 0x0F0
def adcDapCtl : ℕ := 0x0F8
def adclReg : ℕ := 0x300
def adcrReg : ℕ := 0x304
def dacReg : ℕ := 0x310
def micbiasReg : ℕ := 0x318
def biasReg : ℕ := 0x320
def hpReg : ℕ := 0x324
def hmicCtrl : ℕ := 0x328
def hpCalCtrl : ℕ := 0x32C

def i2sCtl : ℕ := 0x00
def i2sFmt0 : ℕ := 0x04
def i2sFmt1 : ℕ := 0x08
def i2sClkdiv : ℕ := 0x24
def i2sChcfg : ℕ := 0x30
def i2sTx0chsel : ℕ := 0x34
def i2sTx0chmap1 : ℕ := 0x48
def i2sRxchsel : ℕ := 0x64
def i2sRxchmap3 : ℕ := 0x74

def codecRegLabels : List ℕ :=
  [dacDpc, dacVolCtrl, dacFifoc, dacFifos, dacCnt, dacDg, adcFifoc, adcVolCtrl, adcFifos, adcCnt,
    adcDg, dacDapCtl, adcDapCtl, adclReg, adcrReg, dacReg, micbiasReg, biasReg, hpReg, hmicCtrl,
    hpCalCtrl]

def i2sRegLabels : List ℕ :=
  [i2sCtl, i2sFmt0, i2sFmt1, i2sClkdiv, i2sChcfg, i2sTx0chsel, 0x38, 0x3C, 0x40, 0x44, i2sTx0chmap1,
    0x4C, 0x50, 0x54, 0x58, 0x5C, 0x60, i2sRxchsel, 0x68, 0x6C, 0x70, i2sRxchmap3]

/-! ### Sequences -/

def bit (n : UInt32) : UInt32 := 1 <<< n

def sunxiCodecDacRouteEnable (enable : Bool) : List RegOp :=
  [.update dacDpc (bit 31) (if enable then bit 31 else 0),
    .update dacFifoc 0xE0000000 0,
    .update dacFifoc (bit 5) 0,
    .update dacFifoc (bit 6) 0,
    .update dacReg (bit 15) (if enable then bit 15 else 0),
    .update dacReg (bit 14) (if enable then bit 14 else 0)]

def sunxiCodecInit (d : Data) : List RegOp :=
  [.update dacVolCtrl (bit 16) (bit 16),
    .update adcFifoc (bit 17) (bit 17),
    .update adcFifoc 0xE000000 0xE000000,
    .update dacDpc 0x3F000 (d.digitalVol <<< 12),
    .update dacReg 0x1F d.speakerVol,
    .update dacReg 0x70000000 (d.headphoneVol <<< 28),
    .update adclReg 0xFF 0x55,
    .update adcrReg 0xFF 0x55,
    .update adclReg (bit 17) (bit 17),
    .update adcrReg (bit 17) (bit 17),
    .update hpReg 0x8FCC 0x8F8C,
    .update dacReg (bit 6) (bit 6),
    .update dacReg (bit 5) (bit 5)] ++
  sunxiCodecDacRouteEnable true ++
  [.update dacDpc (bit 30 ||| bit 29) (bit 30 ||| bit 29),
    .update dacReg (bit 12) (bit 12),
    .update dacReg (bit 10) (bit 10),
    .update hpReg 0x8FCC 0x8F8C,
    .write hpCalCtrl 0x00006000,
    .update dacReg (bit 27) (bit 27),
    .update dacReg 0x3000000 0x3000000] ++
  (if d.dacSwapEn ≠ 0 then [.update dacDg (bit 6) (bit 6)] else []) ++
  (if d.adcSwapEn ≠ 0 then [.update adcDg (bit 24) (bit 24)] else []) ++
  [.update dacDpc (bit 29) 0,
    .update dacVolCtrl 0xFF00 ((90 : UInt32) <<< 8),
    .update dacDpc (bit 0) (bit 0),
    .update hpReg (bit 10 ||| bit 11 ||| bit 15) (bit 10 ||| bit 11 ||| bit 15)]

def sunxiCodecI2sInit : List RegOp :=
  [.update i2sCtl 0x1 0x1,
    .update i2sFmt0 (bit 30) 0,
    .update i2sFmt0 0x3FF00 0x1F00,
    .update i2sFmt0 0x7 0x5,
    .update i2sClkdiv 0xF 0x4,
    .update i2sClkdiv (bit 8) (bit 8),
    .update i2sCtl 0x30 0x10,
    .update i2sFmt0 (bit 19) (bit 19),
    .update i2sFmt0 (bit 7) 0,
    .update i2sClkdiv 0xF0 0x80,
    .update i2sFmt1 (bit 6) 0,
    .update i2sFmt1 (bit 7) 0,
    .update i2sFmt1 0x30 0x30,
    .update i2sFmt0 0x70 0x50,
    .write i2sRxchmap3 0x100,
    .update i2sRxchsel 0xF0000 0x10000,
    .update i2sChcfg 0xF0 0x10,
    .write i2sTx0chmap1 0x3210,
    .update i2sTx0chsel 0xF0000 0x10000,
    .update i2sChcfg 0xF 0x1,
    .update i2sTx0chsel 0xFFFF 0x3,
    .update i2sCtl (bit 17) 0,
    .update i2sCtl (bit 18) 0,
    .update i2sCtl (bit 1) (bit 1)]

/-! ### What is programmed is saved -/

lemma sunxiCodecDacRouteEnable_reg {enable : Bool} {op : RegOp}
    (h : op ∈ sunxiCodecDacRouteEnable enable) : op.reg ∈ codecRegLabels := by
  revert h op
  simp only [sunxiCodecDacRouteEnable, forall_mem_cons, RegOp.reg]
  decide

lemma sunxiCodecInit_reg {d : Data} {op : RegOp} (h : op ∈ sunxiCodecInit d) :
    op.reg ∈ codecRegLabels := by
  simp only [sunxiCodecInit, mem_append] at h
  obtain (((((h | h) | h) | h) | h) | h) := h
  · revert h op
    simp only [forall_mem_cons, RegOp.reg]
    decide
  · exact sunxiCodecDacRouteEnable_reg h
  · revert h op
    simp only [forall_mem_cons, RegOp.reg]
    decide
  · split_ifs at h
    · rw [mem_singleton.mp h]
      decide
    · exact absurd h not_mem_nil
  · split_ifs at h
    · rw [mem_singleton.mp h]
      decide
    · exact absurd h not_mem_nil
  · revert h op
    simp only [forall_mem_cons, RegOp.reg]
    decide

lemma sunxiCodecI2sInit_reg {op : RegOp} (h : op ∈ sunxiCodecI2sInit) : op.reg ∈ i2sRegLabels := by
  revert h op
  simp only [sunxiCodecI2sInit, forall_mem_cons, RegOp.reg]
  decide

end Codec
