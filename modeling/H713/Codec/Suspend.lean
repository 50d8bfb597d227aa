import H713.Codec.Registers

/-!
# Suspend and resume of the audio codec

`sunxi_codec_suspend` switches the amplifier off, saves the registers and stops the clocks.
`sunxi_codec_resume` starts the clocks, initialises the codec, which clears `spk_active`, writes the
registers back and switches the amplifier to what `spk_active` says.
-/

namespace Codec

open Machine

/-- The clocks that suspend stops. -/
inductive Clk where
  | codecBus
  | pllAudio
  | pllTvfe
  | codecDac
  | codecAdc
deriving DecidableEq, Repr

/-- The registers, the saved ones, the fields that change, the level of the amplifier's GPIO and the
enable counts of the clocks. -/
structure State where
  codec : ℕ → UInt32
  i2s : ℕ → UInt32
  codecSaved : List (ℕ × UInt32)
  i2sSaved : List (ℕ × UInt32)
  spkActive : UInt32
  hpActive : UInt32
  gpioSpk : Bool
  clocks : Clk → ℕ

def State.gpioSet (s : State) (level : Bool) : State := { s with gpioSpk := level }

def clkEnable (k : Clk) (c : Clk → ℕ) : Clk → ℕ := Function.update c k (c k + 1)

def clkDisable (k : Clk) (c : Clk → ℕ) : Clk → ℕ := Function.update c k (c k - 1)

/-- What the registers hold after the reset. -/
structure Lost where
  codec : ℕ → UInt32
  i2s : ℕ → UInt32

/-- Which of the calls in `sunxi_codec_resume` fail. -/
structure Fails where
  setRate : Bool
  deassert : Bool
  enable : Clk → Bool

/-! ### The functions -/

def ampSet (d : Data) (level : Bool) (s : State) : State :=
  if d.spkUsed then (s.gpioSet true).gpioSet level else s

def stopClocks (c : Clk → ℕ) : Clk → ℕ :=
  let c := clkDisable .codecDac c
  let c := clkDisable .codecAdc c
  let c := clkDisable .pllAudio c
  let c := clkDisable .pllTvfe c
  clkDisable .codecBus c

def sunxiCodecSuspend (d : Data) (lost : Lost) (s : State) : State :=
  let s := ampSet d (!d.paLevel) s
  let s := { s with codecSaved := save codecRegLabels s.codec, i2sSaved := save i2sRegLabels s.i2s }
  let s := { s with codec := program (sunxiCodecDacRouteEnable false) s.codec }
  let s := { s with clocks := stopClocks s.clocks }
  { s with codec := lost.codec, i2s := lost.i2s }

def startClocks (fails : Fails) (c : Clk → ℕ) : (Clk → ℕ) × ℤ :=
  if fails.setRate then (c, -16)
  else if fails.deassert then (c, -16)
  else if fails.enable .codecBus then (c, -16)
  else
    let c := clkEnable .codecBus c
    if fails.enable .pllAudio then (c, -16)
    else
      let c := clkEnable .pllAudio c
      -- this failure is only reported
      let c := if fails.enable .pllTvfe then c else clkEnable .pllTvfe c
      if fails.enable .codecDac then (c, -16)
      else
        let c := clkEnable .codecDac c
        -- the clock that was not enabled is disabled
        if fails.enable .codecAdc then (clkDisable .codecAdc c, -16)
        else (clkEnable .codecAdc c, 0)

def initialise (d : Data) (s : State) : State :=
  { s with
    codec := program (sunxiCodecInit d) s.codec
    hpActive := 1
    spkActive := 0
    i2s := program sunxiCodecI2sInit s.i2s }

def restoreState (d : Data) (s : State) : State :=
  let s := initialise d s
  let s := { s with codec := store s.codecSaved s.codec, i2s := store s.i2sSaved s.i2s }
  ampSet d (if s.spkActive ≠ 0 then d.paLevel else !d.paLevel) s

def sunxiCodecResume (d : Data) (fails : Fails) (s : State) : State × ℤ :=
  let started := startClocks fails s.clocks
  let s := { s with clocks := started.1 }
  if started.2 ≠ 0 then (s, started.2) else (restoreState d s, 0)

/-! ### A suspend and a resume -/

variable {d : Data} {lost : Lost} {fails : Fails} {s : State} {level : Bool}

@[simp] lemma ampSet_codec : (ampSet d level s).codec = s.codec := by
  rw [ampSet]
  split_ifs <;> rfl

@[simp] lemma ampSet_i2s : (ampSet d level s).i2s = s.i2s := by
  rw [ampSet]
  split_ifs <;> rfl

@[simp] lemma ampSet_spkActive : (ampSet d level s).spkActive = s.spkActive := by
  rw [ampSet]
  split_ifs <;> rfl

lemma ampSet_gpioSpk (hused : d.spkUsed = true) : (ampSet d level s).gpioSpk = level := by
  rw [ampSet, if_pos hused]
  rfl

lemma sunxiCodecResume_of_zero (h : (sunxiCodecResume d fails s).2 = 0) :
    (startClocks fails s.clocks).2 = 0 ∧ (sunxiCodecResume d fails s).1 =
      restoreState d { s with clocks := (startClocks fails s.clocks).1 } := by
  by_cases hstarted : (startClocks fails s.clocks).2 = 0
  · refine ⟨hstarted, ?_⟩
    rw [sunxiCodecResume, if_neg (not_not.mpr hstarted)]
  · rw [sunxiCodecResume, if_pos hstarted] at h
    exact absurd h hstarted

def sleep (d : Data) (lost : Lost) (fails : Fails) (s : State) : State × ℤ :=
  sunxiCodecResume d fails (sunxiCodecSuspend d lost s)

/-- The state after a sleep from which the device has come back. -/
structure Woken (d : Data) (lost : Lost) (s s' : State) : Prop where
  codec : ∀ a, s'.codec a = if a ∈ codecRegLabels then s.codec a else lost.codec a
  i2s : ∀ a, s'.i2s a = if a ∈ i2sRegLabels then s.i2s a else lost.i2s a
  spkActive : s'.spkActive = 0
  gpioSpk : d.spkUsed = true → s'.gpioSpk = !d.paLevel

lemma sunxiCodecSuspend_codecSaved :
    (sunxiCodecSuspend d lost s).codecSaved = save codecRegLabels s.codec :=
  congrArg (save codecRegLabels) ampSet_codec

lemma sunxiCodecSuspend_codec : (sunxiCodecSuspend d lost s).codec = lost.codec := rfl

lemma sunxiCodecSuspend_i2s : (sunxiCodecSuspend d lost s).i2s = lost.i2s := rfl

lemma sunxiCodecSuspend_i2sSaved :
    (sunxiCodecSuspend d lost s).i2sSaved = save i2sRegLabels s.i2s :=
  congrArg (save i2sRegLabels) ampSet_i2s

lemma restoreState_codec :
    (restoreState d s).codec = store s.codecSaved (program (sunxiCodecInit d) s.codec) := by
  rw [restoreState, ampSet_codec, initialise]

lemma restoreState_i2s :
    (restoreState d s).i2s = store s.i2sSaved (program sunxiCodecI2sInit s.i2s) := by
  rw [restoreState, ampSet_i2s, initialise]

lemma restoreState_spkActive : (restoreState d s).spkActive = 0 := ampSet_spkActive

lemma restoreState_gpioSpk (hused : d.spkUsed = true) :
    (restoreState d s).gpioSpk = !d.paLevel :=
  ampSet_gpioSpk hused

lemma sleep_woken (hret : (sleep d lost fails s).2 = 0) :
    Woken d lost s (sleep d lost fails s).1 := by
  obtain ⟨_, hresume⟩ := sunxiCodecResume_of_zero hret
  rw [sleep, hresume]
  refine ⟨fun a => ?_, fun a => ?_, restoreState_spkActive, restoreState_gpioSpk⟩
  · rw [restoreState_codec]
    rw [sunxiCodecSuspend_codecSaved, sunxiCodecSuspend_codec,
      store_save_program fun op => sunxiCodecInit_reg]
  · rw [restoreState_i2s]
    rw [sunxiCodecSuspend_i2sSaved, sunxiCodecSuspend_i2s,
      store_save_program fun op => sunxiCodecI2sInit_reg]

/-- A sleep always restores all saved registers. It restores `spk_active` exactly if the speaker was
not active, and the level of the amplifier exactly if it was switched off. -/
theorem sleep_restores_iff (d : Data) (lost : Lost) (fails : Fails) (s : State)
    (hused : d.spkUsed = true) (hret : (sleep d lost fails s).2 = 0) :
    (∀ a ∈ codecRegLabels, (sleep d lost fails s).1.codec a = s.codec a) ∧
      (∀ a ∈ i2sRegLabels, (sleep d lost fails s).1.i2s a = s.i2s a) ∧
      ((sleep d lost fails s).1.spkActive = s.spkActive ↔ s.spkActive = 0) ∧
      ((sleep d lost fails s).1.gpioSpk = s.gpioSpk ↔ s.gpioSpk = !d.paLevel) := by
  have hw := sleep_woken hret
  refine ⟨fun a ha => ?_, fun a ha => ?_, ?_, ?_⟩
  · rw [hw.codec, if_pos ha]
  · rw [hw.i2s, if_pos ha]
  · rw [hw.spkActive]
    exact eq_comm
  · rw [hw.gpioSpk hused]
    exact eq_comm

def board : Data := ⟨0, 0x1A, 4, 0, 0, true, true⟩

def switched (active : Bool) : State where
  codec := fun a => if a = dacReg ∧ active then 0x2800 else 0
  i2s := fun _ => 0
  codecSaved := []
  i2sSaved := []
  spkActive := if active then 1 else 0
  hpActive := 1
  gpioSpk := active
  clocks := fun _ => 1

def cleared : Lost := ⟨fun _ => 0, fun _ => 0⟩

def noneFails : Fails := ⟨false, false, fun _ => false⟩

/-- The outputs are enabled but the speaker is off. -/
def muted : State := { switched false with codec := (switched true).codec }

theorem sleep_restores_iff_off :
    (sleep board cleared noneFails muted).1.codec dacReg = 0x2800 ∧
      (sleep board cleared noneFails muted).1.spkActive = 0 ∧
      (sleep board cleared noneFails muted).1.gpioSpk = false := by
  obtain ⟨hcodec, -, hspk, hgpio⟩ := sleep_restores_iff board cleared noneFails muted rfl rfl
  exact ⟨hcodec dacReg (by decide), hspk.mpr rfl, hgpio.mpr rfl⟩

/-- The speaker is on before the sleep. Afterwards its outputs are enabled, but the amplifier is off
and the control reads zero. -/
theorem sleep_silences_speaker :
    (switched true).spkActive = 1 ∧ (switched true).gpioSpk = board.paLevel ∧
      (sleep board cleared noneFails (switched true)).2 = 0 ∧
      (sleep board cleared noneFails (switched true)).1.codec dacReg = 0x2800 ∧
      (sleep board cleared noneFails (switched true)).1.spkActive = 0 ∧
      (sleep board cleared noneFails (switched true)).1.gpioSpk = !board.paLevel := by
  have hret : (sleep board cleared noneFails (switched true)).2 = 0 := rfl
  have hw := sleep_woken hret
  refine ⟨rfl, rfl, hret, ?_, hw.spkActive, hw.gpioSpk rfl⟩
  rw [hw.codec, if_pos (by decide)]
  rfl

/-! ### The clocks -/

end Codec
