import H713.Machine.Run
import H713.Machine.Word
import Mathlib.Data.List.Pairwise

/-!
# Thermal protection of the board manager

`hy310_ntc_work_fn` finds the temperature for the voltage of a thermistor in a table and powers the
board off after fifty hot polls in a row. A reading below every entry, hotter than all of them, is
given `0` degrees.
-/

namespace BoardMgr

open Machine List Option

/-! ### The driver -/

def ntcWarnCycles : ℕ := 30

def ntcPoweroffCycles : ℕ := 50

def hy310MaxTableEntries : ℕ := 64

/-- An entry of the table, as two words. -/
structure NtcEntry where
  temp : ℕ
  adc : ℕ
  deriving DecidableEq

/-- What the device tree says: `ntc` is the subnode, with `ntc_num` and, if there is an `ntc0`, its
`enable`. -/
structure DeviceTree where
  gpadcTable : Option (List ℕ)
  lradcTable : Option (List ℕ)
  tempPoweroff : Option ℕ
  tempWarn : Option ℕ
  ntc : Option (ℕ × Option ℕ)

/-- The part of `struct hy310_board_mgr` that only the probe writes. -/
structure Config where
  ntcTable : List NtcEntry
  tempPoweroffC : ℤ
  tempWarnC : ℤ
  enabled : Bool
  ntcIioChan : Bool

/-- A fan. Its PWM device is left out. -/
structure Fan where
  valid : Bool
  dutyArray : List ℕ
  dutyPct : ℕ
  deriving DecidableEq

/-- The driver, the fate of `ntc_work` and whether `kernel_power_off` has been called. -/
structure Board where
  fans : List Fan
  currentMode : ℕ
  tempC : ℤ
  warnCycles : ℕ
  poweroffCycles : ℕ
  scheduled : Bool
  off : Bool
  deriving DecidableEq

def pairs : List ℕ → List NtcEntry
  | t :: a :: ws => ⟨t, a⟩ :: pairs ws
  | _            => []

def hy310ParseNtcTable (d : DeviceTree) : List NtcEntry :=
  let accept (ws : List ℕ) : Bool :=
    ws.length / 2 ≠ 0 ∧ ws.length / 2 ≤ hy310MaxTableEntries
  match (d.gpadcTable.filter accept).or (d.lradcTable.filter accept) with
  | some ws => pairs ws
  | none    => []

def ntcEnabled : Option (ℕ × Option ℕ) → Bool
  | none                  => false
  | some (num, some ntc0) => ntc0 = 1 ∨ 0 < num
  | some (num, none)      => 0 < num

def hy310BoardMgrProbe (d : DeviceTree) (chan : Bool) : Config where
  ntcTable := hy310ParseNtcTable d
  tempPoweroffC := i32 (d.tempPoweroff.getD 60)
  tempWarnC := i32 (d.tempWarn.getD 55)
  enabled := ntcEnabled d.ntc
  ntcIioChan := chan

def hy310SetFanDuty (f : Fan) (dutyPct : ℕ) : Fan := { f with dutyPct := min dutyPct 100 }

def hy310SetAllFansFull (fans : List Fan) : List Fan :=
  fans.map fun f => if f.valid then hy310SetFanDuty f 100 else f

def hy310UpdateAllFanDuties (mode : ℕ) (fans : List Fan) : List Fan :=
  fans.map fun f =>
    if f.valid then hy310SetFanDuty f (f.dutyArray.getD mode (f.dutyArray.getLastD 0)) else f

def hy310CdevGetMaxState (fans : List Fan) : ℕ :=
  fans.foldl (fun m f => if f.valid ∧ m < f.dutyArray.length then f.dutyArray.length else m) 0 - 1

variable (c : Config)

def hy310LradcRead (ret val : ℤ) : ℤ :=
  if !c.ntcIioChan then -19 else if ret < 0 then ret else val

def ntcScan (adcVal : ℕ) : List NtcEntry → ℤ
  | []      => 0
  | e :: es => if e.adc ≤ adcVal then i32 e.temp else ntcScan adcVal es

def hy310NtcAdcToTemp (table : List NtcEntry) (adcVal : ℤ) : ℤ :=
  if table.length = 0 then 0 else ntcScan (ofInt32 adcVal) table

def warn (tempC : ℤ) (b : Board) : Board :=
  if c.tempWarnC < tempC then
    let b := { b with warnCycles := u32 (b.warnCycles + 1) }
    if ntcWarnCycles ≤ b.warnCycles then { b with fans := hy310SetAllFansFull b.fans } else b
  else { b with warnCycles := 0 }

def poweroff (tempC : ℤ) (b : Board) : Board :=
  if c.tempPoweroffC < tempC then
    let b := { b with poweroffCycles := u32 (b.poweroffCycles + 1) }
    if ntcPoweroffCycles ≤ b.poweroffCycles then { b with off := true, scheduled := false } else b
  else { b with poweroffCycles := 0 }

def hy310NtcWorkFn (ret val : ℤ) (b : Board) : Board :=
  if !c.enabled then b
  else
    let adcVal := hy310LradcRead c ret val
    if adcVal < 0 then b
    else
      let tempC := hy310NtcAdcToTemp c.ntcTable adcVal
      poweroff c tempC (warn c tempC { b with tempC := tempC })

/-- The delayed work runs, with what the sensor answers, or the board is suspended or resumed, or
its cooling device is set. -/
inductive Event where
  | poll (ret val : ℤ)
  | suspend
  | resume
  | cool (state : ℕ)
  deriving DecidableEq

def Board.step (b : Board) : Event → Option Board
  | .poll ret val =>
    if b.scheduled ∧ ¬ b.off then some (hy310NtcWorkFn c ret val b) else none
  | .suspend => if b.off then none else some { b with scheduled := false }
  | .resume =>
    if b.off then none
    else some { b with
      fans := hy310UpdateAllFanDuties b.currentMode b.fans
      scheduled := b.scheduled || (c.enabled && c.ntcIioChan) }
  | .cool state =>
    let mode := min state (hy310CdevGetMaxState b.fans)
    if b.off then none
    else some { b with currentMode := mode, fans := hy310UpdateAllFanDuties mode b.fans }

def Board.start (fans : List Fan) : Board where
  fans := hy310UpdateAllFanDuties 0 fans
  currentMode := 0
  tempC := 0
  warnCycles := 0
  poweroffCycles := 0
  scheduled := c.enabled && c.ntcIioChan
  off := false

/-! ### The table -/

def Descends (table : List NtcEntry) : Prop :=
  table.Pairwise fun e e' => e'.adc < e.adc ∧ i32 e.temp ≤ i32 e'.temp

def Matched (table : List NtcEntry) (n : ℕ) : Prop := ∃ e ∈ table, e.adc ≤ n

section

variable {table : List NtcEntry} {n m : ℕ}

lemma ntcScan_of_not_matched (h : ¬ Matched table n) : ntcScan n table = 0 := by
  induction table with
  | nil => rfl
  | cons e es ih =>
    have he : ¬ e.adc ≤ n := fun hle => h ⟨e, mem_cons_self, hle⟩
    rw [ntcScan, if_neg he]
    exact ih fun ⟨e', he', hle⟩ => h ⟨e', mem_cons_of_mem e he', hle⟩

lemma ntcScan_of_matched (h : Matched table n) :
    ∃ e ∈ table, e.adc ≤ n ∧ ntcScan n table = i32 e.temp := by
  induction table with
  | nil => exact absurd h (by simp [Matched])
  | cons e es ih =>
    by_cases he : e.adc ≤ n
    · exact ⟨e, mem_cons_self, he, if_pos he⟩
    · obtain ⟨e', he', hle⟩ := h
      have hes : e' ∈ es := (mem_cons.mp he').resolve_left (by rintro rfl; exact he hle)
      obtain ⟨e₁, he₁, hle₁, hs⟩ := ih ⟨e', hes, hle⟩
      exact ⟨e₁, mem_cons_of_mem e he₁, hle₁, by rw [ntcScan, if_neg he, hs]⟩

lemma Descends.cons_le {e : NtcEntry} {es : List NtcEntry} (h : Descends (e :: es))
    (hm : Matched es n) : i32 e.temp ≤ ntcScan n es := by
  obtain ⟨e', he', -, hs⟩ := ntcScan_of_matched hm
  rw [hs]
  exact ((pairwise_cons.mp h).1 e' he').2

lemma Descends.ntcScan_antitone (h : Descends table) (hn : Matched table n) (hnm : n ≤ m) :
    ntcScan m table ≤ ntcScan n table := by
  induction table with
  | nil => exact absurd hn (by simp [Matched])
  | cons e es ih =>
    by_cases he : e.adc ≤ n
    · refine Int.le_of_eq ?_
      rw [ntcScan, ntcScan, if_pos he, if_pos (Nat.le_trans he hnm)]
    · obtain ⟨e', he', hle⟩ := hn
      have hes : e' ∈ es := (mem_cons.mp he').resolve_left (by rintro rfl; exact he hle)
      rw [ntcScan.eq_2 n, if_neg he, ntcScan]
      split_ifs
      · exact h.cons_le ⟨e', hes, hle⟩
      · exact ih (pairwise_cons.mp h).2 ⟨e', hes, hle⟩

lemma Descends.ntcScan_adc (h : Descends table) {e : NtcEntry} (he : e ∈ table) :
    ntcScan e.adc table = i32 e.temp := by
  induction table with
  | nil => exact absurd he (not_mem_nil)
  | cons e₀ es ih =>
    rw [ntcScan]
    rcases mem_cons.mp he with rfl | hes
    · exact if_pos le_rfl
    · have hlt := ((pairwise_cons.mp h).1 e hes).1
      rw [if_neg (by omega)]
      exact ih (pairwise_cons.mp h).2 hes

end

def IsReading (a : ℤ) : Prop := 0 ≤ a ∧ a < 2147483648

lemma IsReading.ofInt32 {a : ℤ} (h : IsReading a) : ofInt32 a = a.toNat := by
  obtain ⟨h₀, h₁⟩ := h
  simp only [Machine.ofInt32]
  omega

lemma hy310NtcAdcToTemp_eq (table : List NtcEntry) {a : ℤ} (h : IsReading a) :
    hy310NtcAdcToTemp table a = ntcScan a.toNat table := by
  rw [hy310NtcAdcToTemp, h.ofInt32]
  split_ifs with hl
  · rw [length_eq_zero_iff.mp hl]
    rfl
  · rfl

/-! ### The polls -/

def Event.reading : Event → Option ℤ
  | .poll ret val => if ret < 0 ∨ val < 0 then none else some val
  | _             => none

def Config.Hot (a : ℤ) : Prop :=
  ∃ e ∈ c.ntcTable, c.tempPoweroffC < i32 e.temp ∧ a ≤ e.adc

def Config.Protects : Prop :=
  (∀ a b, IsReading a → IsReading b → a ≤ b →
    hy310NtcAdcToTemp c.ntcTable b ≤ hy310NtcAdcToTemp c.ntcTable a) ∧
  ∀ fans as bs t, run (Board.step c) (Board.start c fans) (as ++ bs) = some t →
    (bs.filterMap Event.reading).length = ntcPoweroffCycles →
    (∀ a ∈ bs.filterMap Event.reading, IsReading a ∧ c.Hot a) → t.off = true

section

variable {c : Config} {b b' : Board} {e : Event} {tempC : ℤ}

@[simp] lemma warn_scheduled : (warn c tempC b).scheduled = b.scheduled := by
  simp only [warn]
  split_ifs <;> rfl

@[simp] lemma warn_off : (warn c tempC b).off = b.off := by
  simp only [warn]
  split_ifs <;> rfl

@[simp] lemma warn_poweroffCycles : (warn c tempC b).poweroffCycles = b.poweroffCycles := by
  simp only [warn]
  split_ifs <;> rfl

lemma step_of_off (h : b.off = true) : Board.step c b e = none := by
  cases e <;> simp [Board.step, h]

/-- The work is only scheduled for an enabled sensor, and the counter stays below its limit. -/
structure Board.Inv (c : Config) (b : Board) : Prop where
  sensor : b.scheduled = true → c.enabled = true ∧ c.ntcIioChan = true
  below : b.off = false → b.poweroffCycles < ntcPoweroffCycles

lemma Board.Inv.start (c : Config) (fans : List Fan) : (Board.start c fans).Inv c :=
  ⟨fun h => by simpa [Board.start] using h, fun _ => by simp [Board.start, ntcPoweroffCycles]⟩

lemma Board.step_cases (hI : b.Inv c) (h : Board.step c b e = some b') :
    b.off = false ∧
    ((∃ a, e.reading = some a ∧ b.scheduled = true ∧
        let tempC := hy310NtcAdcToTemp c.ntcTable a
        b' = poweroff c tempC (warn c tempC { b with tempC := tempC })) ∨
      (e.reading = none ∧ b'.poweroffCycles = b.poweroffCycles ∧ b'.off = b.off ∧
        (b'.scheduled = true → c.enabled = true ∧ c.ntcIioChan = true))) := by
  cases e with
  | poll ret val =>
    simp only [Board.step, ite_none_right_eq_some, Option.some.injEq] at h
    obtain ⟨⟨hs, hoff⟩, rfl⟩ := h
    obtain ⟨hen, hchan⟩ := hI.sensor hs
    refine ⟨by simpa using hoff, ?_⟩
    simp only [hy310NtcWorkFn, hy310LradcRead, hen, hchan, Bool.not_true, Bool.false_eq_true,
      if_false, Event.reading]
    by_cases hr : ret < 0 ∨ val < 0
    · have hneg : (if ret < 0 then ret else val) < 0 := by
        split_ifs with h₁
        · exact h₁
        · exact hr.resolve_left h₁
      rw [if_pos hr, if_pos hneg]
      exact .inr ⟨rfl, rfl, rfl, fun _ => ⟨trivial, trivial⟩⟩
    · have hval : (if ret < 0 then ret else val) = val := if_neg fun h₁ => hr (.inl h₁)
      rw [if_neg hr, hval, if_neg fun h₁ => hr (.inr h₁)]
      exact .inl ⟨val, rfl, hs, rfl⟩
  | suspend =>
    simp only [Board.step, ite_none_left_eq_some, Option.some.injEq] at h
    obtain ⟨hoff, rfl⟩ := h
    exact ⟨by simpa using hoff, .inr ⟨rfl, rfl, rfl, fun h => by simp at h⟩⟩
  | resume =>
    simp only [Board.step, ite_none_left_eq_some, Option.some.injEq] at h
    obtain ⟨hoff, rfl⟩ := h
    refine ⟨by simpa using hoff, .inr ⟨rfl, rfl, rfl, fun h => ?_⟩⟩
    rcases (Bool.or_eq_true _ _).mp h with hs | hs
    · exact hI.sensor hs
    · exact (Bool.and_eq_true _ _).mp hs
  | cool state =>
    simp only [Board.step, ite_none_left_eq_some, Option.some.injEq] at h
    obtain ⟨hoff, rfl⟩ := h
    exact ⟨by simpa using hoff, .inr ⟨rfl, rfl, rfl, hI.sensor⟩⟩

lemma poweroff_of_gt (h : c.tempPoweroffC < tempC) (hb : b.poweroffCycles < ntcPoweroffCycles) :
    poweroff c tempC b =
      if b.poweroffCycles + 1 = ntcPoweroffCycles then
        { b with poweroffCycles := b.poweroffCycles + 1, off := true, scheduled := false }
      else { b with poweroffCycles := b.poweroffCycles + 1 } := by
  have hu : u32 (b.poweroffCycles + 1) = b.poweroffCycles + 1 :=
    u32_of_lt (by simp only [ntcPoweroffCycles] at hb; omega)
  simp only [poweroff, if_pos h, hu]
  exact if_congr (by omega) rfl rfl

lemma poweroff_of_le (h : tempC ≤ c.tempPoweroffC) :
    poweroff c tempC b = { b with poweroffCycles := 0 } := by
  simp only [poweroff]
  exact if_neg (by omega)

lemma Board.Inv.poweroff (hI : b.Inv c) (hoff : b.off = false) :
    (poweroff c tempC b).Inv c := by
  have hb := hI.below hoff
  by_cases h : c.tempPoweroffC < tempC
  · rw [poweroff_of_gt h hb]
    split_ifs with h₁
    · exact ⟨fun h => by simp at h, fun h => by simp at h⟩
    · exact ⟨hI.sensor, fun _ => by simp only; omega⟩
  · rw [poweroff_of_le (by omega)]
    exact ⟨hI.sensor, fun _ => by simp [ntcPoweroffCycles]⟩

lemma Board.Inv.warn (hI : b.Inv c) : (warn c tempC { b with tempC := tempC }).Inv c :=
  ⟨fun h => hI.sensor (by simpa using h), fun h => by simpa using hI.below (by simpa using h)⟩

lemma Board.Inv.step (hI : b.Inv c) (h : Board.step c b e = some b') : b'.Inv c := by
  obtain ⟨hoff, ⟨a, -, -, rfl⟩ | ⟨-, hcyc, hoff', hs⟩⟩ := Board.step_cases hI h
  · exact hI.warn.poweroff (by simpa using hoff)
  · exact ⟨hs, fun _ => hcyc ▸ hI.below hoff⟩

def Config.TooHot (c : Config) (a : ℤ) : Prop :=
  c.enabled = true → c.ntcIioChan = true → c.tempPoweroffC < hy310NtcAdcToTemp c.ntcTable a

lemma Board.step_hot (hI : b.Inv c) (h : Board.step c b e = some b')
    (hot : ∀ a, e.reading = some a → c.TooHot a) :
    b'.off = true ∨ b'.poweroffCycles = b.poweroffCycles + e.reading.toList.length := by
  obtain ⟨hoff, ⟨a, ha, hs, rfl⟩ | ⟨hr, hcyc, -, -⟩⟩ := Board.step_cases hI h
  · obtain ⟨hen, hchan⟩ := hI.sensor hs
    rw [poweroff_of_gt (hot a ha hen hchan) (hI.warn.below (by simpa using hoff)), ha]
    split_ifs
    · exact .inl rfl
    · exact .inr (by simp)
  · exact .inr (by simp [hr, hcyc])

lemma run_hot {es : List Event} {t : Board} (hI : b.Inv c) (h : run (Board.step c) b es = some t)
    (hot : ∀ a ∈ es.filterMap Event.reading, c.TooHot a) :
    t.off = true ∨ t.poweroffCycles = b.poweroffCycles + (es.filterMap Event.reading).length := by
  induction es generalizing b with
  | nil =>
    cases h
    exact .inr rfl
  | cons e es ih =>
    obtain ⟨b', hb, hr⟩ := run_cons_eq_some.mp h
    have hhead : ∀ a, e.reading = some a → c.TooHot a := fun a ha => hot a (by simp [ha])
    have htail : ∀ a ∈ es.filterMap Event.reading, c.TooHot a := fun a ha => hot a (by
      rw [filterMap_cons]
      split <;> simp [ha])
    rcases Board.step_hot hI hb hhead with hoff | hcyc
    · -- the board is off: nothing can follow
      cases es with
      | nil =>
        cases hr
        exact .inl hoff
      | cons e' es =>
        rw [run_cons, step_of_off hoff] at hr
        cases hr
    · refine (ih (hI.step hb) hr htail).imp id fun ht => ?_
      rw [ht, hcyc, filterMap_cons]
      cases e.reading with
      | none => simp
      | some a =>
        simp only [toList_some, length_cons, length_nil]
        omega

lemma Board.step_cold {a : ℤ} (hI : b.Inv c) (hs : b.scheduled = true) (hoff : b.off = false)
    (ha : 0 ≤ a) (hcold : hy310NtcAdcToTemp c.ntcTable a ≤ c.tempPoweroffC) :
    ∃ b', Board.step c b (.poll 0 a) = some b' ∧ b'.scheduled = true ∧ b'.off = false := by
  obtain ⟨hen, hchan⟩ := hI.sensor hs
  have hstep : Board.step c b (.poll 0 a) = some (hy310NtcWorkFn c 0 a b) :=
    if_pos ⟨hs, by simp [hoff]⟩
  refine ⟨_, hstep, ?_⟩
  have hna : ¬ a < 0 := by omega
  simp [hy310NtcWorkFn, hy310LradcRead, hen, hchan, hna, poweroff_of_le hcold, hs, hoff]

lemma run_cold {a : ℤ} (ha : 0 ≤ a) (hcold : hy310NtcAdcToTemp c.ntcTable a ≤ c.tempPoweroffC)
    (n : ℕ) (hI : b.Inv c) (hs : b.scheduled = true) (hoff : b.off = false) :
    ∃ t, run (Board.step c) b (List.replicate n (.poll 0 a)) = some t ∧ t.off = false := by
  induction n generalizing b with
  | zero => exact ⟨b, rfl, hoff⟩
  | succ n ih =>
    obtain ⟨b', hb, hs', hoff'⟩ := Board.step_cold hI hs hoff ha hcold
    obtain ⟨t, ht, htoff⟩ := ih (hI.step hb) hs' hoff'
    exact ⟨t, run_cons_eq_some.mpr ⟨b', hb, ht⟩, htoff⟩

end

/-! ### When the board is protected -/

def Config.Covers : Prop := ∃ e ∈ c.ntcTable, e.adc = 0

def Config.ZeroIsHot : Prop :=
  (∀ e ∈ c.ntcTable, e.adc < 2147483648 → i32 e.temp ≤ 0) ∧
  (c.enabled = true → c.ntcIioChan = true → c.tempPoweroffC < 0 ∨
    ∀ e ∈ c.ntcTable, i32 e.temp ≤ c.tempPoweroffC)

section

variable {c : Config} {a b : ℤ}

lemma Config.Covers.matched (h : c.Covers) (n : ℕ) : Matched c.ntcTable n := by
  obtain ⟨e, he, hz⟩ := h
  exact ⟨e, he, hz ▸ Nat.zero_le n⟩

lemma Descends.tooHot (ht : Descends c.ntcTable) (hc : c.Covers ∨ c.ZeroIsHot) (ha : IsReading a)
    (hot : c.Hot a) : c.TooHot a := by
  intro hen hchan
  obtain ⟨e, he, hgt, hle⟩ := hot
  rw [hy310NtcAdcToTemp_eq _ ha]
  by_cases hm : Matched c.ntcTable a.toNat
  · have hanti := ht.ntcScan_antitone hm (m := e.adc) (by omega)
    rw [ht.ntcScan_adc he] at hanti
    omega
  · rw [ntcScan_of_not_matched hm]
    rcases (hc.resolve_left fun h => hm (h.matched _)).2 hen hchan with hneg | hcold
    · exact hneg
    · exact absurd (hcold e he) (by omega)

lemma Descends.antitone (ht : Descends c.ntcTable) (hc : c.Covers ∨ c.ZeroIsHot)
    (ha : IsReading a) (hb : IsReading b) (hab : a ≤ b) :
    hy310NtcAdcToTemp c.ntcTable b ≤ hy310NtcAdcToTemp c.ntcTable a := by
  rw [hy310NtcAdcToTemp_eq _ ha, hy310NtcAdcToTemp_eq _ hb]
  have hle : a.toNat ≤ b.toNat := by omega
  by_cases hm : Matched c.ntcTable a.toNat
  · exact ht.ntcScan_antitone hm hle
  · -- the lower reading gets `0`
    rw [ntcScan_of_not_matched hm]
    by_cases hm' : Matched c.ntcTable b.toNat
    · obtain ⟨e, he, hadc, hs⟩ := ntcScan_of_matched hm'
      have hz := (hc.resolve_left fun h => hm (h.matched _)).1 e he
      rw [hs]
      exact hz (by have := hb.2; omega)
    · exact Int.le_of_eq (ntcScan_of_not_matched hm')

lemma isReading_zero : IsReading 0 := by simp [IsReading]

lemma temp_zero (hc : ¬ c.Covers) : hy310NtcAdcToTemp c.ntcTable 0 = 0 := by
  rw [hy310NtcAdcToTemp_eq _ isReading_zero]
  refine ntcScan_of_not_matched ?_
  rintro ⟨e, he, hle⟩
  exact hc ⟨e, he, Nat.le_zero.mp hle⟩

lemma not_protects (hc : ¬ c.Covers) (hen : c.enabled = true) (hchan : c.ntcIioChan = true)
    (hpos : 0 ≤ c.tempPoweroffC) {e : NtcEntry} (he : e ∈ c.ntcTable)
    (hot : c.tempPoweroffC < i32 e.temp) : ¬ c.Protects := by
  intro h
  have hs : (Board.start c []).scheduled = true := by simp [Board.start, hen, hchan]
  obtain ⟨t, ht, hoff⟩ := run_cold (b := Board.start c []) (Int.le_refl 0)
    (by rw [temp_zero hc]; exact hpos) ntcPoweroffCycles (.start c []) hs rfl
  have hread : (List.replicate ntcPoweroffCycles (Event.poll 0 0)).filterMap Event.reading =
      List.replicate ntcPoweroffCycles 0 := by
    have hzero : Event.reading (.poll 0 0) = some 0 := rfl
    exact filterMap_replicate_of_some hzero
  have hon := h.2 [] [] (List.replicate ntcPoweroffCycles (.poll 0 0)) t ht
      (by rw [hread, length_replicate]) fun a ha => by
    obtain rfl : a = 0 := (mem_replicate.mp (hread ▸ ha)).2
    exact ⟨isReading_zero, e, he, hot, by omega⟩
  rw [hoff] at hon
  cases hon

end

/-- A descending table protects the board exactly when it has an entry at reading `0`, or when `0`
degrees are as hot as it should be. -/
theorem protects_iff (c : Config) (ht : Descends c.ntcTable) :
    c.Protects ↔ c.Covers ∨ c.ZeroIsHot := by
  constructor
  · intro h
    by_cases hc : c.Covers
    · exact .inl hc
    refine .inr ⟨fun e he hlt => ?_, fun hen hchan => ?_⟩
    · have hread : IsReading e.adc := ⟨by omega, by omega⟩
      have hanti := h.1 0 e.adc isReading_zero hread hread.1
      rw [temp_zero hc, hy310NtcAdcToTemp_eq _ hread, Int.toNat_natCast, ht.ntcScan_adc he] at hanti
      exact hanti
    · by_contra hno
      rw [not_or] at hno
      obtain ⟨hpos, hhot⟩ := hno
      simp only [not_forall] at hhot
      obtain ⟨e, he, hgt⟩ := hhot
      exact not_protects hc hen hchan (by omega) he (by omega) h
  · intro hc
    refine ⟨fun a b ha hb hab => ht.antitone hc ha hb hab, fun fans as bs t hr hlen hhot => ?_⟩
    rw [run_append, bind_eq_some_iff] at hr
    obtain ⟨s, hs, hr⟩ := hr
    have hI : s.Inv c := run_invariant (fun _ _ _ hI h => hI.step h) (.start c fans) hs
    have htI : t.Inv c := run_invariant (fun _ _ _ hI h => hI.step h) hI hr
    rcases run_hot hI hr fun a ha => ht.tooHot hc (hhot a ha).1 (hhot a ha).2 with hoff | hcyc
    · exact hoff
    · by_contra hon
      have hbelow := htI.below (by simpa using hon)
      omega

/-- A table down to reading `0` protects the board. -/
theorem protects_two_entries :
    Descends [⟨25, 2000⟩, ⟨80, 0⟩] ∧
      Config.Protects ⟨[⟨25, 2000⟩, ⟨80, 0⟩], 60, 55, true, true⟩ := by
  have ht : Descends [⟨25, 2000⟩, ⟨80, 0⟩] := by simp [Descends, i32, u32]
  exact ⟨ht, (protects_iff ⟨[⟨25, 2000⟩, ⟨80, 0⟩], 60, 55, true, true⟩ ht).mpr
    (.inl ⟨⟨80, 0⟩, by simp, rfl⟩)⟩

def hy310Dts : DeviceTree where
  gpadcTable := some
    [0x0, 0x5E6, 0x5, 0x5B4, 0x14, 0x4F8, 0x15, 0x4EA, 0x16, 0x4DC, 0x17, 0x4CD, 0x18, 0x4BF,
     0x19, 0x4B0, 0x1A, 0x4A1, 0x1B, 0x492, 0x1C, 0x483, 0x1D, 0x474, 0x1E, 0x464, 0x1F, 0x455,
     0x20, 0x446, 0x21, 0x437, 0x22, 0x427, 0x23, 0x418, 0x24, 0x408, 0x25, 0x3F9, 0x26, 0x3E9,
     0x27, 0x3D9, 0x28, 0x3CA, 0x29, 0x3BA, 0x2A, 0x3AB, 0x2B, 0x39B, 0x2C, 0x38C, 0x2D, 0x37D,
     0x2E, 0x36D, 0x2F, 0x35E, 0x30, 0x34F, 0x31, 0x340, 0x32, 0x331, 0x33, 0x323, 0x34, 0x314,
     0x35, 0x306, 0x36, 0x2F8, 0x37, 0x2E9, 0x38, 0x2DB, 0x39, 0x2CD, 0x3A, 0x2BF, 0x3B, 0x2B2,
     0x3C, 0x2A4, 0x3D, 0x297, 0x3E, 0x28A, 0x3F, 0x27D, 0x40, 0x270, 0x41, 0x263, 0x42, 0x257,
     0x43, 0x24A, 0x44, 0x23E, 0x45, 0x232, 0x46, 0x227, 0x47, 0x21B, 0x48, 0x210, 0x49, 0x204,
     0x4A, 0x1F9, 0x4B, 0x1EE, 0x4C, 0x1E3, 0x4D, 0x1D9, 0x4E, 0x1CF, 0x4F, 0x1C5, 0x50, 0x1BB]
  lradcTable := none
  tempPoweroff := some 60
  tempWarn := some 55
  ntc := some (0, some 1)

instance (table : List NtcEntry) : Decidable (Descends table) :=
  inferInstanceAs (Decidable (List.Pairwise _ table))

/-- The shipped table ends at 80 degrees and reading 443; a sensor that reads `0` is taken for a
cold one. -/
theorem hy310_not_protected :
    Descends (hy310BoardMgrProbe hy310Dts true).ntcTable ∧
      ¬ (hy310BoardMgrProbe hy310Dts true).Protects := by
  refine ⟨by decide +kernel, ?_⟩
  have hc : ¬ (hy310BoardMgrProbe hy310Dts true).Covers := by
    rintro ⟨e, he, hz⟩
    revert e
    decide +kernel
  exact not_protects hc rfl rfl (by decide +kernel) (e := ⟨0x50, 0x1BB⟩) (by decide +kernel)
    (by decide +kernel)

end BoardMgr
