import H713.CpuComm.Rpc.Message

/-!
# Calls from user space

`CpuComm::call_by_id` packs a call into the 168 bytes of `CallMsg`, and `IOCTL_CALL` hands the words
from 16 and from 30 on to `CPUComm_CallEx` as its two arrays. Either array of `CallMsg` has room for
ten words where a count and ten values need eleven.
-/

namespace Userspace

open Machine CpuComm Function

/-- `CPUComm_CallEx`: from the component, the parameters and the result buffer to the result buffer
it leaves, unless it fails. -/
abbrev CallEx := ℕ → (ℕ → ℕ) → (ℕ → ℕ) → Option (ℕ → ℕ)

/-! ### The driver -/

def callParams (buf : ℕ → ℕ) : ℕ → ℕ := fun i => buf (16 + i)

def callResult (buf : ℕ → ℕ) : ℕ → ℕ := fun i => buf (30 + i)

def ioctlCall (callEx : CallEx) (buf : ℕ → ℕ) : Option (ℕ → ℕ) :=
  (callEx (buf 10) (callParams buf) (callResult buf)).map fun result k =>
    if k < 30 then buf k else result (k - 30)

/-! ### The daemon -/

def callMsg (compId targetCpu cookie : ℕ) (paramsIn : ℕ → ℕ) : ℕ → ℕ :=
  let header : ℕ → ℕ := fun k =>
    if k = 0 then 65536 * targetCpu else if k = 7 then cookie else if k = 10 then compId else 0
  storeWords 17 (fun i => paramsIn (i + 1)) (min (paramsIn 0) 9)
    (Function.update header 16 (paramsIn 0))

def callById (callEx : CallEx) (compId targetCpu cookie : ℕ) (paramsIn resultOut : ℕ → ℕ) :
    Option (ℕ → ℕ) :=
  if paramsIn 0 > 10 then none
  else if targetCpu > 1 then none
  else (ioctlCall callEx (callMsg compId targetCpu cookie paramsIn)).map fun buf =>
    storeWords 1 (fun i => buf (31 + i)) 9 (Function.update resultOut 0 (buf 30))

/-! ### Counts and values across the boundary -/

variable {compId targetCpu cookie : ℕ} {paramsIn resultOut stored : ℕ → ℕ}

lemma callMsg_compId : callMsg compId targetCpu cookie paramsIn 10 = compId := by
  rw [callMsg, storeWords_apply, if_neg (by omega), update_of_ne (by decide)]
  rfl

lemma callParams_callMsg {i : ℕ} (hi : i ≤ paramsIn 0) :
    callParams (callMsg compId targetCpu cookie paramsIn) i
      = if i ≤ 9 then paramsIn i else 0 := by
  rw [callParams, callMsg, storeWords_apply]
  by_cases h0 : i = 0
  · subst h0
    rw [if_neg (by omega), update_self]
    rfl
  by_cases h9 : i ≤ 9
  · rw [if_pos (by omega), if_pos h9]
    congr 1
    omega
  · rw [if_neg (by omega), if_neg h9, update_of_ne (by omega), if_neg (by omega),
      if_neg (by omega), if_neg (by omega)]

lemma holdsVector_iff_tenth {v array : ℕ → ℕ} (hn : v 0 ≤ 10)
    (hagree : ∀ i ≤ v 0, i ≤ 9 → array i = v i) :
    HoldsVector (v 0) v array ↔ v 0 ≤ 9 ∨ array 10 = v 10 := by
  simp only [HoldsVector, Int.natCast_inj, Int.ofNat_le]
  constructor
  · rintro ⟨-, hvalues⟩
    by_cases h9 : v 0 ≤ 9
    · exact .inl h9
    · exact .inr (hvalues 10 (by decide) (by omega))
  · intro h
    refine ⟨hagree 0 (Nat.zero_le _) (Nat.zero_le 9), fun i hi hin => ?_⟩
    by_cases h9 : i ≤ 9
    · exact hagree i hin h9
    · obtain rfl : i = 10 := by omega
      exact h.resolve_left (by omega)

lemma holdsVector_callParams_iff (hn : paramsIn 0 ≤ 10) :
    HoldsVector (paramsIn 0) paramsIn (callParams (callMsg compId targetCpu cookie paramsIn)) ↔
      paramsIn 0 ≤ 9 ∨ paramsIn 10 = 0 := by
  have hagree (i : ℕ) (hi : i ≤ paramsIn 0) (h9 : i ≤ 9) :
      callParams (callMsg compId targetCpu cookie paramsIn) i = paramsIn i := by
    rw [callParams_callMsg hi, if_pos h9]
  rw [holdsVector_iff_tenth hn hagree]
  refine or_congr_right' fun h9 => ?_
  rw [callParams_callMsg (by omega), if_neg (by decide)]
  exact eq_comm

lemma callById_eq {callEx : CallEx} (hn : paramsIn 0 ≤ 10) (hcpu : targetCpu ≤ 1)
    (hcall : callEx compId (callParams (callMsg compId targetCpu cookie paramsIn))
      (callResult (callMsg compId targetCpu cookie paramsIn)) = some stored) :
    callById callEx compId targetCpu cookie paramsIn resultOut
      = some
          (storeWords 1 (fun i => stored (1 + i)) 9 (update resultOut 0 (stored 0))) := by
  have hidx : ∀ i, 31 + i - 30 = 1 + i := fun i => by omega
  have hpast : ∀ i, ¬ 31 + i < 30 := fun i => by omega
  rw [callById, if_neg (by omega), if_neg (by omega), ioctlCall, callMsg_compId, hcall]
  simp [hidx, hpast]

lemma holdsVector_resultOut_iff (hr : stored 0 ≤ 10) :
    HoldsVector (stored 0) stored
        (storeWords 1 (fun i => stored (1 + i)) 9 (update resultOut 0 (stored 0))) ↔
      stored 0 ≤ 9 ∨ resultOut 10 = stored 10 := by
  have hlast : storeWords 1 (fun i => stored (1 + i)) 9 (update resultOut 0 (stored 0)) 10
      = resultOut 10 := by
    rw [storeWords_apply, if_neg (by omega), update_of_ne (by decide)]
  rw [← hlast]
  refine holdsVector_iff_tenth hr fun i _ h9 => ?_
  rw [storeWords_apply]
  by_cases h0 : i = 0
  · rw [h0, if_neg (by omega), update_self]
  · rw [if_pos (by omega)]
    congr 1
    omega

/-- A call with at most ten parameters and results passes them all exactly when the tenth parameter
is zero or not used, and the tenth result is not used or was in the buffer. -/
theorem callById_passes_iff (callEx : CallEx) (compId targetCpu cookie : ℕ)
    (paramsIn resultOut stored : ℕ → ℕ) (hn : paramsIn 0 ≤ 10) (hcpu : targetCpu ≤ 1)
    (hr : stored 0 ≤ 10)
    (hcall : callEx compId (callParams (callMsg compId targetCpu cookie paramsIn))
      (callResult (callMsg compId targetCpu cookie paramsIn)) = some stored) :
    (HoldsVector (paramsIn 0) paramsIn (callParams (callMsg compId targetCpu cookie paramsIn)) ∧
      ∃ out, callById callEx compId targetCpu cookie paramsIn resultOut = some out ∧
        HoldsVector (stored 0) stored out) ↔
      (paramsIn 0 ≤ 9 ∨ paramsIn 10 = 0) ∧ (stored 0 ≤ 9 ∨ resultOut 10 = stored 10) := by
  rw [holdsVector_callParams_iff hn, callById_eq hn hcpu hcall]
  simp only [Option.some.injEq, exists_eq_left', holdsVector_resultOut_iff hr]

def echoCallEx : CallEx := fun _ params _ => some params

/-- Nine parameters come back as nine results. -/
theorem callById_passes_nine :
    ∃ out, callById echoCallEx 7 1 1 (fun i => 9 + i) (fun _ => 0) = some out ∧
      HoldsVector 9 (callParams (callMsg 7 1 1 fun i => 9 + i)) out :=
  ((callById_passes_iff echoCallEx 7 1 1 (fun i => 9 + i) (fun _ => 0) _ (by decide) (by decide)
    (by decide) rfl).mpr ⟨.inl (by decide), .inl (by decide)⟩).2

/-- Of ten parameters the last arrives as zero, and of ten results the last stays behind. -/
theorem callById_drops_tenth :
    ¬ HoldsVector 10 (fun i => 10 + i) (callParams (callMsg 7 1 1 fun i => 10 + i)) ∧
      ∃ out,
        callById (fun _ _ _ => some fun i => 10 + i) 7 1 1 (fun _ => 0) (fun _ => 0) = some out ∧
        ¬ HoldsVector 10 (fun i => 10 + i) out := by
  refine ⟨fun h => absurd (h.2 10 (by decide) (by decide)) (by decide), _, rfl, fun h => ?_⟩
  exact absurd (h.2 10 (by decide) (by decide)) (by decide)

end Userspace
