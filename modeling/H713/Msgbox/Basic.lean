import H713.Machine.Bits

/-!
# The message box

Each CPU has a region of registers, with a sub-block for each of its peers. The driver computes the
sub-block in three ways, two of which agree for neighbouring CPUs only. An endpoint is created in
the region of its own CPU and destroyed in that of the other.
-/

namespace Msgbox

open Machine

/-! ### Endpoints -/

/-- Where the registers of an endpoint are. `local` is the CPU of the device; `sunxi_msgbox_probe`
skips a channel with a port above three. -/
structure Endpoint where
  remote : ℕ
  rxPort : ℕ
  txPort : ℕ
  rxPort_le : rxPort ≤ 3
  txPort_le : txPort ≤ 3

/-- `amp_cur`, the regions that are mapped, and the endpoints in the order of the lists. -/
structure Device where
  ampCur : ℕ
  numBases : ℕ
  base : ℕ → Bool
  count : ℕ
  ept : ℕ → Endpoint
  remote_ne : ∀ e, (ept e).remote ≠ ampCur

variable (dev : Device)

def Device.sxBase (i : ℕ) : Bool := decide (i < dev.numBases) && dev.base i

def oneEndpoint (r : ℕ) (hr : r ≠ 0) : Device where
  ampCur := 0
  numBases := 3
  base := fun _ => true
  count := 1
  ept := fun _ => ⟨r, 0, 0, Nat.zero_le _, Nat.zero_le _⟩
  remote_ne := fun _ => hr

def adj (l r : ℕ) : ℕ := if l < r then r - 1 else r

def rxIrqBit (p : ℕ) : UInt32 := 1 <<< UInt32.ofNat (2 * p)

def txIrqBit (p : ℕ) : UInt32 := 1 <<< UInt32.ofNat (2 * p + 1)

/-- A sub-block: the region of a CPU and the number of the sub-block in it. -/
abbrev Block : Type := ℕ × ℕ

variable (e : ℕ)

def Device.txBlock : Block :=
  ((dev.ept e).remote, adj dev.ampCur (dev.ept e).remote)

def Device.clearBlock : Block :=
  ((dev.ept e).remote,
    if (dev.ept e).remote < dev.ampCur then dev.ampCur - 1 else dev.ampCur)

def Device.rxBlock : Block :=
  (dev.ampCur, adj dev.ampCur (dev.ept e).remote)

def Device.txBit : UInt32 := txIrqBit (dev.ept e).txPort

def Device.rxBit : UInt32 := rxIrqBit (dev.ept e).rxPort

section

variable {dev : Device} {e e' : ℕ}

lemma clearBlock_eq_txBlock_iff : dev.clearBlock e = dev.txBlock e ↔
    (dev.ept e).remote = dev.ampCur + 1 ∨ dev.ampCur = (dev.ept e).remote + 1 := by
  have hne := dev.remote_ne e
  simp only [Device.clearBlock, Device.txBlock, adj, Prod.mk.injEq, true_and]
  split_ifs <;> omega

lemma rxBit_ne_zero (dev : Device) (e : ℕ) : dev.rxBit e ≠ 0 := by
  have hport : ∀ p, p ≤ 3 → rxIrqBit p ≠ 0 := by decide
  exact hport _ (dev.ept e).rxPort_le

lemma txBit_and_of_ne (h : (dev.ept e).txPort ≠ (dev.ept e').txPort) :
    dev.txBit e &&& dev.txBit e' = 0 := by
  have hport := (dev.ept e).txPort_le
  have hport' := (dev.ept e').txPort_le
  exact one_shiftLeft_and_of_ne (by omega) (by omega) (by omega)

end

/-! ### Creation and destruction -/

/-- The words at `REG_IRQ_EN` and at `REG_TX_INIT`. -/
structure Regs where
  rxEn : Block → UInt32
  txInit : Block → ℕ → UInt32

variable (regs : Regs)

def Regs.sxRxIrqSet (user l r p : ℕ) (en : Bool) : Regs :=
  let val := regs.rxEn (user, adj l r)
  { regs with
    rxEn := Function.update regs.rxEn (user, adj l r)
      (if en then val ||| rxIrqBit p else val &&& ~~~rxIrqBit p) }

def Device.sxCreateEpt : Regs :=
  let l := dev.ampCur
  let r := (dev.ept e).remote
  if dev.sxBase r = false then regs
  else
    let block : Block := (r, if l ≤ r then l else l - 1)
    let regs := { regs with
      txInit := Function.update regs.txInit block
        (Function.update (regs.txInit block) (dev.ept e).txPort 0) }
    if dev.sxBase l then regs.sxRxIrqSet l l r (dev.ept e).rxPort true else regs

def Device.sxEptDestroy : Regs :=
  if dev.sxBase (dev.ept e).remote then
    regs.sxRxIrqSet (dev.ept e).remote (dev.ept e).remote dev.ampCur (dev.ept e).rxPort false
  else regs

def Device.createdBit (b : Block) : UInt32 :=
  if dev.sxBase (dev.ept e).remote ∧ dev.sxBase dev.ampCur ∧ b = dev.rxBlock e then dev.rxBit e
  else 0

def Device.DestroysExactly : Prop :=
  ∀ regs b, (dev.sxEptDestroy e (dev.sxCreateEpt e regs)).rxEn b =
    (dev.sxCreateEpt e regs).rxEn b &&& ~~~dev.createdBit e b

lemma destroysExactly_iff :
    dev.DestroysExactly e ↔ dev.sxBase (dev.ept e).remote = false := by
  constructor
  · intro h
    by_contra hbase
    rw [Bool.not_eq_false] at hbase
    -- all words hold the bit of the endpoint, so that creation changes nothing
    have hcreate : (dev.sxCreateEpt e ⟨fun _ => dev.rxBit e, fun _ _ => 0⟩).rxEn =
        fun _ => dev.rxBit e := by
      by_cases hlocal : dev.sxBase dev.ampCur
      · simp only [Device.sxCreateEpt, hbase, hlocal, Bool.true_eq_false, if_false, if_true,
          Regs.sxRxIrqSet]
        exact Function.update_eq_self_iff.mpr UInt32.or_self
      · simp only [Device.sxCreateEpt, hbase, hlocal, Bool.true_eq_false, Bool.false_eq_true,
          if_false]
    have hne : ((dev.ept e).remote, adj (dev.ept e).remote dev.ampCur) ≠ dev.rxBlock e := by
      intro heq
      exact dev.remote_ne e (congrArg Prod.fst heq)
    have hbit := h ⟨fun _ => dev.rxBit e, fun _ _ => 0⟩
      ((dev.ept e).remote, adj (dev.ept e).remote dev.ampCur)
    simp only [Device.sxEptDestroy, hbase, if_true, Regs.sxRxIrqSet, hcreate, Device.createdBit,
      hne, and_false, Bool.false_eq_true, if_false, Function.update_self] at hbit
    apply rxBit_ne_zero dev e
    have hkeep : dev.rxBit e &&& ~~~0 = dev.rxBit e := by simp
    exact hkeep.symm.trans (hbit.symm.trans UInt32.and_not_self)
  · intro hbase regs b
    simp [Device.sxEptDestroy, Device.createdBit, hbase]

end Msgbox
