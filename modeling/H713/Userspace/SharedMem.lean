import H713.Machine.Word
import Mathlib.Data.Nat.Bitwise

/-!
# Shared memory in user space

`shared_malloc`, `shared_free` and `virt_to_phys` of the picture quality daemon, which turns a
kernel address into one of its own mapping by keeping some of its bits, and passes a physical
address where a kernel address is expected.
-/

namespace Userspace

open Machine Nat

def shmemPhysBase : ℕ := 0x4E300000

def shmemSize : ℕ := 0x500000

/-- Where the kernel has mapped the shared memory (`ShMemAddrBase`). -/
structure KernelMapping where
  base : ℕ
  pos : 0 < base
  aligned : base % 4096 = 0
  fits : base + shmemSize ≤ 4294967296

/-! ### The driver -/

def mid2Vir (shMemAddrBase shMemAddr mid : ℕ) : ℕ :=
  if mid = 0 ∨ shMemAddrBase = 0 ∨ shMemAddr = 0 then 0
  else u32 (mid + sub32 shMemAddrBase shMemAddr)

def vir2Mid (shMemAddrBase shMemAddr vir : ℕ) : ℕ :=
  if vir = 0 ∨ shMemAddrBase = 0 ∨ shMemAddr = 0 then 0
  else sub32 vir (sub32 shMemAddrBase shMemAddr)

def ioctlMalloc (k : KernelMapping) (mid : ℕ) : ℕ := mid2Vir k.base shmemPhysBase mid

def ioctlFree (k : KernelMapping) (arg : ℕ) : ℕ := vir2Mid k.base shmemPhysBase arg

/-! ### The daemon -/

def sharedMalloc (sharedmemVir kvir size : ℕ) : Option ℕ :=
  if kvir = 0 then none
  else
    let offset := kvir &&& (shmemSize - 1)
    if u32 (offset + size) > shmemSize then none else some (sharedmemVir + offset)

def sharedFree (sharedmemVir vir : ℕ) : Option ℕ :=
  if vir = 0 then none
  else
    let offset := sub32 vir sharedmemVir
    if offset ≥ shmemSize then none else some (u32 (shmemPhysBase + offset))

def virtToPhys (sharedmemVir vir : ℕ) : ℕ :=
  if sharedmemVir = 0 ∨ vir = 0 then 0
  else
    let offset := sub32 vir sharedmemVir
    if offset ≥ shmemSize then 0 else u32 (shmemPhysBase + offset)

def RoundTrips (k : KernelMapping) (sharedmemVir o size : ℕ) : Prop :=
  sharedMalloc sharedmemVir (ioctlMalloc k (shmemPhysBase + o)) size = some (sharedmemVir + o) ∧
    virtToPhys sharedmemVir (sharedmemVir + o) = shmemPhysBase + o ∧
    (sharedFree sharedmemVir (sharedmemVir + o)).map (ioctlFree k) = some (shmemPhysBase + o)

/-! ### Both directions -/

variable {k : KernelMapping} {sharedmemVir o size : ℕ}

lemma and_shmemSize_sub_one (n : ℕ) :
    n &&& (shmemSize - 1) = n % 1048576 + 4194304 * (n / 4194304 % 2) := by
  have hmask : shmemSize - 1 = 2 ^ 22 ||| (2 ^ 20 - 1) := by decide
  have hlow : n % 2 ^ 20 < 2 ^ 22 := by omega
  have hbit : (n.testBit 22).toNat = n / 2 ^ 22 % 2 := by
    rw [testBit_eq_decide_div_mod_eq]
    rcases mod_two_eq_zero_or_one (n / 2 ^ 22) with h | h <;> rw [h] <;> rfl
  rw [hmask, and_or_distrib_left, and_two_pow, and_two_pow_sub_one_eq_mod,
    Nat.mul_comm, ← two_pow_add_eq_or_of_lt hlow, hbit]
  omega

lemma ioctlMalloc_block (ho : o < shmemSize) : ioctlMalloc k (shmemPhysBase + o) = k.base + o := by
  have hpos := k.pos
  have hfits := k.fits
  have hphys : shmemPhysBase = 1311768576 := rfl
  have hsize : shmemSize = 5242880 := rfl
  rw [ioctlMalloc, mid2Vir, if_neg (by omega), sub32, u32, u32]
  omega

lemma sharedMalloc_block_iff (ho : o < shmemSize) (hfit : o + size ≤ shmemSize) :
    sharedMalloc sharedmemVir (ioctlMalloc k (shmemPhysBase + o)) size = some (sharedmemVir + o) ↔
      k.base % 1048576 = 0 ∧ k.base / 4194304 % 2 = 0 ∧ (o < 1048576 ∨ 4194304 ≤ o) := by
  have hpos := k.pos
  have halign := k.aligned
  have hsize : shmemSize = 5242880 := rfl
  rw [ioctlMalloc_block ho, sharedMalloc, if_neg (by omega), and_shmemSize_sub_one]
  constructor
  · intro h
    simp only [Option.ite_none_left_eq_some, Option.some.injEq] at h
    omega
  · intro h
    have heq : (k.base + o) % 1048576 + 4194304 * ((k.base + o) / 4194304 % 2) = o := by omega
    simp only [heq, u32_of_lt (show o + size < 4294967296 by omega)]
    rw [if_neg (by omega)]

lemma sub32_add_left (a b : ℕ) (hb : b < 4294967296) : sub32 (a + b) a = b := by
  simp only [sub32, u32]
  omega

lemma sub32_window (ho : o < shmemSize) : sub32 (sharedmemVir + o) sharedmemVir = o :=
  sub32_add_left _ _ (ho.trans (by decide))

lemma u32_phys (ho : o < shmemSize) : u32 (shmemPhysBase + o) = shmemPhysBase + o :=
  u32_of_lt ((Nat.add_lt_add_left ho _).trans (by decide))

lemma virtToPhys_window (hvir : 0 < sharedmemVir) (ho : o < shmemSize) :
    virtToPhys sharedmemVir (sharedmemVir + o) = shmemPhysBase + o := by
  rw [virtToPhys, if_neg (by omega), sub32_window ho]
  exact (if_neg (Nat.not_le.mpr ho)).trans (u32_phys ho)

lemma sharedFree_window (hvir : 0 < sharedmemVir) (ho : o < shmemSize) :
    sharedFree sharedmemVir (sharedmemVir + o) = some (shmemPhysBase + o) := by
  rw [sharedFree, if_neg (by omega), sub32_window ho]
  exact (if_neg (Nat.not_le.mpr ho)).trans (congrArg some (u32_phys ho))

lemma ioctlFree_phys_iff (ho : o < shmemSize) :
    ioctlFree k (shmemPhysBase + o) = shmemPhysBase + o ↔ k.base = shmemPhysBase := by
  have hpos := k.pos
  have hfits := k.fits
  have hphys : shmemPhysBase = 1311768576 := rfl
  have hsize : shmemSize = 5242880 := rfl
  rw [ioctlFree, vir2Mid, if_neg (by omega), sub32, sub32, u32, u32]
  omega

/-- A block makes the round trip exactly when the kernel's mapping is the identity and the block
starts in the first megabyte or in the last. -/
theorem sharedMem_roundTrips_iff (k : KernelMapping) (sharedmemVir o size : ℕ)
    (hvir : 0 < sharedmemVir) (ho : o < shmemSize) (hsize : o + size ≤ shmemSize) :
    RoundTrips k sharedmemVir o size ↔
      k.base = shmemPhysBase ∧ (o < 1048576 ∨ 4194304 ≤ o) := by
  rw [RoundTrips, sharedMalloc_block_iff ho hsize, sharedFree_window hvir ho, Option.map_some,
    Option.some.injEq, ioctlFree_phys_iff ho]
  constructor
  · rintro ⟨⟨-, -, hmega⟩, -, hbase⟩
    exact ⟨hbase, hmega⟩
  · rintro ⟨hbase, hmega⟩
    refine ⟨⟨?_, ?_, hmega⟩, virtToPhys_window hvir ho, hbase⟩ <;> rw [hbase] <;> decide

def identityMapping : KernelMapping := ⟨shmemPhysBase, by decide, by decide, by decide⟩

theorem sharedMem_roundTrips_identity : RoundTrips identityMapping 0xB6000000 0x1000 64 :=
  (sharedMem_roundTrips_iff identityMapping 0xB6000000 0x1000 64 (by decide) (by decide)
    (by decide)).mpr ⟨rfl, .inl (by decide)⟩

def lowmemMapping : KernelMapping := ⟨0xC0000000, Nat.zero_lt_succ _, by decide, by decide⟩

/-- From there a block is found in the window but freed under another address, and one in the second
megabyte is not even found. -/
theorem sharedMem_freed_elsewhere :
    sharedMalloc 0xB6000000 (ioctlMalloc lowmemMapping (shmemPhysBase + 0x1000)) 64
        = some (0xB6000000 + 0x1000) ∧
      (sharedFree 0xB6000000 (0xB6000000 + 0x1000)).map (ioctlFree lowmemMapping)
        ≠ some (shmemPhysBase + 0x1000) ∧
      sharedMalloc 0xB6000000 (ioctlMalloc lowmemMapping (shmemPhysBase + 0x100000)) 64
        = some 0xB6000000 := by
  decide

end Userspace
