import H713.Machine.Bits
import H713.Machine.Stores

/-!
# Register maps

A `RegOp` writes a register or updates the bits of a mask, and `program` makes one after the other.
Before a block loses its contents a driver saves the registers of a list, and later writes them
back.
-/

namespace Machine

open Function List

/-- One access of a driver to a register map. -/
inductive RegOp where
  | write (reg : ℕ) (val : UInt32)
  | update (reg : ℕ) (mask val : UInt32)

namespace RegOp

def reg : RegOp → ℕ
  | .write reg _    => reg
  | .update reg _ _ => reg

def apply (r : ℕ → UInt32) : RegOp → ℕ → UInt32
  | .write reg val       => Function.update r reg val
  | .update reg mask val => Function.update r reg (updateBits (r reg) mask val)

lemma apply_of_ne {op : RegOp} {a : ℕ} (h : op.reg ≠ a) (r : ℕ → UInt32) : op.apply r a = r a := by
  cases op with
  | write reg val => exact update_of_ne h.symm _ _
  | update reg mask val => exact update_of_ne h.symm _ _

end RegOp

def program (ops : List RegOp) (r : ℕ → UInt32) : ℕ → UInt32 := ops.foldl RegOp.apply r

lemma program_of_notMem {ops : List RegOp} {a : ℕ} (h : ∀ op ∈ ops, op.reg ≠ a) (r : ℕ → UInt32) :
    program ops r a = r a := by
  induction ops generalizing r with
  | nil => rfl
  | cons op ops ih =>
    have hrest : program ops (op.apply r) a = op.apply r a :=
      ih (fun o ho => h o (mem_cons_of_mem op ho)) _
    exact hrest.trans (RegOp.apply_of_ne (h op mem_cons_self) r)

/-! ### Saving and restoring -/

def save (regs : List ℕ) (r : ℕ → UInt32) : List (ℕ × UInt32) := regs.map fun a => (a, r a)

lemma store_save_of_mem {regs : List ℕ} {a : ℕ} (h : a ∈ regs) (r m : ℕ → UInt32) :
    store (save regs r) m a = r a := by
  induction regs generalizing m with
  | nil => exact absurd h not_mem_nil
  | cons b regs ih =>
    by_cases hmem : a ∈ regs
    · exact ih hmem _
    · -- the first entry is the last one for this register
      have hab : a = b := (mem_cons.mp h).resolve_right hmem
      subst hab
      have hnot : ∀ w ∈ save regs r, w.1 ≠ a := by
        intro w hw hwa
        obtain ⟨c, hc, rfl⟩ := mem_map.mp hw
        exact hmem (hwa ▸ hc)
      exact (store_of_notMem hnot _).trans (update_self _ _ _)

lemma store_save_of_notMem {regs : List ℕ} {a : ℕ} (h : a ∉ regs) (r m : ℕ → UInt32) :
    store (save regs r) m a = m a := by
  refine store_of_notMem (fun w hw hwa => ?_) m
  obtain ⟨c, hc, rfl⟩ := mem_map.mp hw
  exact h (hwa ▸ hc)

lemma store_save_program {regs : List ℕ} {ops : List RegOp} (h : ∀ op ∈ ops, op.reg ∈ regs)
    (r m : ℕ → UInt32) (a : ℕ) :
    store (save regs r) (program ops m) a = if a ∈ regs then r a else m a := by
  split_ifs with hmem
  · exact store_save_of_mem hmem r _
  · rw [store_save_of_notMem hmem]
    refine program_of_notMem (fun op hop hreg => hmem ?_) m
    rw [← hreg]
    exact h op hop

end Machine
