import H713.Machine.Word
import H713.Machine.BoundedQueue

/-!
# The shared-memory ring FIFO

The functions of `cpu_comm_fifo.c` on a `comm_fifo` header of seven words; the items lie in the
buffer at `baseAddr`, which these functions only compute addresses into. A header here is one that
exists: there are no null checks.
-/

namespace CpuComm

open Machine

/-- The header words `f[0]`, …, `f[6]` of a `comm_fifo`. -/
structure CommFifo where
  rdIdx : ℕ
  wrIdx : ℕ
  peakCount : ℕ
  trackStats : ℕ
  capacity : ℕ
  itemSize : ℕ
  baseAddr : ℕ
deriving DecidableEq, Repr

namespace CommFifo

def succ (f : CommFifo) (i : ℕ) : ℕ := u32 (i + 1) % f.capacity

def slot (f : CommFifo) (i : ℕ) : ℕ := u32 (f.baseAddr + f.itemSize * i)

def countOf (f : CommFifo) (rd wr : ℕ) : ℤ :=
  if rd ≤ wr then i32 (sub32 wr rd) else i32 (sub32 f.capacity rd + wr)

def wrAddr (f : CommFifo) (rd wr : ℕ) : ℕ := if rd = f.succ wr then 0 else f.slot wr

def rdAddr (f : CommFifo) (rd wr : ℕ) : ℕ := if rd = wr then 0 else f.slot rd

end CommFifo

variable (f : CommFifo)

def fifoGetItemWr : ℕ := f.wrAddr f.rdIdx f.wrIdx

def fifoGetCount : ℤ := f.countOf f.rdIdx f.wrIdx

def CommFifo.trackPeak : CommFifo :=
  if f.trackStats ≠ 0 then
    if fifoGetCount f > i32 f.peakCount then { f with peakCount := ofInt32 (fifoGetCount f) }
    else f
  else f

def CommFifo.trackLow : CommFifo :=
  if f.trackStats = 0 then
    if fifoGetCount f < i32 f.peakCount then { f with peakCount := ofInt32 (fifoGetCount f) }
    else f
  else f

lemma CommFifo.exists_trackPeak : ∃ c, f.trackPeak = { f with peakCount := c } := by
  unfold trackPeak
  split_ifs
  exacts [⟨_, rfl⟩, ⟨_, rfl⟩, ⟨_, rfl⟩]

lemma CommFifo.exists_trackLow : ∃ c, f.trackLow = { f with peakCount := c } := by
  unfold trackLow
  split_ifs
  exacts [⟨_, rfl⟩, ⟨_, rfl⟩, ⟨_, rfl⟩]

def fifoRequestItemWr : CommFifo × ℕ :=
  let next := f.succ f.wrIdx
  if f.rdIdx = next then (f, 0)
  else
    let f' := CommFifo.trackPeak { f with wrIdx := next }
    (f', f'.slot next)

def fifoGetItemRd : ℕ := f.rdAddr f.rdIdx f.wrIdx

def fifoItemRdNext : CommFifo × ℕ :=
  if f.rdIdx = f.wrIdx then (f, 0)
  else
    let next := f.succ f.rdIdx
    let f' := CommFifo.trackLow { f with rdIdx := next }
    (f', if f.wrIdx = next then 0 else f'.slot next)

def fifoIsNearlyFull (margin : ℤ) : Bool :=
  fifoGetCount f ≥ i32 f.capacity - 1 - margin

/-! ### Headers that describe a buffer -/

namespace CommFifo.WellFormed

variable {f : CommFifo}

end CommFifo.WellFormed

end CpuComm
