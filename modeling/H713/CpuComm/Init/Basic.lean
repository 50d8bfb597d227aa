import H713.Machine.Bytes
import H713.CpuComm.Fifo.Basic

/-!
# The initial shared memory

`InitCommMem` lays out locks, share sequences, the table of routines, the pools of components and
messagers, list heads and the heap, each at a fixed offset from `ShMemAddrBase`. Null checks and
locks are left out.
-/

namespace CpuComm

open Machine

/-- The virtual and the physical address of the shared memory, both of pages. Its fixed part, with
the first page of the heap, does not wrap. -/
structure ShMem where
  shMemAddrBase : ℕ
  shMemAddr : ℕ
  /-- the address of `s_CommSockt` -/
  commSockt : ℕ
  base_pos : 0 < shMemAddrBase
  addr_pos : 0 < shMemAddr
  base_aligned : shMemAddrBase % 4096 = 0
  addr_aligned : shMemAddr % 4096 = 0
  base_lt : shMemAddrBase + 192512 ≤ 4294967296
  addr_lt : shMemAddr + 192512 ≤ 4294967296

def sessionIdInvalid : ℕ := 4294967295

namespace ShMem

variable (E : ShMem)

def vir2phy (v : ℕ) : ℕ := sub32 (v + E.shMemAddr) E.shMemAddrBase

def phy2vir (p : ℕ) : ℕ := sub32 (p + E.shMemAddrBase) E.shMemAddr

/-! ### Locks -/

def commInitSpinLock (m : Bytes) : Bytes :=
  Bytes.loop (fun i m => m.wrWords (E.shMemAddrBase + 12 * i) [0x02000202, 0, 255]) 12 m

def assignSpinLock (m : Bytes) : List ℕ → Bytes × ℕ
  | []        => (m, 255)
  | id :: ids =>
    let entry := E.shMemAddrBase + 12 * id
    if m.rd8 (entry + 3) = 2 ∧ m.rd32 (entry + 4) = 0 ∧ m.rd8 entry = 2 ∧
        m.rd32 (entry + 8) = 255 then
      ((m.wr8 (entry + 2) 0).wr8 (entry + 3) 0, id)
    else assignSpinLock m ids

def commReqestSpinLock (m : Bytes) : Bytes × ℕ := E.assignSpinLock m [5, 6, 7, 8, 9, 10, 11]

/-! ### Share sequences -/

def getShareSeq (cpu remote dir : ℕ) : ℕ :=
  E.shMemAddrBase + 9760 * cpu + 4880 * remote + 2440 * dir + 152

def loadFifo (m : Bytes) (f : ℕ) : CommFifo where
  rdIdx := m.rd32 f
  wrIdx := m.rd32 (f + 4)
  peakCount := m.rd32 (f + 8)
  trackStats := m.rd32 (f + 12)
  capacity := m.rd32 (f + 16)
  itemSize := m.rd32 (f + 20)
  baseAddr := m.rd32 (f + 24)

def storeFifo (m : Bytes) (f : ℕ) (c : CommFifo) : Bytes :=
  (m.wr32 (f + 4) c.wrIdx).wr32 (f + 8) c.peakCount

def stagingFifo (m : Bytes) (seq ring : ℕ) (name : String) : Bytes :=
  let m := m.wrWords (seq + 32) [0, 0, 0, 1, 21, 4, ring, 0]
  let m := m.strncpy (seq + 64) name 32
  m.wr32 (seq + 96) 0

def mipsStagingFifo (m : Bytes) (seq : ℕ) (name : String) : Bytes :=
  let m := m.zero seq 64
  let m := m.wrWords (seq + 32) [0, 0, 0, 1, 21, 4,
      0xA0000000 + E.vir2phy (seq + 276) % 0x20000000, 0]
  let m := m.zero (seq + 276) 84
  let m := m.zero (seq + 64) 40
  let m := m.strncpy (seq + 64) name 32
  m.wr32 (seq + 96) 0

def initCommSeqMem (cpu : ℕ) (m : Bytes) : Bytes :=
  let sock := E.commSockt + 4992 * cpu
  let m := stagingFifo m (E.getShareSeq 0 cpu 0) (sock + 4 * 238) "CallCmd"
  let m := stagingFifo m (E.getShareSeq 0 cpu 1) (sock + 4 * 291) "ReturnCmd"
  if cpu = 1 then
    let m := E.mipsStagingFifo m (E.getShareSeq 1 0 0) "CallCmd"
    let m := E.mipsStagingFifo m (E.getShareSeq 1 0 1) "ReturnCmd"
    let m := E.mipsStagingFifo m (E.getShareSeq 1 1 0) "CallCmd"
    E.mipsStagingFifo m (E.getShareSeq 1 1 1) "ReturnCmd"
  else m

def fillFreeCall (seq : ℕ) : ℕ → ℕ → Bytes → Bytes
  | 0, _, m     => m
  | n + 1, j, m =>
    let entry := seq + 360 + 104 * j
    let m := (m.wr16 (entry + 4) j).wr32 (entry + 12) sessionIdInvalid
    let wrSlot := fifoGetItemWr (loadFifo m (seq + 120))
    if wrSlot = 0 then m
    else
      let m := m.wr32 (E.phy2vir wrSlot) (E.vir2phy entry)
      fillFreeCall seq n (j + 1)
        (storeFifo m (seq + 120) (fifoRequestItemWr (loadFifo m (seq + 120))).1)

def freeCallFifo (cpu remote dir : ℕ) (m : Bytes) : Bytes :=
  let seq := E.getShareSeq cpu remote dir
  let m := ((((m.wr8 seq cpu).wr8 (seq + 1) remote).wr8 (seq + 2) dir).wr8 (seq + 8) 0).wr8
      (seq + 16) 20
  let m := m.wr32 (seq + 20) sessionIdInvalid
  let m := ((m.wr8 (seq + 104) 20).wr8 (seq + 105) 0).wr32 (seq + 108) sessionIdInvalid
  let m := m.zero (seq + 192) 84
  let m := m.wrWords (seq + 120) [0, 0, 0, 1, 21, 4, E.vir2phy (seq + 192), 0]
  let m := m.strncpy (seq + 152) (if dir = 0 then "FreeCall" else "FreeReturn") 32
  m.wr32 (seq + 184) 0

def initShareSeq (cpu remote dir : ℕ) (m : Bytes) : Bytes × Bool :=
  let seq := E.getShareSeq cpu remote dir
  let m := E.freeCallFifo cpu remote dir m
  if fifoGetItemWr (loadFifo m (seq + 120)) = 0 then (m, false)
  else ((E.fillFreeCall seq 20 0 m).wr32 (seq + 132) 0, true)

def initCommShareSeqMem (cpu remote : ℕ) (m : Bytes) : Bytes :=
  let r := E.initShareSeq cpu remote 0 m
  if r.2 then (E.initShareSeq cpu remote 1 r.1).1 else r.1

def initComponentPool (pool : ℕ) (m : Bytes) : Bytes :=
  let m := m.zero pool 32656
  let m := m.wr32 (pool + 8160) 40
  let r := E.commReqestSpinLock m
  let m := r.1.wr32 pool r.2
  if r.2 = 255 then m
  else
    Bytes.loop (fun i m =>
      let m := m.wr8 (pool + 816 * i + 10) i
      let m := m.wr32 (pool + 816 * i + 24) 255
      let m := m.wr16 (pool + 816 * i + 28) 2
      Bytes.loop (fun j m => m.wr32 (pool + 816 * i + 88 + 48 * j) sessionIdInvalid) 16 m) 40 m

def initMessagerPool (pool : ℕ) (m : Bytes) : Bytes :=
  let m := (m.zero pool 3208).wr32 pool 0
  let r := E.commReqestSpinLock m
  r.1.wr32 (pool + 4) r.2

/-! ### The heaps -/

def heapAt (base : ℕ) : ℕ := u32 (base + 4095) / 4096 * 4096

def tridSmmInit (base size : ℕ) (m : Bytes) : Bytes :=
  let heap := heapAt base
  let pageCount := u32 (size + 4095) / 4096
  let m := m.zero heap 4096
  let m := m.wrWords heap [E.vir2phy (heap + 4096), E.vir2phy (heap + 4096), pageCount]
  let m := m.wrWords (heap + 0xB4)
    [(12 * pageCount + 4095) / 4096 * 4096 + 4096, size, E.vir2phy heap]
  m.wrWords (E.shMemAddrBase + 0x4D00) [E.vir2phy heap, size]

/-- What `InitCommMem` is given: the size of the shared memory and the optional second region. -/
structure Regions where
  shMemSize : ℕ
  shMemSize1 : ℕ
  shMemAddr1 : ℕ

variable (c : Regions)

def firstBase : ℕ := E.shMemAddrBase + 183536

def firstSize : ℕ := sub32 (E.shMemAddrBase + c.shMemSize - 1) E.firstBase

def secondAddr : ℕ := if c.shMemAddr1 = 0 then u32 (E.shMemAddr + c.shMemSize) else c.shMemAddr1

def hasSecond : Bool := c.shMemSize1 ≠ 0 ∧ E.secondAddr c ≠ 0

def secondBase : ℕ := E.phy2vir (E.secondAddr c)

def initRoutineTable (m : Bytes) : Bytes :=
  let m := (m.wr32 (E.shMemAddrBase + 30144) 0).wr32 (E.shMemAddrBase + 30148) 0
  Bytes.loop (fun i m => (m.wr32 (E.shMemAddrBase + 30152 + 96 * i + 8) 0).wr32
    (E.shMemAddrBase + 30152 + 96 * i + 92) sessionIdInvalid) 1224 m

def initListHeads (m : Bytes) : Bytes :=
  Bytes.loop (fun i m =>
    let head := E.shMemAddrBase + 19724 + 8 * i
    (m.wr32 head head).wr32 (head + 4) head) 20 m

def initTables (mode : ℕ) (m : Bytes) : Bytes :=
  let base := E.shMemAddrBase
  let m := m.wr32 (base + 144) 0xDEADBEEF
  let m := E.commInitSpinLock m
  let m := if mode ≠ 2 then
      Bytes.loop (fun i m => m.wr32 (base + 30144 + 96 * i + 100) sessionIdInvalid) 1224
        (m.zero (base + 30144) 117504)
    else m
  let m := (m.wr32 (base + 144) 0).wr32 (base + 19672) 3
  let m := E.initCommShareSeqMem 0 1 (E.initCommShareSeqMem 0 0 (E.initCommSeqMem 0 m))
  let m := E.initCommShareSeqMem 1 1 (E.initCommShareSeqMem 1 0 (E.initCommSeqMem 1 m))
  let m := m.zero (base + 183536) 8
  let m := E.initMessagerPool (base + 180328) (E.initComponentPool (base + 147656) m)
  (m.wr32 (base + 19688) (sub32 base E.shMemAddr)).wr32 (base + 19692) 0

def initHeaps (m : Bytes) : Bytes :=
  let m := E.tridSmmInit E.firstBase (E.firstSize c) m
  if E.hasSecond c then E.tridSmmInit (E.secondBase c) c.shMemSize1 m else m

def initCommMem (mode : ℕ) (m : Bytes) : Bytes :=
  let base := E.shMemAddrBase
  let m := E.initRoutineTable (E.initListHeads (E.initTables mode m))
  let m := (m.wr32 (base + 144) 0xDEADBEEF).wr32 (base + 30136) 0xDEADBEEF
  let m := E.initHeaps c m
  (m.wr32 (base + 0x4CDC) 5).wr32 (base + 0x4CE0) 0

end ShMem

end CpuComm
