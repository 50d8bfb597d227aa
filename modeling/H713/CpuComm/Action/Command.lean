import H713.CpuComm.Channel.Basic
import H713.CpuComm.Socket.Lists
import H713.Machine.Logged

/-!
# `command_action` and `ack_action` in memory

The work functions for a message and for an ACK of the MIPS, byte by byte, on memory of any content,
with the pointers that they use noted. The copy of a call for user space and what is told to the
MIPS are left out.
-/

namespace CpuComm

open Machine Bytes MsgFifo

/-- Where a pointer is taken from. -/
inductive PtrSource
  /-- `entry + 32` -/
  | waitPtr
  /-- `share_seq + 112` -/
  | ackSem
  /-- an item of a staging FIFO -/
  | item
  /-- a link of a node of the ReturnList -/
  | link
  /-- the last node of the ReturnList, as its head has it in memory of the driver -/
  | tail
deriving DecidableEq, Repr

/-- A pointer that is dereferenced or given to `up`. -/
structure PtrUse where
  source : PtrSource
  ptr : ℕ
deriving DecidableEq, Repr

def CommGlobals.getShareSeqW (G : CommGlobals) (cpu dir : ℕ) : ℕ :=
  if G.shMemAddrBase = 0 ∨ G.curCPUID > 1 ∨ cpu > 1 ∨ dir > 1 then 0
  else u32 (G.shMemAddrBase + 9760 * cpu + 4880 * G.curCPUID + 2440 * dir + 152)

namespace Command

variable (m : Bytes)

def cpuCommSemUp (a : ℕ) : Bytes := if a = 0 then m else semUp m a

def bump (a : ℕ) : Bytes := m.wr32 a (m.rd32 a + 1)

def sendAckLow (cur : ℕ) (m : Bytes) (seq a2 a3 a4 a5 : ℕ) : Bytes :=
  let src := m.rd8 (seq + 1)
  let dst := m.rd8 seq
  if src ≠ cur then m
  else if m.rd8 (seq + 2) > 1 then m
  else if (m.rd8 (seq + 105)).testBit 2 then m
  else
    let m := (((m.wr8 (seq + 104) a2).wr32 (seq + 108) a4).wr8 (seq + 105) a3).wr64 (seq + 112) a5
    if dst = src then m else m.wr8 (seq + 105) (m.rd8 (seq + 105) ||| 4)

/-! ### Calls -/

def loadPool (pool : ℕ) : ChannelPool where
  base := pool + 36
  word w := m.rd32 (pool + 36 + 4 * w)

def signalChannel (pool entry : ℕ) : Bytes :=
  let id := ChannelPool.queryKey (m.rd16 (entry + 2)) (m.rd32 (entry + 16))
  match (loadPool m pool).commQueryChannel id with
  | none   => m
  | some i =>
    let channel := pool + 36 + 44 * i
    if m.rd16 (channel + 2) ≠ m.rd16 entry then m
    else if m.rd32 (channel + 8) ≠ m.rd32 (entry + 16) then m
    else if m.rd32 (channel + 12) ≠ id then m
    else cpuCommSemUp m (channel + 16)

def commAdd2NewCallFifo (pool fifo entry : ℕ) : Bytes :=
  let wrSlot := fifoGetItemWr (ShMem.loadFifo m fifo)
  if wrSlot = 0 then m
  else
    let m := m.wr32 wrSlot entry
    let r := fifoRequestItemWr (ShMem.loadFifo m fifo)
    let m := ShMem.storeFifo m fifo r.1
    if r.2 = 0 then m else signalChannel (IpcMem.setFlag m entry 0x10) pool entry

def commAdd2Call2WQ (alloc : Bool) (m : Bytes) (entry : ℕ) : Bytes :=
  if m.rd16 entry ≤ 4 then m
  else if alloc then IpcMem.setFlag m entry 0x20 else m

def takeCall (dev : ℕ) (alloc : Bool) (m : Bytes) (seqR entry : ℕ) : Bytes :=
  let m :=
    if m.rd16 entry ≤ 4 then commAdd2NewCallFifo m (dev + 48) (seqR + 32) entry
    else commAdd2Call2WQ alloc m entry
  if dev = 0 then m else bump m (dev + 4)

/-! ### Returns -/

def addReturn2Fifo (fifo data : ℕ) : Logged PtrUse Bytes :=
  if cpuCommIsMipsVa data then pure m
  else
    let wrSlot := fifoGetItemWr (ShMem.loadFifo m fifo)
    if wrSlot = 0 then pure m
    else do
      Logged.note ⟨.item, data⟩
      let m := IpcMem.setFlag (m.wr32 wrSlot data) data 0x10
      pure (ShMem.storeFifo m fifo (fifoRequestItemWr (ShMem.loadFifo m fifo)).1)

def countReturns (dev : ℕ) : Bytes :=
  if dev = 0 then m else bump (bump m dev) (dev + 1628)

def signalListed (fuel : ℕ) (m : Bytes) (list entry : ℕ) : Logged PtrUse (Bytes × Bool) := do
  let r ← Logged.silent (findWaitBySessionId fuel m list (m.rd32 (entry + 12)) true)
  let m := r.1
  let wait := r.2.stored.getD 0
  if wait = 0 then pure (m, false)
  else if m.rd32 (entry + 12) ≠ m.rd32 wait then pure (m, false)
  else pure (cpuCommSemUp (IpcMem.setFlag m entry 0x40) (u32 (wait + 8)), true)

def signalEmbedded (entry : ℕ) : Logged PtrUse (Bytes × Bool) :=
  let waitPtr := m.rd64 (entry + 32)
  if waitPtr = 0 then pure (m, false)
  else if cpuCommIsMipsVa (u32 waitPtr) then pure (m, false)
  else do
    Logged.note ⟨.waitPtr, u32 waitPtr⟩
    if m.rd32 (entry + 12) ≠ m.rd32 (u32 waitPtr) then pure (m, false)
    else pure (cpuCommSemUp (IpcMem.setFlag m entry 0x40) (u32 (u32 waitPtr + 8)), true)

variable (G : CommGlobals)

def takeReturn (dev fuel : ℕ) (m : Bytes) (cpu seqR entry : ℕ) :
    Logged PtrUse (Bytes × Bool) := do
  let m ← addReturn2Fifo m (seqR + 32) entry
  let m := countReturns m dev
  -- `MSG_FLAG_RETURN_ACK`
  if (m.rd16 (entry + 6)).testBit 1 then signalListed fuel m (G.sock cpu 10) entry
  else signalEmbedded m entry

/-! ### The work functions -/

def receive (entry cpu : ℕ) : Bytes :=
  (IpcMem.setFlag m entry 8).wr16 (entry + 2) cpu

def acknowledge (cur : ℕ) (m : Bytes) (seqR seqW : ℕ) : Bytes :=
  let m := m.wr8 (seqR + 16) 20
  sendAckLow cur m seqW (m.rd8 (seqR + 16)) (m.rd8 (seqR + 8)) (m.rd32 (seqR + 20))
    (m.rd32 (seqR + 24))

def entryAt (seqR : ℕ) : ℕ := seqR + 104 * m.rd8 (seqR + 16) + 360

def commandAction (dev fuel : ℕ) (alloc : Bool) (m : Bytes) (cpu dir : ℕ) :
    Logged PtrUse Bytes :=
  if cpu > 1 then pure m
  else
    let seqR := G.getShareSeqR cpu dir
    let seqW := G.getShareSeqW cpu dir
    if seqR = 0 ∨ seqW = 0 then pure m
    else if m.rd8 (seqR + 16) ≥ 21 then pure m
    else
      let entry := entryAt m seqR
      let m := receive m entry cpu
      if dir = 0 then pure (acknowledge G.curCPUID (takeCall dev alloc m seqR entry) seqR seqW)
      else do
        let r ← takeReturn G dev fuel m cpu seqR entry
        pure (if r.2 then acknowledge G.curCPUID r.1 seqR seqW else r.1)

def ackAction (m : Bytes) (cpu dir : ℕ) : Logged PtrUse Bytes :=
  if cpu > 1 ∨ dir > 1 then pure m
  else
    let seq := G.getShareSeqR cpu dir
    if seq = 0 then pure m
    else
      let stat2 := m.rd8 (seq + 105)
      if stat2.testBit 2 then
        let m := m.wr8 (seq + 105) (stat2 &&& 0xFB)
        let sem := m.rd32 (seq + 112)
        if sem = 0 then pure m
        else do
          Logged.note ⟨.ackSem, sem⟩
          pure (semUp m sem)
      else pure m

end Command

end CpuComm
