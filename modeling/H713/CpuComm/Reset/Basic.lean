import H713.Machine.Links
import H713.CpuComm.Action.Basic
import H713.CpuComm.Init.Basic

/-!
# Messages in memory and the reset of the MIPS

What points to the call entries of the share sequences, byte by byte: the FreeCall, CallCmd and
ReturnCmd FIFOs and the ReturnList, linked through the entries. `setCPUReset` writes the FreeCall
FIFOs anew. Semaphores and locks are left out.
-/

namespace CpuComm

open Machine Bytes

/-- The shared memory, and the sockets in memory of the driver's own. -/
structure IpcMem extends ShMem where
  sock_pos : 0 < commSockt
  sock_lt : commSockt + 9984 ≤ 4294967296
  apart : commSockt + 9984 ≤ shMemAddrBase ∨ shMemAddrBase + 192512 ≤ commSockt

namespace IpcMem

variable (E : IpcMem)

def sock : ℕ := E.commSockt + 4992

def getShareSeqR (dir : ℕ) : ℕ := E.getShareSeq cpuIdArm cpuIdMips dir

def entryR (dir slot : ℕ) : ℕ := E.getShareSeqR dir + 104 * slot + 360

def cmdFifo (dir : ℕ) : ℕ := E.getShareSeqR dir + 32

def cmdRing (dir : ℕ) : ℕ := E.sock + 4 * (238 + 53 * dir)

def returnList : ℕ := E.sock + 4 * 281

def nodeOf (entry : ℕ) : ℕ := entry + 84

/-! ### The FIFOs and the list -/

def Pending (c : CommFifo) (i : ℕ) : Prop :=
  i < 21 ∧ if c.rdIdx ≤ c.wrIdx then c.rdIdx ≤ i ∧ i < c.wrIdx else c.rdIdx ≤ i ∨ i < c.wrIdx

variable (m : Bytes)

def storeFifoRd (f : ℕ) (c : CommFifo) : Bytes :=
  (m.wr32 f c.rdIdx).wr32 (f + 8) c.peakCount

def setFlag (entry flag : ℕ) : Bytes :=
    m.wr16 (entry + 10) (m.rd16 (entry + 10) ||| flag)

def addReturn2Fifo (fifo data : ℕ) : Bytes :=
  if cpuCommIsMipsVa data then m
  else
    let wrSlot := fifoGetItemWr (ShMem.loadFifo m fifo)
    if wrSlot = 0 then m
    else
      let m := setFlag (m.wr32 wrSlot data) data 0x10
      ShMem.storeFifo m fifo (fifoRequestItemWr (ShMem.loadFifo m fifo)).1

def commAdd2NewCallFifo (fifo callEntry : ℕ) : Bytes :=
  let wrSlot := fifoGetItemWr (ShMem.loadFifo m fifo)
  if wrSlot = 0 then m
  else
    let m := m.wr32 wrSlot callEntry
    let r := fifoRequestItemWr (ShMem.loadFifo m fifo)
    let m := ShMem.storeFifo m fifo r.1
    if r.2 = 0 then m else setFlag m callEntry 0x10

def countReturn : Bytes :=
  let count := u32 (m.rd32 (E.sock + 4 * 280) + 1)
  let m := m.wr32 (E.sock + 4 * 280) count
  if count > m.rd8 (E.sock + 4 * 279) then m.wr8 (E.sock + 4 * 279) count else m

def listReturn (entry : ℕ) : Bytes :=
  E.countReturn ((setFlag m entry 0x20).listAddTail E.returnList (nodeOf entry))

def nextReturn : Bytes × ℕ :=
  let r := fifoItemRdNext (ShMem.loadFifo m (E.cmdFifo 1))
  (storeFifoRd m (E.cmdFifo 1) r.1, r.2)

def pipeLoop : ℕ → ℕ → Bytes → Option Bytes
  | fuel, item, m =>
    if item = 0 then some m
    else
      match fuel with
      | 0 => none
      | fuel + 1 =>
        let entry := m.rd32 item
        if cpuCommIsMipsVa entry then
          let r := E.nextReturn m
          pipeLoop fuel r.2 r.1
        else if m.rd16 (entry + 4) > 19 then some m
        else
          let r := E.nextReturn (E.listReturn m entry)
          pipeLoop fuel r.2 r.1

def returnPipeLine (fuel : ℕ) (m : Bytes) : Option Bytes :=
  E.pipeLoop fuel (fifoGetItemRd (ShMem.loadFifo m (E.cmdFifo 1))) m

def walkReturns (session : ℕ) : ℕ → ℕ → Bytes → Option Bytes
  | fuel, cur, m =>
    if cur = E.returnList then some m
    else
      match fuel with
      | 0 => none
      | fuel + 1 =>
        if cpuCommIsMipsVa cur then some m
        else if m.rd32 (sub32 cur 72) = session then
          let m := m.listDel cur
          some (m.wr32 (E.sock + 4 * 280) (sub32 (m.rd32 (E.sock + 4 * 280)) 1))
        else walkReturns session fuel (m.rd32 cur) m

def getReturnbySessionId (session fuel : ℕ) (m : Bytes) : Option Bytes :=
  (E.returnPipeLine fuel m).bind fun m => E.walkReturns session fuel (m.rd32 E.returnList) m

/-! ### The reset -/

def cpuCommMagic : ℕ := 0xDEADBEEF

def MagicSet : Prop :=
  m.rd32 (E.shMemAddrBase + 144) = cpuCommMagic ∧ m.rd32 (E.shMemAddrBase + 30136) = cpuCommMagic

instance : Decidable (E.MagicSet m) := inferInstanceAs (Decidable (_ ∧ _))

variable (cpu : ℕ)

def cpuFlag : ℕ := E.shMemAddrBase + 0x4CDC + 4 * cpu

def checkNoticeReqedJob : Bytes :=
  m.wr32 (E.cpuFlag cpuIdArm) (m.rd32 (E.cpuFlag cpuIdArm) &&& 0xFFFFFFF7)

def cleanUpSpinLocks (m : Bytes) : Bytes :=
  Bytes.loop (fun i m =>
    let entry := E.shMemAddrBase + 12 * i
    if m.rd8 (entry + 3) = cpu then ((m.wr8 (entry + 3) 2).wr32 (entry + 4) 0).wr32 (entry + 8) 255
    else m) 12 m

/-- `(*p)++` -/
def bump (p : ℕ) : Bytes := m.wr32 p (u32 (m.rd32 p + 1))

def routineCleanupInCPUReset (m : Bytes) : Bytes :=
  let m := Bytes.loop (fun i m =>
    let entry := E.shMemAddrBase + 30152 + 96 * i
    if m.rd32 (entry + 8) = 0 then m
    else if m.rd16 (entry + 2) = cpu then
      let m := m.wr32 (entry + 8) 0
      m.wr32 (E.shMemAddrBase + 30148) (sub32 (m.rd32 (E.shMemAddrBase + 30148)) 1)
    else m) 1224 (bump m (E.shMemAddrBase + 30144))
  bump m (E.shMemAddrBase + 30144)

def reinitSequences (m : Bytes) : Bytes :=
  E.initCommShareSeqMem cpu cpuIdMips (E.initCommShareSeqMem cpuIdMips cpu
    (E.initCommShareSeqMem cpu cpuIdArm (E.initCommShareSeqMem cpuIdArm cpu m)))

def setCPUReset (cpu phase : ℕ) (m : Bytes) : Bytes :=
  if cpu > 1 then m
  else if ¬ E.MagicSet m then m
  else if phase = 0 then
    let m := m.wr32 (E.cpuFlag cpu) (m.rd32 (E.cpuFlag cpu) &&& 0xFFFFFFFA ||| 2)
    let m := m.wr32 (E.cpuFlag cpuIdArm) (m.rd32 (E.cpuFlag cpuIdArm) ||| 8)
    m.wr32 (E.cpuFlag cpuIdMips) (m.rd32 (E.cpuFlag cpuIdMips) ||| 8)
  else if phase = 1 then
    E.reinitSequences cpu (E.routineCleanupInCPUReset cpu
      (E.cleanUpSpinLocks cpu (E.checkNoticeReqedJob m)))
  else m

/-! ### Runs -/

def start : Bytes :=
  let m := m.wrWords E.returnList [E.returnList, E.returnList]
  let m := E.initCommShareSeqMem 0 1 (E.initCommShareSeqMem 0 0 (E.initCommSeqMem 0 m))
  let m := E.initCommShareSeqMem 1 1 (E.initCommShareSeqMem 1 0 (E.initCommSeqMem 1 m))
  (m.wr32 (E.shMemAddrBase + 144) cpuCommMagic).wr32 (E.shMemAddrBase + 30136) cpuCommMagic

inductive Event
  /-- `command_action` hands over the RETURN in a slot -/
  | ret (slot : ℕ)
  /-- or the CALL in a slot, with a command word up to 4 -/
  | call (slot : ℕ)
  /-- `GetReturnbySessionId`, with fuel for its loops -/
  | getReturn (session fuel : ℕ)
  | reset (cpu phase : ℕ)
  /-- any other store, by the MIPS or by the driver -/
  | store (addr : ℕ) (val : ℕ)

def step : Event → Option Bytes
  | .ret slot => some (addReturn2Fifo m (E.cmdFifo 1) (E.entryR 1 slot))
  | .call slot => some (commAdd2NewCallFifo m (E.cmdFifo 0) (E.entryR 0 slot))
  | .getReturn session fuel => E.getReturnbySessionId session fuel m
  | .reset cpu phase => some (E.setCPUReset cpu phase m)
  | .store addr val => some (m.wr8 addr val)

def Reserved (x : ℕ) : Prop :=
  (E.shMemAddrBase + 144 ≤ x ∧ x < E.shMemAddrBase + 148) ∨
  (E.shMemAddrBase + 30136 ≤ x ∧ x < E.shMemAddrBase + 30140) ∨
  (∃ dir < 2, E.cmdFifo dir ≤ x ∧ x < E.cmdFifo dir + 28) ∨
  (E.cmdRing 1 ≤ x ∧ x < E.cmdRing 1 + 84) ∨
  (E.returnList ≤ x ∧ x < E.returnList + 8) ∨
  ∃ a, OnList m E.returnList a ∧ a ≤ x ∧ x < a + 8

def Ok : Event → Prop
  | .ret slot | .call slot => slot < 21
  | .store addr _ => ¬ E.Reserved m addr
  | _ => True

end IpcMem

end CpuComm
