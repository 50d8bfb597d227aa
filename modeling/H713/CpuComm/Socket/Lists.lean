import H713.CpuComm.Reset.Basic
import H713.CpuComm.Socket.Exits

/-!
# The linked lists of a socket

The SendCmdWaitList and the ReturnList, each with a header of 80 bytes. A wait object has its
session at `+0` and its node at `+24`, a message at `+12` and `+84`. A call gives `none` if it does
not come back.
-/

namespace CpuComm

open Machine Bytes

namespace MsgFifo

/-! ### Header and semaphore -/

variable (m : Bytes)

def semDown (a : ℕ) : Option Bytes :=
  if m.rd32 (a + 4) = 0 then none else some (m.wr32 (a + 4) (m.rd32 (a + 4) - 1))

def semUp (a : ℕ) : Bytes := m.wr32 (a + 4) (m.rd32 (a + 4) + 1)

def semaInit (a val : ℕ) : Bytes := m.wrWords a [0, val, a + 8, a + 8]

def strnlen (m : Bytes) : ℕ → ℕ → ℕ
  | _, 0     => 0
  | a, n + 1 => if m.rd8 a = 0 then 0 else 1 + strnlen m (a + 1) n

def strlcat (a : ℕ) (src : String) (n : ℕ) : Option Bytes :=
  let dsize := strnlen m a n
  if n ≤ dsize then none
  else
    let chars := (src.toList.map Char.toNat).take (n - dsize - 1)
    some ((m.wrBytes (a + dsize) chars).wr8 (a + dsize + chars.length) 0)

def initList (f : ℕ) : Bytes :=
  (((m.wr8 (f + 48) 0).wr32 (f + 52) 0).wr32 (f + 56) (f + 56)).wr32 (f + 60) (f + 56)

def initMsgFIFO (f : ℕ) (pre suf : String) (mode : ℤ) : Option Bytes := do
  let m ← strlcat (m.strncpy f pre 48) f suf 48
  some (if 0 ≤ mode then (semaInit (initList m f) (f + 64) 1).wr32 (f + 68) (ofInt32 mode)
    else initList m f)

def countUp (lb : ℕ) : Bytes :=
  let count := u32 (m.rd32 (lb + 52) + 1)
  let m := m.wr32 (lb + 52) count
  if count > m.rd8 (lb + 48) then m.wr8 (lb + 48) count else m

def countDown (lb : ℕ) : Bytes := m.wr32 (lb + 52) (sub32 (m.rd32 (lb + 52)) 1)

/-! ### The SendCmdWaitList -/

/-- What a call returns, and what it stores at `result`. -/
structure Reply where
  code : ℤ
  stored : Option ℕ
deriving DecidableEq, Repr

def linkWait (lb entry : ℕ) : Bytes :=
  let prev := m.rd32 (lb + 60)
  let node := entry + 24
  (((m.wr32 (lb + 60) node).wr32 node (lb + 56)).wr32 (entry + 28) prev).wr32 prev node

def addtoWaitComm (lb entry : ℕ) : Option (Bytes × Reply) :=
  if lb = 0 ∨ entry = 0 then some (m, ⟨-22, none⟩)
  else do
    let m ← semDown m (lb + 64)
    some (semUp (countUp (linkWait m lb entry) lb) (lb + 64), ⟨0, none⟩)

def walkWaits (lb session fuel : ℕ) : Option (Option ℕ) :=
  walk m.rd32 (lb + 56) (fun cur => if m.rd32 (sub32 cur 24) = session then some cur else none) fuel
    (m.rd32 (lb + 56))

def getWaitbySessionId (fuel : ℕ) (m : Bytes) (lb session : ℕ) (result : Bool) :
    Option (Bytes × Reply) :=
  if lb = 0 ∨ result = false then some (m, ⟨1, none⟩)
  else do
    let m ← semDown m (lb + 64)
    match ← walkWaits m lb session fuel with
    | some cur =>
      some (semUp (countDown (m.listDel cur) lb) (lb + 64), ⟨0, some (sub32 cur 24)⟩)
    | none => some (semUp m (lb + 64), ⟨1, none⟩)

def findWaitBySessionId (fuel : ℕ) (m : Bytes) (lb session : ℕ) (result : Bool) :
    Option (Bytes × Reply) :=
  if lb = 0 ∨ result = false then some (m, ⟨1, none⟩)
  else do
    let m ← semDown m (lb + 64)
    match ← walkWaits m lb session fuel with
    | some cur => some (semUp m (lb + 64), ⟨0, some (sub32 cur 24)⟩)
    | none => some (semUp m (lb + 64), ⟨1, some 0⟩)

/-! ### The ReturnList -/

def linkReturn (lb entry : ℕ) : Bytes :=
  countUp ((IpcMem.setFlag m entry 0x20).listAddTail (lb + 56) (entry + 84)) lb

def itemRdNext (fifo : ℕ) : Bytes × ℕ :=
  let r := fifoItemRdNext (ShMem.loadFifo m fifo)
  (IpcMem.storeFifoRd m fifo r.1, r.2)

def pipeLoop (fifo lb : ℕ) : ℕ → ℕ → Bytes → Option Bytes
  | 0, item, m        => if item = 0 then some (semUp m (lb + 64)) else none
  | fuel + 1, item, m =>
    if item = 0 then some (semUp m (lb + 64))
    else
      let entry := m.rd32 item
      if cpuCommIsMipsVa entry then
        let r := itemRdNext m fifo
        pipeLoop fifo lb fuel r.2 r.1
      else if m.rd16 (entry + 4) > 19 then some m
      else
        let r := itemRdNext (linkReturn m lb entry) fifo
        pipeLoop fifo lb fuel r.2 r.1

def returnPipeLine (G : CommGlobals) (fuel : ℕ) (m : Bytes) (cpu : ℕ) : Option Bytes :=
  if cpu > 1 then some m
  else
    let seq := G.getShareSeqR cpu 1
    if seq = 0 then some m
    else do
      let m ← semDown m (G.sock cpu 283)
      pipeLoop (seq + 32) (G.sock cpu 267) fuel (fifoGetItemRd (ShMem.loadFifo m (seq + 32))) m

def walkReturns (lb session fuel : ℕ) : Option (Option (Bool × ℕ)) :=
  walk m.rd32 (lb + 56) (fun cur =>
    if cpuCommIsMipsVa cur then some (false, cur)
    else if m.rd32 (sub32 cur 72) = session then some (true, cur) else none) fuel (m.rd32 (lb + 56))

def getReturnbySessionId (G : CommGlobals) (fuel : ℕ) (m : Bytes) (session cpu : ℕ)
    (result : Bool) : Option (Bytes × Reply) :=
  let store (p : ℕ) : Option ℕ := if result then some p else none
  if cpu > 1 then some (m, ⟨0, none⟩)
  else do
    let lb := G.sock cpu 267
    let m ← returnPipeLine G fuel m cpu
    let m ← semDown m (G.sock cpu 283)
    match ← walkReturns m lb session fuel with
    | some (true, cur) =>
      let m := countDown (m.listDel cur) lb
      if i32 (m.rd32 (lb + 52)) < 0 then some (m, ⟨0, none⟩)
      else some (semUp m (G.sock cpu 283), ⟨0, store (sub32 cur 84)⟩)
    | some (false, _) | none => some (semUp m (G.sock cpu 283), ⟨0, store 0⟩)

end MsgFifo

end CpuComm
