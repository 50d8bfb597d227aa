import H713.CpuComm.Rpc.Message
import H713.CpuComm.Socket.Basic

/-!
# Messages from the MIPS

A message of the MIPS is announced by bit 2 of a status byte and an interrupt. The handler takes the
bit and schedules a work item, unless it is pending. This runs `command_action`, which hands the
message over, resets the sequence index and sends an ACK, unless it leaves early.
-/

namespace CpuComm

open Machine

def cpuIdArm : ℕ := 0
def cpuIdMips : ℕ := 1

def cpuCommIsMipsVa (ptr : ℕ) : Bool := ptr &&& 0xE0000000 = 0x80000000

/-- What the callers of the driver have at the time of a `command_action`. -/
structure Waiters where
  /-- the sessions of the objects in SendCmdWaitList -/
  sessions : List ℕ
  /-- the words that embedded wait pointers point to -/
  mem : ℕ → ℕ

def Waiters.Has (w : Waiters) (m : CommMsg) : Prop :=
  if m.returnAck then m.session ∈ w.sessions
  else m.waitPtr ≠ 0 ∧ cpuCommIsMipsVa (u32 m.waitPtr) = false ∧ w.mem (u32 m.waitPtr) = m.session

instance (w : Waiters) (m : CommMsg) : Decidable (w.Has m) := by
  unfold Waiters.Has
  infer_instance

/-- The word of a message that its ACK repeats, and the slot of its entry. -/
structure Header where
  slot : ℕ
  param : ℕ
  sem : ℕ
deriving DecidableEq, Repr

/-- What a run of `command_action` has done. -/
structure Execution where
  /-- the message it has read -/
  read : Header
  /-- the sequence index it leaves -/
  seqIdx : ℕ
  /-- the parameters and semaphores of the ACKs it has sent -/
  acks : List (ℕ × ℕ)
deriving DecidableEq, Repr

/-- The two share sequences of a direction, with the work item that serves them. -/
structure ShareSeq where
  /-- of the sequence read: the bytes at `+16` and `+8`, and the words at `+20` and `+24` -/
  seqIdx : ℕ
  status : ℕ
  param : ℕ
  sem : ℕ
  /-- its call entries, from `+360` on -/
  entry : ℕ → CommMsg
  /-- of the sequence written: the bytes at `+0`, `+1` and `+2` -/
  dst : ℕ
  src : ℕ
  dir : ℕ
  /-- and its ACK, at `+104`, `+105`, `+108` and `+112` -/
  ackIdx : ℕ
  ackStatus : ℕ
  ackParam : ℕ
  ackSem : ℕ
  /-- the work item is pending -/
  pending : Bool
  /-- the MIPS waits for an ACK -/
  awaiting : Bool
  /-- the messages for which `cpu_comm_sync_mips_cache` has returned true -/
  accepted : List Header
  executions : List Execution

namespace ShareSeq

variable (d : Direction)

def init : ShareSeq where
  seqIdx := 20
  status := 0
  param := 0xFFFFFFFF
  sem := 0
  entry := fun _ => CommMsg.zero
  dst := cpuIdMips
  src := cpuIdArm
  dir := match d with
    | .call => 0
    | .ret => 1
  ackIdx := 20
  ackStatus := 0
  ackParam := 0xFFFFFFFF
  ackSem := 0
  pending := false
  awaiting := false
  accepted := []
  executions := []

variable (s : ShareSeq)

def header : Header := ⟨s.seqIdx, s.param, s.sem⟩

def sendAckLow (idx status param sem : ℕ) : ShareSeq × List (ℕ × ℕ) :=
  if s.src ≠ cpuIdArm then (s, [])
  else if s.dir > 1 then (s, [])
  else if s.ackStatus.testBit 2 then (s, [])
  else
    let s := { s with ackIdx := idx % 256, ackParam := param, ackStatus := status, ackSem := sem }
    if s.dst = s.src then (s, [(param, sem)])
    else ({ s with ackStatus := status ||| 4 }, [(param, sem)])

def commandAction (w : Waiters) (s : ShareSeq) : ShareSeq × Execution :=
  let read := s.header
  if s.seqIdx ≥ 21 then (s, ⟨read, s.seqIdx, []⟩)
  else
    let m := receivedMsg cpuIdMips (s.entry s.seqIdx)
    let s := { s with entry := Function.update s.entry s.seqIdx m }
    if d = .ret ∧ ¬ w.Has m then (s, ⟨read, s.seqIdx, []⟩)
    else
      let s := { s with seqIdx := 20 }
      let (s, acks) := s.sendAckLow s.seqIdx s.status s.param s.sem
      (s, ⟨read, s.seqIdx, acks⟩)

/-- A message as the MIPS deposits it. -/
structure Deposit where
  slot : ℕ
  slot_lt : slot < 20
  type : ℕ
  param : ℕ
  sem : ℕ
  msg : CommMsg

inductive Event
  /-- the MIPS deposits a message -/
  | deposit (m : Deposit)
  /-- an interrupt of the direction, for a message or not -/
  | interrupt
  /-- the work item runs -/
  | work (w : Waiters)
  /-- the MIPS takes the ACK -/
  | takeAck

def step : Event → Option ShareSeq
  | .deposit m =>
    if s.awaiting then none
    else some { s with
      seqIdx := m.slot, param := m.param, sem := m.sem, status := m.type ||| 4
      entry := Function.update s.entry m.slot m.msg
      awaiting := true }
  -- `cpu_comm_handle_CPU2_call`, `cpu_comm_handle_CPU2_return`
  | .interrupt =>
    if s.status.testBit 2 then some { s with
      status := s.status &&& 0xFB, pending := true, accepted := s.accepted ++ [s.header] }
    else some s
  | .work w =>
    if s.pending then
      let (s, x) := commandAction d w { s with pending := false }
      some { s with executions := s.executions ++ [x] }
    else none
  | .takeAck =>
    if s.ackStatus.testBit 2 then
      some { s with ackStatus := s.ackStatus &&& 0xFB, awaiting := false }
    else none

end ShareSeq

structure ShareSeqs where
  seq : Direction → ShareSeq

namespace ShareSeqs

def init : ShareSeqs := ⟨ShareSeq.init⟩

def step (s : ShareSeqs) (e : Direction × ShareSeq.Event) : Option ShareSeqs :=
  ((s.seq e.1).step e.1 e.2).map fun q => ⟨Function.update s.seq e.1 q⟩

end ShareSeqs

end CpuComm
