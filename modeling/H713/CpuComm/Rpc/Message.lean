import H713.CpuComm.Send
import H713.CpuComm.Routine.Copy

/-!
# The message of a call

A call and its response travel in one message of 104 bytes. `CPUComm_CallEx` builds it,
`SendComm2CPUEx` copies it into a call slot and overwrites parts of its header, and
`comm_CallWorkAction` turns it into the response.
-/

namespace CpuComm

open Machine

/-- `comm_msg`, without the word at `+20`, which nobody reads. -/
structure CommMsg where
  /-- `u16` at `+0`, the command word -/
  name : ℕ
  /-- `u16` at `+2` -/
  cpu : ℕ
  /-- `u16` at `+4` -/
  slotIdx : ℕ
  /-- `u16` at `+6` -/
  flags : ℕ
  /-- `u16` at `+8` -/
  cmdType : ℕ
  /-- `u16` at `+10` -/
  flags2 : ℕ
  /-- `u32` at `+12` -/
  session : ℕ
  /-- `u32` at `+16` -/
  chanPid : ℕ
  /-- `u32` at `+24` -/
  dstCpu : ℕ
  /-- `u32` at `+28` -/
  callerPid : ℕ
  /-- `u64` at `+32` -/
  waitPtr : ℕ
  /-- `u32` at `+40` -/
  compId : ℕ
  /-- the words from `+44` on -/
  payload : ℕ → ℕ

namespace CommMsg

def zero : CommMsg := ⟨0, 0, 0, 0, 0, 0, 0, 0, 0, 0, 0, 0, fun _ => 0⟩

variable (m : CommMsg)

def notify : Bool := m.flags.testBit 0

def returnAck : Bool := m.flags.testBit 1

def wantsReply : Bool := !m.notify || m.returnAck

end CommMsg

def HoldsVector (n : ℤ) (v array : ℕ → ℕ) : Prop :=
  (array 0 : ℤ) = n ∧ ∀ i : ℕ, 1 ≤ i → (i : ℤ) ≤ n → array i = v i

/-! ### Building and sending -/

def callExMsg (compId tgid : ℕ) (params : ℕ → ℕ) : CommMsg :=
  { CommMsg.zero with
    compId := compId
    cmdType := params 0 % 65536
    cpu := 1
    payload := storeWords 0 (fun i => params (i + 1)) (i32 (params 0)).toNat
      (Function.update CommMsg.zero.payload 2 tgid) }

/-- What `SendComm2CPUEx` adds to a forward call. -/
structure CallFill where
  /-- the buffer of `FindRoutine`, if it was asked -/
  routine : Option RoutineDesc
  session : ℕ
  pid : ℕ
  /-- the wait object -/
  wait : ℕ

def fillCall (f : CallFill) (m : CommMsg) : CommMsg :=
  let m := match f.routine with
    | some d => { m with name := d.name, cpu := d.cpu, chanPid := d.pid, dstCpu := d.cpu % 256 }
    | none   => m
  let m := { m with session := f.session, callerPid := f.pid }
  if m.notify && !m.returnAck then { m with waitPtr := 0 }
  else if m.returnAck then
    { m with
      waitPtr := f.wait
      payload := Function.update (Function.update m.payload 4 f.session) 5 f.wait }
  else { m with waitPtr := f.wait }

def sentMsg (targetCpu direction slotIdx : ℕ) (f : CallFill) (m : CommMsg) : CommMsg :=
  let m := { m with slotIdx := slotIdx, flags2 := if targetCpu = 0 then 1 else 2 }
  let m := if direction = 0 then fillCall f m else m
  { m with flags2 := m.flags2 ||| 4 }

def sentSlot (w : SendWorld) (a : SendArgs) (freeCall : List CallEntry) : Option CallEntry :=
  match sendComm2CpuEx w a freeCall with
  | (.returned _, _) => none
  | (.dispatched, s) => (withReleases w freeCall s.tick).head?

/-- The process that calls, and what it meets on the way. -/
structure Caller where
  world : SendWorld
  freeCall : List CallEntry
  /-- `FindRoutine` -/
  findRoutine : ℕ → Option RoutineDesc
  /-- the address of `local_msg` -/
  msgPtr : ℕ
  tgid : ℕ
  pid : ℕ
  session : ℕ
  wait : ℕ

namespace Caller

variable (c : Caller)

def sendWorld : SendWorld :=
  { c.world with findRoutine := fun id => (c.findRoutine id).map fun d => d.cpu % 256 }

def slot (compId : ℕ) : Option CallEntry :=
  sentSlot c.sendWorld ⟨c.msgPtr, 0, false, compId, 1⟩ c.freeCall

def callEx (compId : ℕ) (params : ℕ → ℕ) : Option CommMsg :=
  if i32 (params 0) > 10 then none
  else (c.slot compId).map fun e =>
    sentMsg 0 0 e.slotIdx ⟨c.findRoutine compId, c.session, c.pid, c.wait⟩
      (callExMsg compId c.tgid params)

end Caller

/-! ### Receiving -/

def receivedMsg (remoteCpu : ℕ) (m : CommMsg) : CommMsg :=
  { m with flags2 := m.flags2 ||| 8, cpu := remoteCpu }

def queuedCall (remoteCpu : ℕ) (m : CommMsg) : CommMsg :=
  let m := receivedMsg remoteCpu m
  { m with flags2 := m.flags2 ||| 0x20 }

/-- A callback leaves values in the second of its two arrays. -/
abbrev Callback := (ℕ → ℕ) → (ℕ → ℕ) → ℕ → ℕ

/-- What `comm_CallWorkAction` reads of `routine_info`. -/
structure RoutineInfo where
  /-- `u16` at `+2` -/
  cpu : ℕ
  /-- what the pointer at `+88` leads to -/
  callback : Option Callback

/-- The side that handles the call. Its table has no cycle. -/
structure Receiver where
  curCpu : ℕ
  table : ByteTable
  /-- what the stack holds where `routine_info` is placed -/
  info : Bytes
  /-- what a pointer other than null leads to -/
  code : ℕ → Callback
  /-- what the stack holds where `params[11]` is placed -/
  stack : ℕ → ℕ
  ends : ∀ c, table.findRoutineEx c info ≠ none

variable (rx : Receiver)

/-- `FindRoutine` into `routine_info`. -/
def Receiver.findRoutine (compId : ℕ) : Option RoutineInfo :=
  ((rx.table.findRoutineEx compId rx.info).join).map fun info =>
    ⟨info.rd16 2, if info.rd32 88 = 0 then none else some (rx.code (info.rd32 88))⟩

/-- A receiver with one routine in its table. -/
def Receiver.lone (d info : Bytes) (code : ℕ → Callback) : Receiver where
  curCpu := 0
  table := .lone d
  info := info
  code := code
  stack := fun _ => 0
  ends := ByteTable.lone_ends d info

/-- What a run of `comm_CallWorkAction` does. -/
structure CallWork where
  /-- `Comm_ReleaseFreeCall` is called on the entry -/
  released : Bool
  /-- the callback and its `params` array, if one is called -/
  called : Option (Callback × (ℕ → ℕ))
  /-- the message given to `SendComm2CPUEx`, if any -/
  reply : Option CommMsg

variable (m : CommMsg)

def callbackParams : ℕ → ℕ :=
  Function.update (storeWords 0 m.payload 10 rx.stack) 0 m.slotIdx

def callbackResult : ℕ → ℕ := Function.update (fun _ => 0) 0 15

def replyMsg (result : ℕ → ℕ) (m : CommMsg) : CommMsg :=
  { m with
    slotIdx := result 0 % 65536
    payload :=
      if result 0 = 15 then m.payload
      else storeWords 0 (fun i => result (i + 1)) (min (i32 (result 0)).toNat 10) m.payload }

def commCallWorkAction : CallWork :=
  if m.name ≤ 4 then ⟨false, none, none⟩
  else if m.cpu > 1 then ⟨false, none, none⟩
  else
    match rx.findRoutine m.compId with
    | none   => ⟨true, none, none⟩
    | some r =>
      if r.cpu ≠ rx.curCpu then ⟨true, none, none⟩
      else
        match r.callback with
        | none    => ⟨true, none, if m.wantsReply then some m else none⟩
        | some cb =>
          let params := callbackParams rx m
          ⟨true, some (cb, params),
            if m.wantsReply then some (replyMsg (cb params callbackResult) m) else none⟩

/-! ### The way back -/

def returnedMsg (remoteCpu next prev : ℕ) (m : CommMsg) : CommMsg :=
  let m := receivedMsg remoteCpu m
  { m with
    flags2 := m.flags2 ||| 0x10 ||| 0x20 ||| 0x40
    payload := Function.update (Function.update m.payload 10 next) 11 prev }

def callExResult (result : ℕ → ℕ) : ℕ → ℕ :=
  if m.cmdType ≠ 15 ∧ m.cmdType ≤ 10 then
    storeWords 1 m.payload m.cmdType (Function.update result 0 m.cmdType)
  else result

end CpuComm
