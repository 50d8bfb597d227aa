import H713.Machine.Threads

/-!
# Sends and calls on one socket

`SendComm2CPUEx`, `CPUComm_CallEx` and `CPUComm_Notify` on the `comm_socket` of one destination CPU,
as threads. A step is one access, or a group of them under one semaphore. The other CPU, the message
handlers and sends to the other socket are the environment.

Tokens of semaphores have an identity, which the code does not have and nothing depends on.
-/

namespace CpuComm

open Machine

/-- The direction of a share sequence, `share_seq_w[2]`: calls are `0` and returns are `1`. -/
inductive Direction where
  | call
  | ret
deriving DecidableEq

/-- What is read of a RETURN entry: the session at `+12` and the result count at `+8`. -/
structure ReturnEntry where
  session : ℕ
  count : ℕ
deriving DecidableEq, Repr

structure WakeToken where
  session : ℕ
  epoch : ℕ
deriving DecidableEq, Repr

/-- The part of a `comm_socket` that one direction uses. Wait objects are numbered `0`, …, `19`. -/
structure Socket where
  /-- count of the semaphore at `+8` or `+1036` -/
  sendSem : ℕ
  /-- tokens of the semaphore at `+24` or `+1052` -/
  ackSem : List ℕ
  /-- messages dispatched and not acknowledged by the other CPU -/
  unacked : List ℕ
  /-- the ACK deposited in the share sequence, if bit 2 of its byte `105` is set -/
  ackPending : Option ℕ
  /-- `s_CallSessionId` -/
  callSession : ℕ
  /-- contents of the FreeWait FIFO -/
  freeWait : List ℕ
  /-- count of the semaphore at `+120` that guards writes to FreeWait -/
  releaseSem : ℕ
  /-- objects linked in SendCmdWaitList -/
  waitList : List ℕ
  /-- first word of each wait object -/
  waitSession : ℕ → ℕ
  /-- tokens of the semaphore at `+8` of each wait object -/
  waitSem : ℕ → List WakeToken
  /-- how often each wait object has been handed out -/
  epoch : ℕ → ℕ
  /-- objects and sessions of RETURN handlers between their session check and their `up` -/
  matched : List (ℕ × ℕ)
  /-- contents of the ReturnCmd FIFO -/
  staging : List ReturnEntry
  returnList : List ReturnEntry

def maxWaitEntries : ℕ := 20

def initCommSeqMem : Socket where
  sendSem := 1
  ackSem := []
  unacked := []
  ackPending := none
  callSession := 0
  freeWait := List.range maxWaitEntries
  releaseSem := 1
  waitList := []
  waitSession := fun _ => 4294967295
  waitSem := fun _ => []
  epoch := fun _ => 0
  matched := []
  staging := []
  returnList := []

/-! ### Wait objects and returns -/

namespace Socket

variable (s : Socket)

def findWaitBySessionId (q : ℕ) : Option ℕ :=
  s.waitList.find? fun w => s.waitSession w == q

lemma findWaitBySessionId_spec {s : Socket} {q w : ℕ} (h : s.findWaitBySessionId q = some w) :
    w ∈ s.waitList ∧ s.waitSession w = q :=
  ⟨List.mem_of_find?_eq_some h, by simpa using List.find?_some h⟩

def getWaitbySessionId (q : ℕ) : Socket :=
  { s with waitList := (s.findWaitBySessionId q).elim s.waitList s.waitList.erase }

def addtoWaitComm (w q : ℕ) : Socket :=
  { s with
    waitSession := Function.update s.waitSession w q
    waitList := s.waitList ++ [w] }

def takeFreeWait (w : ℕ) : Socket :=
  { s with
    freeWait := s.freeWait.tail
    epoch := Function.update s.epoch w (s.epoch w + 1) }

def releaseWaitComm (w : ℕ) : Option Socket :=
  if s.releaseSem = 0 then none
  else if s.freeWait.length < maxWaitEntries then some { s with freeWait := s.freeWait ++ [w] }
  else some { s with releaseSem := s.releaseSem - 1 }

lemma releaseWaitComm_frame {s s' : Socket} {w : ℕ} (h : s.releaseWaitComm w = some s') :
    s' = { s with freeWait := s'.freeWait, releaseSem := s'.releaseSem } := by
  unfold releaseWaitComm at h
  split_ifs at h <;> cases h <;> rfl

def addReturn2Fifo (e : ReturnEntry) : Socket :=
  if s.staging.length < 20 then { s with staging := s.staging ++ [e] } else s

def returnPipeLine : Socket :=
  { s with staging := [], returnList := s.returnList ++ s.staging }

def wake (w q : ℕ) : Socket :=
  { s with waitSem := Function.update s.waitSem w (s.waitSem w ++ [⟨q, s.epoch w⟩]) }

end Socket

/-! ### Threads -/

/-- What a thread was called with. `slotSession` is the session a return message brings along. -/
structure Job where
  fromUser : Bool
  notify : Bool
  returnAck : Bool
  isCall : Bool
  slotSession : ℕ
deriving DecidableEq, Repr

def cpuCommCallEx : Job := ⟨false, false, false, true, 0⟩

def cpuCommNotify : Job := ⟨false, true, false, false, 0⟩

def sendComm2Cpu (fromUser notify returnAck : Bool) (slotSession : ℕ) : Job :=
  ⟨fromUser, notify, returnAck, false, slotSession⟩

/-- Where a thread is. Up to `up` this is `SendComm2CPUEx`, from `find` on `CPUComm_CallEx`. -/
inductive Pc where
  | start | acquire | locked | slotted | verify | session
  | peek | take | link | copyBack | dispatch | ackWait | unlink | release | up
  | find | await | drain | lookup | finish | unlinkEnd | releaseEnd | done
deriving DecidableEq, Repr

/-- The locals of a thread, and which tokens and which entry it took. -/
structure Thread where
  job : Job
  pc : Pc
  session : ℕ
  wait : Option ℕ
  ret : ℤ
  found : Option ℕ
  entry : Option ReturnEntry
  ackToken : Option ℕ
  takenAt : ℕ
  wakeToken : Option WakeToken
  copied : Option ReturnEntry
deriving DecidableEq

def Job.start (j : Job) : Thread where
  job := j
  pc := .start
  session := 0
  wait := none
  ret := 0
  found := none
  entry := none
  ackToken := none
  takenAt := 0
  wakeToken := none
  copied := none

/-- Success, an error exit with its code, a timed-out semaphore, a fault of a user copy, or a call
slot at the wrong address. -/
inductive Event where
  | go
  | bail (r : ℤ)
  | timeout
  | fault
  | mismatch
deriving DecidableEq, Repr

def Job.fireAndForget (j : Job) : Bool := j.notify && !j.returnAck

end CpuComm
