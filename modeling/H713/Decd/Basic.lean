import H713.Machine.Ownership
import H713.Machine.Run
import H713.Machine.Word

/-!
# The frame manager of the display engine

Submitted frames wait in a ready list. A vsync brings the four display slots to the hardware and
schedules a refresh, which puts the next frame into the slots. Frames shown no longer go through
`last_released` and a FIFO to a work item, which puts them. Hardware writes are left out.
-/

namespace Decd

open Machine

/-- A `struct dec_video_frame *`. The source also stores `(void *)1` in one. -/
inductive FramePtr where
  | null
  | one
  | frame (id : ℕ)
deriving DecidableEq, Repr

def FramePtr.frames : FramePtr → List ℕ
  | .frame f     => [f]
  | .null | .one => []

/-- A call waits for a spinlock that it holds itself, or follows a pointer that does not point to a
frame. -/
inductive Fault where
  | selfLock
  | badPointer
deriving DecidableEq, Repr

/-- A `dec_frame_manager` with its queue. -/
structure Manager where
  /-- the counts of the frames, and how often their release callbacks have been called -/
  counts : RefCounts ℕ
  created : ℕ
  /-- `alt_y_valid` of the payload of a frame -/
  alt : ℕ → Bool
  /-- of the manager -/
  state : ℕ
  type : ℕ
  ready : List ℕ
  forceInterlace : Bool
  pair0 : FramePtr
  pair1 : FramePtr
  recycleFifo : List FramePtr
  refreshScheduled : Bool
  /-- of its queue -/
  locked : Bool
  dirty : Bool
  interlace : Bool
  toggle : Bool
  fieldPattern : ℕ
  repeatCurrent : ℕ
  repeatBudget : ℕ
  slot0 : FramePtr
  slot1 : FramePtr
  slot2 : FramePtr
  slot3 : FramePtr
  interlaceHold : FramePtr
  interlaceTop : FramePtr
  interlaceBottom : FramePtr
  releaseFifo : List FramePtr
  releaseQueued : Bool
  shutdownHold : FramePtr
  lastReleased : FramePtr
  repeatMode : Bool
  repeatPending : Bool
  hwRepeat : Bool
  hwRepeatPrev : Bool
  hwRepeatReq : Bool
  shutdownCounter : ℕ
  softRepeatCount : ℕ
  /-- the global `last_frame` -/
  lastFrame : FramePtr
  /-- a `dec_frame_manager_stop` is waiting -/
  waiting : Bool

namespace Manager

def decFrameManagerInit : Manager where
  counts := .none
  created := 0
  alt := fun _ => false
  state := 0
  type := 0
  ready := []
  forceInterlace := false
  pair0 := .null
  pair1 := .null
  recycleFifo := []
  refreshScheduled := false
  locked := false
  dirty := false
  interlace := false
  toggle := false
  fieldPattern := 0
  repeatCurrent := 0
  repeatBudget := 0
  slot0 := .null
  slot1 := .null
  slot2 := .null
  slot3 := .null
  interlaceHold := .null
  interlaceTop := .null
  interlaceBottom := .null
  releaseFifo := []
  releaseQueued := false
  shutdownHold := .null
  lastReleased := .null
  repeatMode := false
  repeatPending := false
  hwRepeat := false
  hwRepeatPrev := false
  hwRepeatReq := false
  shutdownCounter := 4
  softRepeatCount := 0
  lastFrame := .null
  waiting := false

/-! ### References, FIFOs and the lock of the queue -/

variable (m : Manager)

def refcountInc : FramePtr → Except Fault Manager
  | .frame f     => .ok { m with counts := m.counts.inc f }
  | .null | .one => .error .badPointer

def videoFramePut : FramePtr → Except Fault Manager
  | .null    => .ok m
  | .one     => .error .badPointer
  | .frame f => .ok { m with counts := m.counts.put f }

def fifoSize : ℕ := 2048

def kfifoIn (fifo : List FramePtr) (vf : FramePtr) : List FramePtr :=
  if fifo.length < fifoSize then fifo ++ [vf] else fifo

def taken : Manager := { m with locked := true }

def lock : Except Fault Manager :=
  if m.locked then .error .selfLock else .ok m.taken

def unlock : Manager := { m with locked := false }

variable (vf : FramePtr)

def decFrameDeferRelease : Manager :=
  { m with
    releaseFifo :=
      if m.lastReleased = .null then m.releaseFifo else kfifoIn m.releaseFifo m.lastReleased
    lastReleased := vf }

/-! ### The display slots -/

def showAll : Manager :=
  { m with slot0 := vf, slot1 := vf, slot2 := vf, slot3 := vf }

def decFrameQueueEnqueue : Except Fault (Manager × ℤ) :=
  if vf = .null then .ok (m, -22)
  else if m.dirty then .ok (m, 1)
  else do
    let m ← ((m.decFrameDeferRelease m.slot3).showAll vf).refcountInc vf
    .ok ({ m with softRepeatCount := 0, dirty := true }, 0)

def decFramePop : Except Fault (Manager × FramePtr) :=
  if m.type = 1 ∧ m.pair1 ≠ .null then do
    let vf := if m.softRepeatCount % 2 = 1 then m.pair1 else m.pair0
    let m ← m.refcountInc vf
    .ok ({ m with softRepeatCount := u32 (m.softRepeatCount + 1) }, vf)
  else match m.ready with
    | []        => .ok (m, .null)
    | f :: rest => .ok ({ m with ready := rest }, .frame f)

def putReleased : List FramePtr → Manager → Except Fault Manager
  | [], m              => .ok m
  | [_], m             => .ok m
  | vf :: vf' :: l, m  => do
    let m ← { m with releaseFifo := vf' :: l }.videoFramePut vf
    putReleased (vf' :: l) m

def decFrameReleaseProcess : Except Fault Manager := do
  let m ← putReleased m.releaseFifo m
  if m.dirty then .ok m
  else match m.releaseFifo with
    | []      => .ok m
    | vf :: l => .ok { m with releaseFifo := l, lastFrame := vf }

def recycleAll : List FramePtr → Manager → Except Fault Manager
  | [], m      => .ok { m with recycleFifo := [] }
  | vf :: l, m =>
    if vf = .null then recycleAll l { m with recycleFifo := l }
    else do
      let m ← { m with recycleFifo := l }.lock
      recycleAll l { m with releaseFifo := kfifoIn m.releaseFifo vf }.unlock

def decFrameRecycle : Except Fault Manager := do
  let m ← recycleAll m.recycleFifo m
  .ok { m with releaseQueued := true }

def decFrameQueueHardwareRepeatCtrl (enable : Bool) : Manager × Bool :=
  if m.hwRepeat = enable then (m, false)
  else
    let m := { m with hwRepeat := enable, hwRepeatReq := enable }
    (if enable then { m with hwRepeatPrev := false } else m, true)

def refcountIncSlot : Except Fault Manager :=
  if vf = .null then .ok m else m.refcountInc vf

def decFrameQueueRepeat : Except Fault Manager :=
  if m.interlace then
    let m := { m with softRepeatCount := u32 (m.softRepeatCount + 1) }
    if m.toggle then
      let r := m.decFrameQueueHardwareRepeatCtrl true
      .ok (if r.2 then { r.1 with dirty := true } else r.1)
    else do
      let m ← (m.decFrameDeferRelease m.slot3).refcountIncSlot m.slot0
      .ok { m with
        toggle := true
        dirty := true
        slot3 := m.slot2
        slot2 := m.slot1
        fieldPattern := u32 (2 * m.fieldPattern) ||| 1
        slot0 := m.interlaceHold }
  else do
    let m := m.decFrameDeferRelease m.slot3
    let m ← { m with slot3 := m.slot2, slot2 := m.slot1 }.refcountIncSlot m.slot0
    .ok { m with dirty := true, softRepeatCount := u32 (m.softRepeatCount + 1) }

def decFrameManagerSetStreamType (type : ℕ) : Manager := { m with type := type }

/-! ### From state 0 -/

def startStream (f : ℕ) : Except Fault Manager :=
  let m := { m with interlace := m.alt f, toggle := false, fieldPattern := 0 }
  if m.alt f then .ok { m.decFrameManagerSetStreamType 1 with interlaceHold := .frame f }
  else if m.forceInterlace then (m.decFrameManagerSetStreamType 1).videoFramePut (.frame f)
  else
    { m.decFrameManagerSetStreamType 0 with
      repeatCurrent := 0, repeatBudget := 0 }.videoFramePut (.frame f)

def startWith (f : ℕ) : Except Fault Manager := do
  let m ← (m.showAll (.frame f)).refcountInc (.frame f)
  let m ← m.startStream f
  .ok { m with
    interlaceHold := .one, dirty := true, softRepeatCount := 0, repeatBudget := 1, state := 1 }

def dropLastFrame : Except Fault Manager := do
  let m ← m.videoFramePut m.lastFrame
  .ok { m with lastFrame := .null }

def startNext : Except Fault Manager := do
  let r ← m.decFramePop
  match r.2 with
  | .null    => .ok r.1
  | .one     => .error .badPointer
  | .frame f => r.1.startWith f

def start : Except Fault Manager :=
  if m.dirty then .ok m
  else do
    let m ← m.dropLastFrame
    m.startNext

def decFrameQueueResume : Except Fault Manager :=
  if m.state = 2 then .ok { m with state := 1 }
  else if m.state ≠ 0 then .ok m
  else do
    let m ← m.lock
    let m ← m.start
    .ok m.unlock

def putAll : List FramePtr → Manager → Except Fault Manager
  | [], m      => .ok m
  | vf :: l, m => do
    let m ← m.videoFramePut vf
    putAll l m

def decFrameManagerFree : Except Fault Manager := do
  let m ← putAll (m.ready.map .frame ++ [m.pair0, m.pair1])
    { m with ready := [], pair0 := .null, pair1 := .null, type := 0 }
  .ok { m with state := 0 }

/-! ### Vsync and refresh -/

def decFrameQueueSync : Manager := { m with dirty := false, repeatPending := false }

def schedules (state : ℕ) : Bool := state &&& 0xFFFFFFFD ≠ 0

def vsyncBody : Except Fault Manager :=
  if m.dirty then m.decFrameQueueSync.decFrameRecycle else .ok m

def decVsyncProcess : Except Fault Manager := do
  let state := m.state
  let m ← m.lock
  let m ← m.vsyncBody
  let m := m.unlock
  .ok (if schedules state then { m with refreshScheduled := true } else m)

def refreshInterlaced : Except Fault Manager :=
  if ¬ m.toggle then
    let m := { m with toggle := true }
    if m.hwRepeatReq then
      let m := { m with repeatPending := true, repeatMode := true }
      if m.ready ≠ [] then
        .ok { m with hwRepeatReq := false, hwRepeat := false, hwRepeatPrev := true
                     repeatCurrent := 1 }
      else .ok m
    else .ok m
  else
    let m := { m with toggle := false }
    if m.ready = [] ∧ m.repeatBudget ≤ 4 then do
      let hold := m.interlaceHold
      let r ← { m with
        repeatBudget := m.repeatBudget + 1, repeatCurrent := 0, interlaceBottom := .null
        fieldPattern := u32 (2 * m.fieldPattern) }.decFrameQueueEnqueue hold
      -- the address of the frame is traced
      if hold = .null then .error .badPointer else .ok r.1
    else if m.hwRepeatReq then
      let m := { m with repeatCurrent := u32 (m.repeatCurrent + 1) }
      let r := m.decFrameQueueHardwareRepeatCtrl true
      .ok { (if r.2 then { r.1 with state := 0 } else r.1) with repeatMode := false }
    else if m.ready ≠ [] then do
      let r ← m.decFramePop
      let m := { r.1 with
        repeatMode := false, repeatCurrent := 0, fieldPattern := u32 (2 * r.1.fieldPattern) }
      let m := m.decFrameDeferRelease m.interlaceHold
      .ok { m with
        interlaceHold := r.2, repeatBudget := u32 (m.repeatBudget + 1), forceInterlace := false }
    else .ok m

def dropOrRequeue (q : Manager × ℤ) (f : ℕ) : Except Fault Manager :=
  if q.2 = 0 then q.1.videoFramePut (.frame f)
  else if q.1.type = 1 then q.1.videoFramePut (.frame f)
  else .ok { q.1 with ready := f :: q.1.ready }

def refreshNext : Except Fault Manager := do
  let r ← m.decFramePop
  match r.2 with
  | .null =>
    let m ← r.1.decFrameQueueRepeat
    .ok { m with forceInterlace := true }
  | .one => .error .badPointer
  | .frame f =>
    let q ← r.1.decFrameQueueEnqueue (.frame f)
    let m ← dropOrRequeue q f
    .ok { m with forceInterlace := false }

def refreshPair : Except Fault Manager :=
  if m.pair0 ≠ .null ∧ m.pair1 ≠ .null then do
    let m := { m with toggle := !m.toggle, fieldPattern := u32 (2 * m.fieldPattern) }
    let r ← m.decFrameQueueEnqueue (if m.toggle then m.pair1 else m.pair0)
    .ok r.1
  else .ok m

def refreshPlaying : Except Fault Manager :=
  if m.interlace then m.refreshInterlaced
  else if ¬ m.forceInterlace then m.refreshNext
  else m.refreshPair

def refreshStopping : Manager :=
  if m.interlace then
    { m with
      state := 4, repeatMode := false, softRepeatCount := 0, repeatBudget := 0, dirty := true }
  else { m with state := 2 }

def refreshBlank : Manager :=
  let hold := if m.slot0 = .null then m.slot1 else m.slot0
  { (m.decFrameDeferRelease m.slot0).showAll .null with
    state := 5, shutdownHold := hold
    toggle := false, fieldPattern := 0, repeatCurrent := 0, repeatMode := false
    repeatPending := false, hwRepeat := false, hwRepeatPrev := false, hwRepeatReq := false
    dirty := true, interlaceBottom := .null, interlaceTop := .null, interlaceHold := .null
    softRepeatCount := 0, repeatBudget := 0 }

def endShutdown : Manager :=
  let m := m.decFrameDeferRelease m.shutdownHold
  let m := if m.slot0 = .null then m else m.decFrameDeferRelease m.slot0
  let m := if m.lastReleased = .null then m
    else { m with releaseFifo := kfifoIn m.releaseFifo m.lastReleased }
  let m := { m with lastReleased := .null, shutdownHold := .null, slot0 := .null, state := 0 }
  (m.decFrameQueueHardwareRepeatCtrl false).1

def refreshBody : Except Fault Manager :=
  if m.dirty then .ok m
  else if m.state = 1 then m.refreshPlaying
  else if m.state = 3 then
    if i32 m.shutdownCounter < 0 then m.decFrameQueueRepeat else .ok m.refreshStopping
  else if m.state = 4 then
    if i32 m.shutdownCounter < 0 then m.decFrameQueueRepeat else .ok m.refreshBlank
  else if m.state = 5 then
    if i32 m.shutdownCounter < 0 then m.decFrameQueueRepeat else m.endShutdown.decFrameRecycle
  else .ok m

def clearScheduled : Manager := { m with refreshScheduled := false }

def decFrameQueueRefresh : Except Fault Manager := do
  let m ← m.clearScheduled.lock
  let m ← m.refreshBody
  .ok m.unlock

/-! ### Requests -/

variable (alt : Bool)

def decCreateVideoFrame : Manager :=
  { m with
    counts := m.counts.create m.created
    created := m.created + 1
    alt := Function.update m.alt m.created alt }

def addReady : Manager :=
  { m.decCreateVideoFrame alt with ready := m.ready ++ [m.created] }

def decFrameManagerEnqueueFrame : Except Fault Manager :=
  (m.addReady alt).decFrameQueueResume

def recyclePair : Manager :=
  let m := if m.pair0 = .null then m
    else { m with recycleFifo := kfifoIn m.recycleFifo m.pair0, pair0 := .null }
  if m.pair1 = .null then m
  else { m with recycleFifo := kfifoIn m.recycleFifo m.pair1, pair1 := .null }

def newPair (altTop altBottom : Bool) : Manager :=
  { ((m.decCreateVideoFrame altTop).decCreateVideoFrame altBottom).recyclePair with
    forceInterlace := true
    pair0 := .frame m.created
    pair1 := .frame (m.created + 1)
    releaseQueued := true }

def decFrameManagerEnqueueInterlaceFrame (altTop altBottom : Bool) :
    Except Fault Manager :=
  if m.type ≠ 1 then .ok m else (m.newPair altTop altBottom).decFrameQueueResume

def decInterlaceSetup (altTop altBottom : Bool) : Except Fault Manager :=
  (m.decFrameManagerSetStreamType 1).decFrameManagerEnqueueInterlaceFrame altTop altBottom

def decFrameManagerStop : Manager :=
  let m := if m.state = 1 ∨ m.state = 2 then { m with state := 3 } else m
  if m.state = 0 then m else { m with waiting := true }

inductive Event where
  | submit (alt : Bool)
  | interlaceSetup (altTop altBottom : Bool)
  | vsync
  | refresh
  | releaseWork
  | stop
  /-- the wait of a stop ends, in state 0 or after its time -/
  | wake
  | timeout
deriving DecidableEq, Repr

def step : Event → Option Manager
  | .submit alt => if m.waiting then none else (m.decFrameManagerEnqueueFrame alt).toOption
  | .interlaceSetup altTop altBottom =>
    if m.waiting then none else (m.decInterlaceSetup altTop altBottom).toOption
  | .vsync => m.decVsyncProcess.toOption
  | .refresh => if m.refreshScheduled then m.decFrameQueueRefresh.toOption else none
  | .releaseWork =>
    if m.releaseQueued then { m with releaseQueued := false }.decFrameReleaseProcess.toOption
    else none
  | .stop => if m.waiting then none else some m.decFrameManagerStop
  | .wake =>
    if m.waiting ∧ m.state = 0 then { m with waiting := false }.decFrameManagerFree.toOption
    else none
  | .timeout => if m.waiting ∧ m.state ≠ 0 then some { m with waiting := false } else none

end Manager

end Decd
