import H713.Machine.Run
import Mathlib.Data.Int.Basic

/-!
# The keystone motor

A worker takes queued commands for a stepper motor, and half a second after the probe
`motor_initial_homing` runs. A movement is refused while the edge flag of its direction is set. A
step is at most one mstep and the limiter reading after it.
-/

namespace Keystone

/-- A direction, `0` for up and `1` for down in a queued command. -/
inductive Dir where
  | up
  | dn
  deriving DecidableEq

def Dir.other : Dir → Dir
  | .up => .dn
  | .dn => .up

variable (d : Dir)

@[simp] lemma Dir.other_other : d.other.other = d := by cases d <;> rfl

@[simp] lemma Dir.other_ne : d.other ≠ d := by
  cases d
  · exact fun h => Dir.noConfusion h
  · exact fun h => Dir.noConfusion h

/-- An mstep, the limiter check directly after the mstep of a movement that reads active, the end of
a movement. -/
inductive Item where
  | mstep (d : Dir)
  | limit (d : Dir)
  | done (d : Dir)
  deriving DecidableEq

/-! ### The limiter -/

/-- The limiter pins, as the device tree gives them; `descs` are the pins `gpio_to_desc` knows. -/
structure Limiter where
  upPin : ℤ
  dnPin : ℤ
  num : ℤ
  activeLevel : ℤ
  descs : List ℤ

def Limiter.pin (l : Limiter) (dir : Option Dir) : Except Bool ℤ :=
  let known (pin : ℤ) : Except Bool ℤ := if pin ∈ l.descs then .ok pin else .error false
  if l.num = 0 then .error false
  else if l.num = 1 then
    let pin := if l.upPin ≠ 0 then l.upPin else l.dnPin
    if pin = 0 then .error false else known pin
  else match dir with
    | some .up => if l.upPin = 0 then .error true else known l.upPin
    | some .dn => if l.dnPin = 0 then .error true else known l.dnPin
    | none     => if l.upPin = 0 then .error false else known l.upPin

def motorLimiterStatus (l : Limiter) (dir : Option Dir) (raw : ℤ) : Bool :=
  match l.pin dir with
  | .error status => status
  | .ok _         => raw = l.activeLevel

/-! ### Movements -/

/-- The part of `struct hy310_motor` the worker uses. -/
structure Motor where
  limiter : Limiter
  stepCur : ℤ
  edgeUp : ℤ
  edgeDn : ℤ
  lastDir : ℤ
  stepInc : ℤ
  backStep : ℤ
  noLimit : ℤ
  runMutex : Bool

def Motor.edge (m : Motor) : Dir → ℤ
  | .up => m.edgeUp
  | .dn => m.edgeDn

def Motor.setEdge (m : Motor) (d : Dir) (v : ℤ) : Motor :=
  match d with
  | .up => { m with edgeUp := v }
  | .dn => { m with edgeDn := v }

section

variable (m : Motor) (d d' : Dir) (v : ℤ)

lemma Motor.setEdge_edge : (m.setEdge d v).edge d' = if d' = d then v else m.edge d' := by
  cases d <;> cases d' <;> rfl

@[simp] lemma Motor.setEdge_noLimit : (m.setEdge d v).noLimit = m.noLimit := by cases d <;> rfl

end

/-- Before the edge check, before its own mstep, at the head of the back-off loop, after it, or
returned. -/
inductive Pc where
  | entry
  | own
  | back (i : ℕ)
  | finish
  | returned (r : ℕ)
  deriving DecidableEq

def Motor.finish (m : Motor) (d : Dir) : Motor :=
  let m := { m with
    stepInc := if m.stepInc < 10 then m.stepInc + 1 else 0
    runMutex := false }
  match d with
  | .up => { m with
      lastDir := if m.edgeUp ≠ 0 then 1 else 0, stepCur := m.stepCur + 1, edgeDn := 0 }
  | .dn => { m with
      lastDir := if m.edgeDn = 0 then 1 else 0, stepCur := m.stepCur - 1, edgeUp := 0 }

def motorRunControl (raw : ℤ) (m : Motor) : Pc → Motor × Pc × List Item
  | .entry =>
    if m.edge d ≠ 0 ∧ m.noLimit = 0 then (m, .returned 0, [])
    else ({ m with runMutex := true }, .own, [])
  | .own =>
    if m.noLimit = 0 ∧ motorLimiterStatus m.limiter (some d) raw then
      if 0 < m.backStep then (m, .back 0, [.mstep d, .limit d])
      else (m.setEdge d 1, .finish, [.mstep d, .limit d])
    else (m, .finish, [.mstep d])
  | .back i =>
    if i < m.backStep then
      -- the counter is taken back while the limiter is free, from the fifth round on
      let i' := if ¬ motorLimiterStatus m.limiter (some d) raw ∧ 3 < i then i - 1 else i
      (m, .back (i' + 1), [.mstep d.other])
    else (m.setEdge d 1, .finish, [])
  | .finish     => (m.finish d, .returned 1, [.done d])
  | .returned r => (m, .returned r, [])

def motorRunUpControl : ℤ → Motor → Pc → Motor × Pc × List Item := motorRunControl .up

def motorRunDnControl : ℤ → Motor → Pc → Motor × Pc × List Item := motorRunControl .dn

def homingUpMax : ℕ := 100

def homingDnMax : ℕ := 250

/-- Where homing stands: before its first check, or at the head of one of its loops. -/
inductive Home where
  | start
  | up (i : ℕ)
  | dn (i : ℕ)
  deriving DecidableEq

def motorInitialHoming (raw : ℤ) (m : Motor) : Home → Motor × Option Home × List Item
  | .start =>
    if m.limiter.num < 1 then (m, none, [])
    else if motorLimiterStatus m.limiter none raw then (m, none, [])
    else (m, some (.up 0), [])
  | .up i =>
    if i < homingUpMax then
      if motorLimiterStatus m.limiter none raw then
        (m.setEdge .dn 1, none, [.mstep .up, .limit .up])
      else (m, some (.up (i + 1)), [.mstep .up])
    else (m, some (.dn 0), [])
  | .dn i =>
    if i < homingDnMax then
      if motorLimiterStatus m.limiter none raw then
        (m.setEdge .up 1, none, [.mstep .dn, .limit .dn])
      else (m, some (.dn (i + 1)), [.mstep .dn])
    else (m, none, [])

/-! ### The queue -/

def queueMaxLen : ℕ := 64

def moveClampMax : ℕ := 18

/-- What the only thread of the work queue does. -/
inductive Worker where
  | idle
  | handler
  | control (d : Dir) (pc : Pc)
  | homing (h : Home)
  deriving DecidableEq

/-- The driver. `trace` is what has happened to the motor so far. -/
structure Driver where
  motor : Motor
  queue : List Dir
  workRunning : Bool
  workPending : Bool
  homingPending : Bool
  worker : Worker
  trace : List Item

def motorEnqueue (d : Dir) : ℕ → ℕ → List Dir → List Dir
  | 0, _, q               => q
  | _ + 1, 0, q           => q
  | n + 1, allocs + 1, q  =>
    if queueMaxLen ≤ q.length then q else motorEnqueue d n allocs (q ++ [d])

def motorRunUpDn (steps : ℕ) (fullLimit : Bool) (allocs : ℕ) (s : Driver) : Driver :=
  let n := if steps = 0 then 1 else if moveClampMax < steps then moveClampMax else steps
  if s.motor.edge d ≠ 0 then s
  else if fullLimit ∧ 3 < s.queue.length then s
  else
    let n := if fullLimit ∧ s.queue.length = 3 then 1 else n
    { s with
      queue := motorEnqueue d n allocs s.queue
      workRunning := true
      workPending := s.workPending || !s.workRunning }

def motorCtrlStore (val allocs : ℕ) (s : Driver) : Driver :=
  let steps := val % 128
  let fullLimit := val / 128 % 2 = 1
  match val / 256 % 256 with
  | 1 => motorRunUpDn .up steps fullLimit allocs s
  | 2 => motorRunUpDn .dn steps fullLimit allocs s
  | 3 => { s with queue := [] }
  | 4 => { s with motor := { s.motor with stepCur := val % 65536 } }
  | _ => s

/-- The worker goes one step, it starts `motor_work_handler` or homing, someone writes a setting. -/
inductive Event where
  | tick (raw : ℤ)
  | work
  | home
  | ctrl (val allocs : ℕ)
  | backStep (v : ℤ)
  deriving DecidableEq

def Worker.ofPc : Pc → Worker
  | .returned _ => .handler
  | pc          => .control d pc

def Worker.ofHome : Option Home → Worker
  | none   => .idle
  | some h => .homing h

def Driver.tick (s : Driver) (raw : ℤ) : Option Driver :=
  match s.worker with
  | .idle => none
  | .handler =>
    match s.queue with
    | []     => some { s with workRunning := false, worker := .idle }
    | d :: q => some { s with queue := q, worker := .control d .entry }
  | .control d pc =>
    let (m, pc', items) := motorRunControl d raw s.motor pc
    some { s with motor := m, worker := .ofPc d pc', trace := s.trace ++ items }
  | .homing h =>
    let (m, h', items) := motorInitialHoming raw s.motor h
    some { s with motor := m, worker := .ofHome h', trace := s.trace ++ items }

def Driver.step (s : Driver) : Event → Option Driver
  | .tick raw => s.tick raw
  | .work =>
    if s.worker = .idle ∧ s.workPending then
      some { s with workPending := false, worker := .handler }
    else none
  | .home =>
    if s.worker = .idle ∧ s.homingPending then
      some { s with homingPending := false, worker := .homing .start }
    else none
  | .ctrl val allocs => some (motorCtrlStore val allocs s)
  | .backStep v =>
    some { s with motor := { s.motor with backStep := if 0 ≤ v then v else s.motor.backStep } }

def motorProbe (l : Limiter) (disableAutoHoming : Bool) : Driver where
  motor := ⟨l, 0, 0, 0, 0, 0, 5, 0, false⟩
  queue := []
  workRunning := false
  workPending := false
  homingPending := !disableAutoHoming
  worker := .idle
  trace := []

end Keystone
