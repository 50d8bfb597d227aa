import H713.Machine.Threads
import H713.Msgbox.Basic

/-!
# Sends and interrupts

Any number of calls of `sx_ept_send` run next to `sunxi_msgbox_irq` and the other CPUs, register
access by register access. A message queue of the hardware has room for eight words, and a word
written to a full one is lost.
-/

namespace Msgbox

open Machine

def fifoMax : ℕ := 8

/-- A word in a message queue, with the number of the send that wrote it, if one did. -/
structure Msg where
  word : UInt32
  sender : Option ℕ
  deriving DecidableEq

/-! ### The state -/

/-- At endpoint `k` of the lists, or before the access to a register for this endpoint. -/
inductive IrqPc where
  | next (k : ℕ)
  | rxEnable (k : ℕ)
  | rxStatus (k : ℕ)
  | rxFifo (k : ℕ)
  | rxData (k : ℕ)
  | rxAck (k : ℕ)
  | txEnable (k : ℕ)
  | txStatus (k : ℕ)
  | txFifo (k : ℕ)
  | txTest (k : ℕ)
  | clearRead (k : ℕ)
  | clearWrite (k : ℕ) (val : UInt32)
  | complete (k : ℕ)
  | txAck (k : ℕ)
  deriving DecidableEq

/-- Who has `mdev->lock`. -/
inductive Lock where
  | free
  | irq (pc : IrqPc)
  | sender (i : ℕ)
  deriving DecidableEq

/-- The registers, by sub-block and port, and the endpoints. `txLock` is the send that has
`tx_lock`, `read` the words that the other CPUs have taken, `received` those passed to `cb`, and
`dropped` the lost ones. -/
structure Box where
  txEn : Block → UInt32
  txStat : Block → UInt32
  rxEn : Block → UInt32
  rxStat : Block → UInt32
  fifo : Block → ℕ → List Msg
  txData : ℕ → List UInt8
  txLen : ℕ → ℕ
  txPos : ℕ → ℕ
  done : ℕ → ℕ
  txLock : ℕ → Option ℕ
  lock : Lock
  read : Block → ℕ → List Msg
  received : List (ℕ × UInt32)
  dropped : List Msg

def Box.init (txEn txStat rxEn rxStat : Block → UInt32) : Box where
  txEn := txEn
  txStat := txStat
  rxEn := rxEn
  rxStat := rxStat
  fifo := fun _ _ => []
  txData := fun _ => []
  txLen := fun _ => 0
  txPos := fun _ => 0
  done := fun _ => 0
  txLock := fun _ => none
  lock := .free
  read := fun _ _ => []
  received := []
  dropped := []

def Box.push (s : Box) (b : Block) (port : ℕ) (m : Msg) : Box :=
  if (s.fifo b port).length < fifoMax then
    { s with
      fifo := Function.update s.fifo b
        (Function.update (s.fifo b) port (s.fifo b port ++ [m])) }
  else { s with dropped := s.dropped ++ [m] }

def packWord : List UInt8 → UInt32
  | []      => 0
  | b :: bs => b.toUInt32 ||| (packWord bs <<< 8)

/-! ### `sx_ept_send` -/

inductive Ret where
  | ok
  | enodev
  | etimedout
  deriving DecidableEq

/-- At its start, past `mutex_lock`, filling the queue, at the two accesses that set the enable bit,
in `wait_for_completion_timeout`, after a timeout; or returned. -/
inductive SendPc where
  | start
  | setup
  | fill (pos : ℕ)
  | readEn
  | writeEn (val : UInt32)
  | wait
  | timedOut
  | readClear
  | writeClear (val : UInt32)
  | returned (ret : Ret)
  deriving DecidableEq

structure Send where
  ept : ℕ
  data : List UInt8
  pc : SendPc
  deriving DecidableEq

namespace Box

variable (s : Box)

def setup (e : ℕ) (data : List UInt8) : Box :=
  { s with
    txData := Function.update s.txData e data
    txLen := Function.update s.txLen e data.length
    txPos := Function.update s.txPos e data.length
    done := Function.update s.done e 0 }

def setTxEn (b : Block) (val : UInt32) : Box :=
  { s with txEn := Function.update s.txEn b val }

def setDone (e n : ℕ) : Box := { s with done := Function.update s.done e n }

def setTxLock (e : ℕ) (owner : Option ℕ) : Box :=
  { s with txLock := Function.update s.txLock e owner }

def setLock (lock : Lock) : Box := { s with lock := lock }

end Box

variable (dev : Device)

def Send.act (s : Box) (i : ℕ) (t : Send) (timeout : Bool) : Option (Box × Send) :=
  match t.pc with
  | .start =>
    if dev.sxBase (dev.ept t.ept).remote = false then
      some (s, { t with pc := .returned .enodev })
    else if s.txLock t.ept = none then
      some (s.setTxLock t.ept (some i), { t with pc := .setup })
    else none
  | .setup =>
    if s.lock = .free then some (s.setup t.ept t.data, { t with pc := .fill 0 }) else none
  | .fill pos =>
    if pos < t.data.length then
      some (s.push (dev.txBlock t.ept) (dev.ept t.ept).txPort
          ⟨packWord ((t.data.drop pos).take 4), some i⟩,
        { t with pc := .fill (min (pos + 4) t.data.length) })
    else some (s, { t with pc := .readEn })
  | .readEn => some (s, { t with pc := .writeEn (s.txEn (dev.txBlock t.ept)) })
  | .writeEn val =>
    some (s.setTxEn (dev.txBlock t.ept) (val ||| dev.txBit t.ept), { t with pc := .wait })
  | .wait =>
    if timeout then
      if s.done t.ept = 0 then some (s, { t with pc := .timedOut }) else none
    else if s.done t.ept = 0 then none
    else some ((s.setDone t.ept (s.done t.ept - 1)).setTxLock t.ept none,
      { t with pc := .returned .ok })
  | .timedOut =>
    if s.lock = .free then some (s.setLock (.sender i), { t with pc := .readClear }) else none
  | .readClear => some (s, { t with pc := .writeClear (s.txEn (dev.clearBlock t.ept)) })
  | .writeClear val =>
    some (((s.setTxEn (dev.clearBlock t.ept) (val &&& ~~~dev.txBit t.ept)).setLock .free).setTxLock
      t.ept none, { t with pc := .returned .etimedout })
  | .returned _ => none

/-! ### `sunxi_msgbox_irq` -/

def Box.irq (dev : Device) (s : Box) : IrqPc → Box
  | .next k =>
    if k < dev.count then
      if dev.sxBase (dev.ept k).remote = false ∨ dev.sxBase dev.ampCur = false then
        s.setLock (.irq (.next (k + 1)))
      else s.setLock (.irq (.rxEnable k))
    else s.setLock .free
  | .rxEnable k =>
    s.setLock (.irq (if s.rxEn (dev.rxBlock k) &&& dev.rxBit k ≠ 0 then .rxStatus k
      else .txEnable k))
  | .rxStatus k =>
    s.setLock (.irq (if s.rxStat (dev.rxBlock k) &&& dev.rxBit k ≠ 0 then .rxFifo k
      else .txEnable k))
  | .rxFifo k =>
    s.setLock (.irq (if s.fifo (dev.rxBlock k) (dev.ept k).rxPort = [] then .rxAck k
      else .rxData k))
  | .rxData k =>
    match s.fifo (dev.rxBlock k) (dev.ept k).rxPort with
    | []     => s.setLock (.irq (.rxFifo k))
    | m :: q =>
      { s with
        fifo := Function.update s.fifo (dev.rxBlock k)
          (Function.update (s.fifo (dev.rxBlock k)) (dev.ept k).rxPort q)
        received := s.received ++ [(k, m.word)]
        lock := .irq (.rxFifo k) }
  | .rxAck k =>
    { s with
      rxStat := Function.update s.rxStat (dev.rxBlock k)
        (s.rxStat (dev.rxBlock k) &&& ~~~dev.rxBit k)
      lock := .irq (.txEnable k) }
  | .txEnable k =>
    s.setLock (.irq (if s.txEn (dev.txBlock k) &&& dev.txBit k ≠ 0 then .txStatus k
      else .next (k + 1)))
  | .txStatus k =>
    s.setLock (.irq (if s.txStat (dev.txBlock k) &&& dev.txBit k ≠ 0 then .txFifo k
      else .next (k + 1)))
  | .txFifo k =>
    s.setLock (.irq (if fifoMax ≤ (s.fifo (dev.txBlock k) (dev.ept k).txPort).length then .txAck k
      else .txTest k))
  | .txTest k =>
    if s.txLen k ≤ s.txPos k then s.setLock (.irq (.clearRead k))
    else
      { s.push (dev.txBlock k) (dev.ept k).txPort
          ⟨packWord (((s.txData k).drop (s.txPos k)).take (min 4 (s.txLen k - s.txPos k))),
            s.txLock k⟩ with
        txPos := Function.update s.txPos k (min (s.txPos k + 4) (s.txLen k))
        lock := .irq (.txFifo k) }
  | .clearRead k => s.setLock (.irq (.clearWrite k (s.txEn (dev.clearBlock k))))
  | .clearWrite k val =>
    (s.setTxEn (dev.clearBlock k) (val &&& ~~~dev.txBit k)).setLock (.irq (.complete k))
  | .complete k => (s.setDone k (s.done k + 1)).setLock (.irq (.txAck k))
  | .txAck k =>
    { s with
      txStat := Function.update s.txStat (dev.txBlock k)
        (s.txStat (dev.txBlock k) &&& ~~~dev.txBit k)
      lock := .irq (.next (k + 1)) }

/-- The handler starts or goes on, the hardware sets status bits, the other CPUs read from a queue
and write to one. -/
inductive Event where
  | enter
  | irq
  | txStatus (b : Block) (bits : UInt32)
  | rxStatus (b : Block) (bits : UInt32)
  | pop (b : Block) (port : ℕ)
  | post (b : Block) (port : ℕ) (word : UInt32)
  deriving DecidableEq

def Box.event (s : Box) : Event → Option Box
  | .enter => if s.lock = .free then some (s.setLock (.irq (.next 0))) else none
  | .irq =>
    match s.lock with
    | .irq pc => some (s.irq dev pc)
    | _       => none
  | .txStatus b bits =>
    some { s with txStat := Function.update s.txStat b (s.txStat b ||| bits) }
  | .rxStatus b bits =>
    some { s with rxStat := Function.update s.rxStat b (s.rxStat b ||| bits) }
  | .pop b port =>
    match s.fifo b port with
    | []     => none
    | m :: q =>
      some { s with
        fifo := Function.update s.fifo b (Function.update (s.fifo b) port q)
        read := Function.update s.read b (Function.update (s.read b) port (s.read b port ++ [m])) }
  | .post b port word => some (s.push b port ⟨word, none⟩)

def system : System Box Send Bool Event where
  act s i t timeout := t.act dev s i timeout
  env := Box.event dev
  start t := decide (t.ept < dev.count ∧ t.pc = .start)

/-! ### The steps of a send -/

/-- All that a step of a send can be. -/
inductive Acts (dev : Device) (s : Box) (i : ℕ) (e : ℕ) (data : List UInt8) :
    SendPc → Box → SendPc → Prop
  | enodev : Acts dev s i e data .start s (.returned .enodev)
  | lock (hfree : s.txLock e = none) :
      Acts dev s i e data .start (s.setTxLock e (some i)) .setup
  | setup (hfree : s.lock = .free) : Acts dev s i e data .setup (s.setup e data) (.fill 0)
  | fill (pos : ℕ) (hpos : pos < data.length) :
      Acts dev s i e data (.fill pos)
        (s.push (dev.txBlock e) (dev.ept e).txPort ⟨packWord ((data.drop pos).take 4), some i⟩)
        (.fill (min (pos + 4) data.length))
  | filled (pos : ℕ) (hpos : data.length ≤ pos) : Acts dev s i e data (.fill pos) s .readEn
  | readEn : Acts dev s i e data .readEn s (.writeEn (s.txEn (dev.txBlock e)))
  | writeEn (val : UInt32) :
      Acts dev s i e data (.writeEn val) (s.setTxEn (dev.txBlock e) (val ||| dev.txBit e)) .wait
  | done (hdone : s.done e ≠ 0) :
      Acts dev s i e data .wait ((s.setDone e (s.done e - 1)).setTxLock e none) (.returned .ok)
  | timeout (hdone : s.done e = 0) : Acts dev s i e data .wait s .timedOut
  | acquire (hfree : s.lock = .free) :
      Acts dev s i e data .timedOut (s.setLock (.sender i)) .readClear
  | readClear : Acts dev s i e data .readClear s (.writeClear (s.txEn (dev.clearBlock e)))
  | writeClear (val : UInt32) :
      Acts dev s i e data (.writeClear val)
        (((s.setTxEn (dev.clearBlock e) (val &&& ~~~dev.txBit e)).setLock .free).setTxLock e none)
        (.returned .etimedout)

lemma acts_of_act {dev : Device} {s s' : Box} {i : ℕ} {t t' : Send} {timeout : Bool}
    (h : t.act dev s i timeout = some (s', t')) :
    Acts dev s i t.ept t.data t.pc s' t'.pc ∧ t'.ept = t.ept ∧ t'.data = t.data := by
  simp only [Send.act] at h
  split at h
  · rename_i hpc
    rw [hpc]
    split_ifs at h with hbase hfree
    · cases h
      exact ⟨.enodev, rfl, rfl⟩
    · cases h
      exact ⟨.lock hfree, rfl, rfl⟩
  · rename_i hpc
    rw [hpc]
    split_ifs at h with hfree
    cases h
    exact ⟨.setup hfree, rfl, rfl⟩
  · rename_i pos hpc
    rw [hpc]
    split_ifs at h with hpos
    · cases h
      exact ⟨.fill pos hpos, rfl, rfl⟩
    · cases h
      exact ⟨.filled pos (Nat.not_lt.mp hpos), rfl, rfl⟩
  · rename_i hpc
    rw [hpc]
    cases h
    exact ⟨.readEn, rfl, rfl⟩
  · rename_i val hpc
    rw [hpc]
    cases h
    exact ⟨.writeEn val, rfl, rfl⟩
  · rename_i hpc
    rw [hpc]
    split_ifs at h with htimeout hdone hdone
    · cases h
      exact ⟨.timeout hdone, rfl, rfl⟩
    · cases h
      exact ⟨.done hdone, rfl, rfl⟩
  · rename_i hpc
    rw [hpc]
    split_ifs at h with hfree
    cases h
    exact ⟨.acquire hfree, rfl, rfl⟩
  · rename_i hpc
    rw [hpc]
    cases h
    exact ⟨.readClear, rfl, rfl⟩
  · rename_i val hpc
    rw [hpc]
    cases h
    exact ⟨.writeClear val, rfl, rfl⟩
  · cases h

end Msgbox
