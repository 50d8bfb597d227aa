import H713.CpuComm.Init.Properties
import Mathlib.Data.Finset.Card

/-!
# The pool of components

The requests on `/dev/cpu_comm_fd` that create, attach and detach a component and add and remove a
listener. The pool holds 40 entries of 816 bytes; behind them are the number of free slots and a
buffer. Locks are left out.
-/

namespace CpuComm

open Machine

def cstr (s : ℕ → UInt8) (n : ℕ) : List UInt8 :=
  ((List.range n).map s).takeWhile (· ≠ 0)

/-- What a process asks for. The name is the first 16 bytes of its buffer. -/
inductive ComponentRequest where
  | create (name : ℕ → UInt8) (flags : ℕ)
  | attach (name : ℕ → UInt8)
  | detach (compIdx : ℕ)
  | addListener (compIdx flags callbackId eventMask extra extra' tgid : ℕ)
  /-- `buf[1]` and `buf[2]` are the callback id, and `buf[2]` is the event mask as well -/
  | removeListener (compIdx buf1 buf2 tgid : ℕ)

namespace ShMem

variable (E : ShMem)

def componentPool : ℕ := E.shMemAddrBase + 147656

def component (i : ℕ) : ℕ := E.componentPool + 816 * i

variable (m : Bytes)

def freeSlots : ℕ := m.rd32 (E.componentPool + 32648)

def attachCount (i : ℕ) : ℕ := m.rd8 (E.component i + 8)

def registeredFlag (i : ℕ) : ℕ := m.rd8 (E.component i + 9)

def componentName (i : ℕ) : List UInt8 :=
  cstr (fun k => m.byte (E.component i + 11 + k)) 15

def componentSpin (i : ℕ) : ℕ := m.rd32 (E.component i + 32)

def listenerCount (i : ℕ) : ℕ := m.rd32 (E.component i + 48)

/-! ### Components -/

def findName (name : ℕ → UInt8) : Option ℕ :=
  (List.range 40).find? fun i =>
    E.registeredFlag m i ≠ 0 ∧ E.componentName m i = cstr name 15

def findFreeSlot : Option ℕ :=
  (List.range 40).find? fun i => E.attachCount m i = 0 ∧ E.registeredFlag m i = 0

def registerComponent (i : ℕ) (name : ℕ → UInt8) (flags : ℕ) : Bytes :=
  let e := E.component i
  let m := (m.zero (e + 11) 15).wrBytes (e + 11) ((cstr name 15).map UInt8.toNat)
  let m := ((m.wr8 (e + 8) 1).wr8 (e + 9) 1).wr8 (e + 10) i
  ((m.wr16 (e + 28) 0).wr32 (e + 44) i).wr32 (e + 40) flags

def assignComponentSpin (i : ℕ) : Bytes :=
  if E.componentSpin m i = 255 then
    let r := E.commReqestSpinLock m
    r.1.wr32 (E.component i + 32) r.2
  else m

def setFreeSlots (v : ℕ) : Bytes := m.wr32 (E.componentPool + 32648) v

def createComponent (name : ℕ → UInt8) (flags : ℕ) : Bytes × Option ℕ :=
  if (E.findName m name).isSome then (m, none)
  else
    match E.findFreeSlot m with
    | none => (m, none)
    | some i =>
      let m := E.assignComponentSpin (E.registerComponent m i name flags) i
      (E.setFreeSlots m (sub32 (E.freeSlots m) 1), some i)

def setAttachCount (i v : ℕ) : Bytes := m.wr8 (E.component i + 8) v

def attachComponent (name : ℕ → UInt8) : Bytes × Option ℕ :=
  match E.findName m name with
  | none => (m, none)
  | some i => (E.setAttachCount m i (E.attachCount m i + 1), some i)

def clearComponent (i : ℕ) : Bytes :=
  let e := E.component i
  (((m.wr16 (e + 28) 2).wr8 (e + 11) 0).wr8 (e + 9) 0).wr64 (e + 40) 0

def releaseBuffer (smmFree : ℕ → Bytes → Bytes) (m : Bytes) : Bytes :=
  let mid := m.rd64 (E.componentPool + 32656)
  if mid ≠ 0 ∧ m.rd32 (E.componentPool + 32664) ≠ 0 then
    let m := smmFree (u32 mid) m
    (m.wr64 (E.componentPool + 32656) 0).wr32 (E.componentPool + 32664) 0
  else m

def lastDetach (smmFree : ℕ → Bytes → Bytes) (m : Bytes) (i : ℕ) : Bytes :=
  if E.listenerCount m i = 0 then
    let m := E.clearComponent m i
    let m := E.setFreeSlots m (u32 (E.freeSlots m + 1))
    if E.freeSlots m = 40 then E.releaseBuffer smmFree m else m
  else m

def DetachFails (i : ℕ) : Prop :=
  40 ≤ i ∨ E.attachCount m i = 0 ∨ E.componentSpin m i = 255

instance (i : ℕ) : Decidable (E.DetachFails m i) :=
  inferInstanceAs (Decidable (_ ∨ _ ∨ _))

def detachComponent (smmFree : ℕ → Bytes → Bytes) (m : Bytes) (i : ℕ) : Bytes × Option ℕ :=
  if E.DetachFails m i then (m, none)
  else
    let m := E.setAttachCount m i (E.attachCount m i - 1)
    if E.attachCount m i = 0 then (E.lastDetach smmFree m i, some 1) else (m, some 0)

/-! ### Listeners -/

def listener (i j : ℕ) : ℕ := E.component i + 56 + 48 * j

def callbackId (i j : ℕ) : ℕ := m.rd64 (E.listener i j + 8)

def findListener (i callback eventMask tgid : ℕ) : Option ℕ :=
  (List.range 16).find? fun j =>
    E.callbackId m i j = callback ∧ m.rd32 (E.listener i j + 16) = eventMask ∧
      m.rd32 (E.listener i j + 40) = tgid

def findFreeListener (i : ℕ) : Option ℕ :=
  (List.range 16).find? fun j => E.callbackId m i j = 0

def writeListener (a flags callback eventMask extra extra' tgid : ℕ) : Bytes :=
  let m := ((m.wr32 a flags).wr64 (a + 8) callback).wr32 (a + 16) eventMask
  ((m.wr64 (a + 24) extra).wr64 (a + 32) extra').wr32 (a + 40) tgid

def setListenerCount (i v : ℕ) : Bytes :=
  let m := m.wr32 (E.component i + 48) v
  m.wr32 (E.component i + 52) (u32 (m.rd32 (E.component i + 52) + 1))

def addListener (i flags callback eventMask extra extra' tgid : ℕ) :
    Bytes × Option ℤ :=
  if 40 ≤ i then (m, none)
  else if 16 ≤ E.listenerCount m i then (m, some (-28))
  else if (E.findListener m i callback eventMask tgid).isSome then (m, some (-17))
  else
    match E.findFreeListener m i with
    | none => (m, some (-28))
    | some j =>
      let a := E.listener i j
      let m := (writeListener m a flags callback eventMask extra extra' tgid).wr32 (a + 4) i
      (E.setListenerCount m i (u32 (E.listenerCount m i + 1)), some 0)

def removeListener (i buf1 buf2 tgid : ℕ) : Bytes × Option ℤ :=
  if 40 ≤ i then (m, none)
  else
    match E.findListener m i (buf1 + 4294967296 * buf2) buf2 tgid with
    | none => (m, some (-2))
    | some j =>
      -- the change is counted twice
      let m := m.wr32 (E.component i + 52) (u32 (m.rd32 (E.component i + 52) + 1))
      let m := writeListener m (E.listener i j) 0 0 0 0 0 0
      (E.setListenerCount m i (sub32 (E.listenerCount m i) 1), some 0)

def registered : Finset ℕ := {i ∈ Finset.range 40 | E.registeredFlag m i ≠ 0}

def listeners (i : ℕ) : Finset ℕ := {j ∈ Finset.range 16 | E.callbackId m i j ≠ 0}

end ShMem

/-! ### Sequences of requests -/

/-- The memory, with the Creates and Attaches that have succeeded less the Detaches, by slot. -/
structure ComponentState where
  mem : Bytes
  held : ℕ → ℤ

namespace ComponentState

variable (E : ShMem) (smmFree : ℕ → Bytes → Bytes)

def hold (held : ℕ → ℤ) (r : Option ℕ) (n : ℤ) : ℕ → ℤ :=
  r.elim held fun i => Function.update held i (held i + n)

def step (s : ComponentState) : ComponentRequest → ComponentState
  | .create name flags =>
    let r := E.createComponent s.mem name flags
    ⟨r.1, hold s.held r.2 1⟩
  | .attach name =>
    let r := E.attachComponent s.mem name
    ⟨r.1, hold s.held r.2 1⟩
  | .detach i =>
    let r := E.detachComponent smmFree s.mem i
    ⟨r.1, hold s.held (r.2.map fun _ => i) (-1)⟩
  | .addListener i flags callback eventMask extra extra' tgid =>
    { s with mem := (E.addListener s.mem i flags callback eventMask extra extra' tgid).1 }
  | .removeListener i buf1 buf2 tgid =>
    { s with mem := (E.removeListener s.mem i buf1 buf2 tgid).1 }

def init (m : Bytes) : ComponentState where
  mem := E.initComponentPool E.componentPool m
  held := fun _ => 0

def run (s : ComponentState) (reqs : List ComponentRequest) : ComponentState :=
  reqs.foldl (step E smmFree) s

structure PoolOk (s : ComponentState) : Prop where
  free_slots : E.freeSlots s.mem + (E.registered s.mem).card = 40
  names_ne : ∀ i ∈ E.registered s.mem, ∀ j ∈ E.registered s.mem, i ≠ j →
    E.componentName s.mem i ≠ E.componentName s.mem j
  registered_iff : ∀ i < 40,
    i ∈ E.registered s.mem ↔ 0 < E.attachCount s.mem i ∨ (E.listeners s.mem i).Nonempty
  listener_count : ∀ i < 40, E.listenerCount s.mem i = (E.listeners s.mem i).card
  attach_count : ∀ i < 40, (E.attachCount s.mem i : ℤ) = s.held i
  detachable : ∀ i < 40, 0 < s.held i → ¬ E.DetachFails s.mem i

end ComponentState

end CpuComm
