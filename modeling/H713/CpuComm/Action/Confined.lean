import H713.CpuComm.Action.Command
import H713.CpuComm.Socket.ReturnList

/-!
# What `command_action` writes

`command_action` reads a message from one share sequence and acknowledges it in another one. It
takes a sequence index of 20, the mark for no message, for a slot: its entry is the header of the
next sequence.
-/

namespace CpuComm

open Machine Bytes MsgFifo MsgSeq

namespace IpcMem

variable (E : IpcMem) {cpu dir dev k fuel entry : ℕ} {alloc : Bool} {s : MsgSeq} {m m' : Bytes}
  {S : Set ℕ}

def globals (size : ℕ) : CommGlobals where
  curCPUID := cpuIdArm
  shMemAddrBase := E.shMemAddrBase
  shMemAddr := E.shMemAddr
  shMemSize := size
  commSockt := E.commSockt

def seqR (cpu dir : ℕ) : ℕ := E.getShareSeq cpuIdArm cpu dir
def seqW (cpu dir : ℕ) : ℕ := E.getShareSeq cpu cpuIdArm dir

def foreign (cpu dir : ℕ) : Set ℕ :=
  {x | (E.shMemAddrBase + 152 ≤ x ∧ x < E.shMemAddrBase + 19672) ∧
    (x < E.seqR cpu dir ∨ E.seqR cpu dir + 2440 ≤ x) ∧
    (x < E.seqW cpu dir + 104 ∨ E.seqW cpu dir + 120 ≤ x)}

def sockAt (cpu : ℕ) : ℕ := E.commSockt + 4992 * cpu

def ringAt (cpu dir : ℕ) : ℕ := E.sockAt cpu + 4 * (238 + 53 * dir)

def waitObjects (cpu : ℕ) : Set ℕ := {e | ∃ i < 20, e = E.sockAt cpu + 292 + 32 * i}

/-- The data of the device are apart from the shared memory and from the sockets. -/
structure DevPlace (dev : ℕ) : Prop where
  shMem : dev + 1632 ≤ E.shMemAddrBase ∨ E.shMemAddrBase + 192512 ≤ dev
  sock : dev + 1632 ≤ E.commSockt ∨ E.commSockt + 9984 ≤ dev

/-! ### Addresses -/

lemma globals_getShareSeqR {size : ℕ} (hcpu : cpu ≤ 1) (hdir : dir ≤ 1) :
    (E.globals size).getShareSeqR cpu dir = E.seqR cpu dir := by
  have := E.base_pos
  have := E.base_lt
  rw [CommGlobals.getShareSeqR, if_neg (by simp only [globals, cpuIdArm]; omega)]
  exact u32_of_lt (show E.shMemAddrBase + 9760 * 0 + 4880 * cpu + 2440 * dir + 152 < _ by omega)

lemma globals_getShareSeqW {size : ℕ} (hcpu : cpu ≤ 1) (hdir : dir ≤ 1) :
    (E.globals size).getShareSeqW cpu dir = E.seqW cpu dir := by
  have := E.base_pos
  have := E.base_lt
  rw [CommGlobals.getShareSeqW, if_neg (by simp only [globals, cpuIdArm]; omega)]
  exact u32_of_lt (show E.shMemAddrBase + 9760 * cpu + 4880 * 0 + 2440 * dir + 152 < _ by omega)

lemma globals_sock {size : ℕ} (hcpu : cpu ≤ 1) :
    (E.globals size).sock cpu 10 = E.sockAt cpu + 40 := by
  have := E.sock_lt
  rw [CommGlobals.sock, globals, sockAt, u32_of_lt (by dsimp only; omega)]
  dsimp only
  omega

lemma layout_waitObjects (hcpu : cpu ≤ 1) :
    Layout .waitObject (E.sockAt cpu + 40) (E.waitObjects cpu) := by
  have hlt := E.sock_lt
  have hsize : EntryKind.waitObject.size = 32 := rfl
  have hsock : E.sockAt cpu = E.commSockt + 4992 * cpu := rfl
  refine ⟨by omega, by omega, ?_, ?_, ?_, ?_⟩
  · rintro e ⟨i, hi, rfl⟩
    omega
  · rintro e ⟨i, hi, rfl⟩
    omega
  · rintro e ⟨i, hi, rfl⟩
    omega
  · rintro e ⟨i, hi, rfl⟩ e' ⟨j, hj, rfl⟩ hne
    omega

lemma seq_le (hcpu : cpu ≤ 1) (hdir : dir ≤ 1) :
    (E.shMemAddrBase + 152 ≤ E.seqR cpu dir ∧ E.seqR cpu dir + 2440 ≤ E.shMemAddrBase + 19672) ∧
      E.shMemAddrBase + 152 ≤ E.seqW cpu dir ∧ E.seqW cpu dir + 120 ≤ E.shMemAddrBase + 19672 := by
  simp only [seqR, seqW, ShMem.getShareSeq, cpuIdArm]
  omega

lemma sockAt_le (hcpu : cpu ≤ 1) :
    E.commSockt ≤ E.sockAt cpu ∧ E.sockAt cpu + 4992 ≤ E.commSockt + 9984 := by
  rw [sockAt]
  omega

end IpcMem

namespace Command

variable {dir dev d r e cpu k fuel : ℕ} {alloc : Bool} {s : MsgSeq} {m m' : Bytes} {S : Set ℕ}

/-! ### The stores of the parts -/

lemma sameOff_receive (m : Bytes) (e cpu : ℕ) : SameOff (e + 2) (e + 12) m (receive m e cpu) :=
  ((IpcMem.sameOff_setFlag m e 8).mono (by omega) (by omega)).trans
    ((sameOff_wr16 _ _ cpu).mono (by omega) (by omega))

lemma sameOff_bump (m : Bytes) (a : ℕ) : SameOff a (a + 4) m (bump m a) := sameOff_wr32 _ _ _

lemma rd32_bump (m : Bytes) (a : ℕ) : (bump m a).rd32 a = u32 (m.rd32 a + 1) :=
  rd32_wr32_self _ _ _

lemma sameOff_cpuCommSemUp (m : Bytes) (a : ℕ) :
    SameOff (a + 4) (a + 8) m (cpuCommSemUp m a) := by
  rw [cpuCommSemUp]
  split_ifs
  · exact SameOff.refl _ _ m
  · exact sameOff_wr32 _ _ _

lemma sameOff_sendAckLow (cur : ℕ) (m : Bytes) (seq a2 a3 a4 a5 : ℕ) :
    SameOff (seq + 104) (seq + 120) m (sendAckLow cur m seq a2 a3 a4 a5) := by
  have hfields : SameOff (seq + 104) (seq + 120) m
      ((((m.wr8 (seq + 104) a2).wr32 (seq + 108) a4).wr8 (seq + 105) a3).wr64 (seq + 112) a5) :=
    ((((SameOff.refl _ _ _).wr8 (by omega)).wr32 (by omega)).wr8 (by omega)).wr64 (by omega)
  simp only [sendAckLow]
  split_ifs
  · exact SameOff.refl _ _ m
  · exact SameOff.refl _ _ m
  · exact SameOff.refl _ _ m
  · exact hfields
  · exact hfields.wr8 (by omega)

lemma sameOn_acknowledge {cur w : ℕ} (hr : ∀ x ∈ S, x < r + 16 ∨ r + 17 ≤ x)
    (hw : ∀ x ∈ S, x < w + 104 ∨ w + 120 ≤ x) : SameOn S m (acknowledge cur m r w) :=
  ((sameOff_wr8 m (r + 16) 20).sameOn hr).trans ((sameOff_sendAckLow cur _ w _ _ _ _).sameOn hw)

lemma sameOn_signalChannel {pool : ℕ} (h : ∀ x ∈ S, x < pool ∨ pool + 1584 ≤ x) :
    SameOn S m (signalChannel m pool e) := by
  simp only [signalChannel]
  cases hquery : (loadPool m pool).commQueryChannel
      (ChannelPool.queryKey (m.rd16 (e + 2)) (m.rd32 (e + 16))) with
  | none => exact SameOn.refl S m
  | some i =>
    have hi := (ChannelPool.of_query_eq_some hquery).1
    simp only
    split_ifs
    · exact SameOn.refl S m
    · exact SameOn.refl S m
    · exact SameOn.refl S m
    · refine (sameOff_cpuCommSemUp m _).sameOn fun x hx => ?_
      have := h x hx
      omega

/-! ### Stores through pointers -/

def wrSlot (m : Bytes) (fifo : ℕ) : ℕ := fifoGetItemWr (ShMem.loadFifo m fifo)

/-- The message is put into the staging FIFO. -/
def ToFifo (dir : ℕ) (m : Bytes) (entry : ℕ) : Prop :=
  if dir = 0 then m.rd16 entry ≤ 4 else cpuCommIsMipsVa entry = false

instance (dir : ℕ) (m : Bytes) (entry : ℕ) : Decidable (ToFifo dir m entry) := by
  unfold ToFifo
  infer_instance

def storeSlot (dir : ℕ) (m : Bytes) (fifo entry : ℕ) : Bytes :=
  if ToFifo dir m entry ∧ wrSlot m fifo ≠ 0 then m.wr32 (wrSlot m fifo) entry else m

def waitSem (m : Bytes) (entry : ℕ) : ℕ := u32 (u32 (m.rd64 (entry + 32)) + 8)

def Wakes (m : Bytes) (entry : ℕ) : Prop :=
  m.rd64 (entry + 32) ≠ 0 ∧ cpuCommIsMipsVa (u32 (m.rd64 (entry + 32))) = false ∧
    m.rd32 (entry + 12) = m.rd32 (u32 (m.rd64 (entry + 32)))

instance (m : Bytes) (entry : ℕ) : Decidable (Wakes m entry) := inferInstanceAs (Decidable (_ ∧ _))

def storeWait (m : Bytes) (entry : ℕ) : Bytes :=
  if (m.rd16 (entry + 6)).testBit 1 = false ∧ Wakes m entry then
    cpuCommSemUp m (waitSem m entry)
  else m

/-- The stores to addresses that are taken from the shared memory: the slot of the staging FIFO, and
the count of the wait object of a return. -/
def storePointers (dir : ℕ) (m : Bytes) (fifo entry : ℕ) : Bytes :=
  if dir = 0 then storeSlot dir m fifo entry else storeWait (storeSlot dir m fifo entry) entry

/-- `S` is apart from the marks of the message at `e`, from the header of the FIFO of the sequence
`r` and from the data of the device from `d` on. -/
structure Aside (S : Set ℕ) (d dev r e : ℕ) : Prop where
  mark : ∀ x ∈ S, x < e + 2 ∨ e + 4 ≤ x
  flag : ∀ x ∈ S, x < e + 10 ∨ e + 12 ≤ x
  fifo : ∀ x ∈ S, x < r + 32 ∨ r + 60 ≤ x
  data : ∀ x ∈ S, x < d ∨ dev + 1632 ≤ x

/-- What is done with a message before it is counted. -/
def stage (dev dir : ℕ) (alloc : Bool) (m : Bytes) (r e : ℕ) : Bytes :=
  if dir = 0 then
    if m.rd16 e ≤ 4 then commAdd2NewCallFifo m (dev + 48) (r + 32) e
    else commAdd2Call2WQ alloc m e
  else IpcMem.addReturn2Fifo m (r + 32) e

/-- A message that has been received, staged and counted. -/
def staged (dev dir : ℕ) (alloc : Bool) (m : Bytes) (cpu r e : ℕ) : Bytes :=
  if dir = 0 then bump (stage dev dir alloc (receive m e cpu) r e) (dev + 4)
  else bump (bump (stage dev dir alloc (receive m e cpu) r e) dev) (dev + 1628)

lemma sameOn_storeSlot {fifo : ℕ} (h : ToFifo dir m e → wrSlot m fifo ≠ 0 →
    ∀ x ∈ S, x < wrSlot m fifo ∨ wrSlot m fifo + 4 ≤ x) :
    SameOn S m (storeSlot dir m fifo e) := by
  rw [storeSlot]
  split_ifs with hs
  · exact (sameOff_wr32 _ _ _).sameOn (h hs.1 hs.2)
  · exact SameOn.refl S m

lemma sameOn_stage (h : Aside S (dev + 48) dev r e) :
    SameOn S (storeSlot dir m (r + 32) e) (stage dev dir alloc m r e) := by
  have hfifo (m : Bytes) (c : CommFifo) : SameOn S m (ShMem.storeFifo m (r + 32) c) :=
    (ShMem.sameOff_storeFifo _ _ _).sameOn fun x hx => by
      have := h.fifo x hx
      omega
  have hflag (m : Bytes) (f : ℕ) : SameOn S m (IpcMem.setFlag m e f) :=
    (IpcMem.sameOff_setFlag _ _ _).sameOn h.flag
  simp only [storeSlot, stage, ToFifo, wrSlot, commAdd2NewCallFifo, commAdd2Call2WQ,
    IpcMem.addReturn2Fifo]
  by_cases h0 : dir = 0
  · by_cases hcmd : m.rd16 e ≤ 4
    · simp only [h0, hcmd, if_true, true_and, ne_eq, ite_not]
      split_ifs
      · exact .refl S m
      · exact hfifo _ _
      · exact ((hfifo _ _).trans (hflag _ _)).trans (sameOn_signalChannel h.data)
    · simp only [h0, hcmd, if_true, if_false, false_and]
      split_ifs
      · exact hflag m _
      · exact .refl S m
  · by_cases hva : cpuCommIsMipsVa e
    · simpa only [h0, hva, if_false, Bool.true_eq_false, false_and, if_true] using SameOn.refl S m
    · simp only [h0, hva, if_false, Bool.false_eq_true, true_and, ne_eq, ite_not]
      split_ifs
      · exact .refl S m
      · exact (hflag _ _).trans (hfifo _ _)

lemma storeSlot_receive (h : Aside S d dev r e) (hre : r + 60 ≤ e) :
    SameOn S (storeSlot dir m (r + 32) e) (storeSlot dir (receive m e cpu) (r + 32) e) := by
  have hoff := sameOff_receive m e cpu
  have hsame : SameOn S m (receive m e cpu) :=
    ((IpcMem.sameOff_setFlag m e 8).sameOn h.flag).trans ((sameOff_wr16 _ _ cpu).sameOn h.mark)
  simp only [storeSlot, ToFifo, wrSlot, ShMem.loadFifo_of_keeps
    (f := r + 32) (hoff.keeps (by omega)), hoff.rd16 (b := e) (by omega)]
  split_ifs
  all_goals first | exact hsame.wr32 _ _ | exact hsame

lemma sameOn_staged (h : Aside S dev dev r e) (hre : r + 60 ≤ e) :
    SameOn S (storeSlot dir m (r + 32) e) (staged dev dir alloc m cpu r e) := by
  have hbump (m : Bytes) {a : ℕ} (ha : dev ≤ a ∧ a + 4 ≤ dev + 1632) : SameOn S m (bump m a) :=
    (sameOff_bump m a).sameOn fun x hx => by
      have := h.data x hx
      omega
  have hstage : SameOn S (storeSlot dir m (r + 32) e)
      (stage dev dir alloc (receive m e cpu) r e) :=
    (storeSlot_receive h hre).trans (sameOn_stage ⟨h.mark, h.flag, h.fifo, fun x hx => by
      have := h.data x hx
      omega⟩)
  rw [staged]
  split_ifs
  · exact hstage.trans (hbump _ (by omega))
  · exact (hstage.trans (hbump _ (by omega))).trans (hbump _ (by omega))

lemma val_addReturn2Fifo (m : Bytes) (fifo data : ℕ) :
    (addReturn2Fifo m fifo data).val = some (IpcMem.addReturn2Fifo m fifo data) := by
  simp only [addReturn2Fifo, IpcMem.addReturn2Fifo]
  split_ifs <;> simp

lemma signalListed_spec {V : Set ℕ} {lb : ℕ} (entry : ℕ) (hL : Layout .waitObject lb V)
    (h : Holds .waitObject lb V (k + 1) s m) (hfuel : s.entries.length ≤ fuel) :
    ∃ r, (signalListed fuel m lb entry).val = some r ∧ ∀ S : Set ℕ,
      (∀ x ∈ S, x < lb ∨ lb + 80 ≤ x) → (∀ x ∈ S, x < entry + 10 ∨ entry + 12 ≤ x) →
      (∀ e ∈ V, ∀ x ∈ S, x < e ∨ e + 32 ≤ x) → SameOn S m r.1 := by
  have hk : k + 1 < 4294967296 := h.sem ▸ m.rd32_lt (lb + 68)
  obtain ⟨m', hfind, h', hoff⟩ := findWait_eq hL hk h hfuel (m.rd32 (entry + 12))
  have hfound {S : Set ℕ} (hS : ∀ x ∈ S, x < lb ∨ lb + 80 ≤ x) : SameOn S m m' :=
    hoff.sameOn fun x hx => by
      have := hS x hx
      omega
  simp only [signalListed, Logged.val_bind, Logged.val_silent, hfind, Option.bind_some]
  split_ifs with hzero hsession
  · exact ⟨_, rfl, fun S hS _ _ => hfound hS⟩
  · exact ⟨_, rfl, fun S hS _ _ => hfound hS⟩
  · refine ⟨_, rfl, fun S hS hflag hV => (hfound hS).trans
      (((IpcMem.sameOff_setFlag m' entry 0x40).sameOn hflag).trans ?_)⟩
    refine (sameOff_cpuCommSemUp _ _).sameOn fun x hx => ?_
    -- the object found is one of the list
    obtain ⟨e, he⟩ : ∃ e, s.find (m.rd32 (entry + 12)) = some e := by
      by_contra hnone
      rw [foundReply, Option.eq_none_iff_forall_ne_some.mpr fun e he => hnone ⟨e, he⟩] at hzero
      exact hzero rfl
    have hmem := h.mem e (mem_of_find he)
    have hle : e + 32 ≤ 4294967296 := hL.entry_le e hmem
    have hwait : (foundReply s (m.rd32 (entry + 12))).stored.getD 0 = e := by
      rw [foundReply, he]
      rfl
    have := hV e hmem x hx
    rw [hwait, u32_of_lt (by omega)]
    omega

lemma val_signalEmbedded (m : Bytes) (entry : ℕ) :
    (signalEmbedded m entry).val = some (if Wakes m entry then
      (cpuCommSemUp (IpcMem.setFlag m entry 0x40) (waitSem m entry), true) else (m, false)) := by
  simp only [signalEmbedded, Wakes, waitSem]
  split_ifs with hzero hva hsession hwakes hwakes hwakes hwakes
  all_goals simp_all

end Command

namespace IpcMem

open Command

variable (E : IpcMem) {cpu dir dev d r e lo hi k fuel : ℕ} {alloc : Bool} {s : MsgSeq}
  {m m' m₁ m₂ : Bytes}

/-! ### The property and its condition -/

/-- Where `command_action` counts a message. -/
def counter (dev dir : ℕ) : ℕ := if dir = 0 then dev + 4 else dev

/-- No other share sequence has changed, and with no message pending none has been counted. -/
structure Handled (dev cpu dir : ℕ) (m m' : Bytes) : Prop where
  confined : SameOn (E.foreign cpu dir) m m'
  marker : m.rd8 (E.seqR cpu dir + 16) = 20 →
    m'.rd32 (counter dev dir) = m.rd32 (counter dev dir)

/-- The index is not the mark for no message, and the stores through pointers, if there is a
message, change nothing in the other share sequences. -/
structure Orderly (cpu dir : ℕ) (m : Bytes) : Prop where
  index : m.rd8 (E.seqR cpu dir + 16) ≠ 20
  stores : m.rd8 (E.seqR cpu dir + 16) < 20 → SameOn (E.foreign cpu dir) m
    (storePointers dir m (E.seqR cpu dir + 32) (entryAt m (E.seqR cpu dir)))

/-- The pointers do not lead into the data of the driver, nor does the slot of a return into the
sequence that it is read from. -/
structure OwnApart (dev cpu dir : ℕ) (m : Bytes) : Prop where
  slot : ToFifo dir m (entryAt m (E.seqR cpu dir)) → wrSlot m (E.seqR cpu dir + 32) ≠ 0 →
    (wrSlot m (E.seqR cpu dir + 32) + 4 ≤ dev ∨ dev + 1632 ≤ wrSlot m (E.seqR cpu dir + 32)) ∧
    (dir = 1 → (wrSlot m (E.seqR cpu dir + 32) + 4 ≤ E.sockAt cpu + 40 ∨
        E.sockAt cpu + 932 ≤ wrSlot m (E.seqR cpu dir + 32)) ∧
      (wrSlot m (E.seqR cpu dir + 32) + 4 ≤ E.seqR cpu dir ∨
        E.seqR cpu dir + 2544 ≤ wrSlot m (E.seqR cpu dir + 32)))
  wait : dir = 1 → waitSem m (entryAt m (E.seqR cpu dir)) + 8 ≤ dev ∨
    dev + 1632 ≤ waitSem m (entryAt m (E.seqR cpu dir)) + 4

/-- The shared memory near to the other share sequences, without the messages and the FIFO of the
sequence `r`. -/
def around (r : ℕ) : Set ℕ :=
  {x | E.shMemAddrBase ≤ x ∧ x < E.shMemAddrBase + 19688 ∧ (x < r + 32 ∨ r + 2424 ≤ x)}

/-- `e` is the message that is read from the sequence `r`. -/
structure Message (cpu dir : ℕ) (m : Bytes) (r e : ℕ) : Prop where
  cpu_le : cpu ≤ 1
  dir_le : dir ≤ 1
  seq : E.seqR cpu dir = r
  entry : entryAt m r = e
  lt : m.rd8 (r + 16) < 21

variable {E}

lemma foreign_subset_around : E.foreign cpu dir ⊆ E.around (E.seqR cpu dir) := by
  rintro x ⟨hx, hr, -⟩
  exact ⟨by omega, by omega, by omega⟩

namespace Message

lemma le (h : E.Message cpu dir m r e) : (E.shMemAddrBase + 152 ≤ r ∧
    r + 2440 ≤ E.shMemAddrBase + 19672) ∧ r + 360 ≤ e ∧ e + 104 ≤ r + 2544 := by
  have hseq := (E.seq_le h.cpu_le h.dir_le).1
  have hlt := h.lt
  rw [h.seq] at hseq
  rw [← h.entry, entryAt]
  omega

lemma aside_around (h : E.Message cpu dir m r e) (hdev : E.DevPlace dev)
    (hlt : m.rd8 (r + 16) < 20) : Aside (E.around r) dev dev r e := by
  have hle := h.le
  have hmem := hdev.shMem
  have hend : e + 104 ≤ r + 2440 := by
    rw [← h.entry, entryAt]
    omega
  constructor
  all_goals
    rintro x ⟨hx, hx', hxr⟩
    omega

lemma aside_Ico (h₁ : hi ≤ e + 2 ∨ e + 4 ≤ lo) (h₂ : hi ≤ e + 10 ∨ e + 12 ≤ lo)
    (h₃ : hi ≤ r + 32 ∨ r + 60 ≤ lo) (h₄ : hi ≤ d ∨ dev + 1632 ≤ lo) :
    Aside (Set.Ico lo hi) d dev r e := by
  constructor
  all_goals
    rintro x ⟨hlo, hhi⟩
    omega

lemma sameOn_slot (h : E.Message cpu dir m r e) (hown : E.OwnApart dev cpu dir m)
    (hI : (dev ≤ lo ∧ hi ≤ dev + 1632) ∨ dir = 1 ∧ ((r ≤ lo ∧ hi ≤ r + 2544) ∨
      (E.sockAt cpu + 40 ≤ lo ∧ hi ≤ E.sockAt cpu + 932))) :
    SameOn (Set.Ico lo hi) m (storeSlot dir m (r + 32) e) := by
  refine sameOn_storeSlot fun hs h0 x ⟨hlo, hhi⟩ => ?_
  have hslot := hown.slot
  rw [h.seq, h.entry] at hslot
  have hapart := hslot hs h0
  omega

lemma rd32_staged (h : E.Message cpu dir m r e) (hdev : E.DevPlace dev)
    (hown : E.OwnApart dev cpu dir m) :
    (staged dev dir alloc m cpu r e).rd32 (counter dev dir) =
      u32 (m.rd32 (counter dev dir) + 1) := by
  have hle := h.le
  have hmem := hdev.shMem
  have hcounter : dev ≤ counter dev dir ∧ counter dev dir + 4 ≤ dev + 48 := by
    rw [counter]
    split_ifs <;> omega
  have haside : Aside (Set.Ico (counter dev dir) (counter dev dir + 4)) (dev + 48) dev r e :=
    aside_Ico (by omega) (by omega) (by omega) (by omega)
  have hread : (stage dev dir alloc (receive m e cpu) r e).rd32 (counter dev dir) =
      m.rd32 (counter dev dir) :=
    ((h.sameOn_slot hown (.inl (by omega))).trans ((storeSlot_receive haside (by omega)).trans
      (sameOn_stage haside))).keeps_Ico.rd32 le_rfl le_rfl
  unfold staged counter at *
  split_ifs at hread ⊢
  · rw [rd32_bump, hread]
  · rw [(sameOff_bump _ _).rd32 (by omega), rd32_bump, hread]

end Message

/-! ### Returns -/

/-- A count near to another share sequence is not affected by the stores before it. -/
lemma foreign_wait (hseq : E.seqR cpu 1 = r) (h : SameOn (E.around r) m₁ m₂)
    (hsession : m₂.rd32 (e + 12) = m₁.rd32 (e + 12)) (hptr : m₂.rd64 (e + 32) = m₁.rd64 (e + 32))
    (hflag : ∀ x ∈ E.around r, x < e + 10 ∨ e + 12 ≤ x) :
    SameOn (E.foreign cpu 1)
      (if Wakes m₁ e then cpuCommSemUp m₁ (waitSem m₁ e) else m₁)
      (if Wakes m₂ e then cpuCommSemUp (setFlag m₂ e 0x40) (waitSem m₂ e) else m₂) := by
  subst hseq
  have h₂ : SameOn (E.around (E.seqR cpu 1)) m₁ (setFlag m₂ e 0x40) :=
    h.trans ((sameOff_setFlag _ _ _).sameOn hflag)
  have hsub : E.foreign cpu 1 ⊆ E.around (E.seqR cpu 1) := foreign_subset_around
  have hsem : waitSem m₂ e = waitSem m₁ e := by rw [waitSem, hptr, waitSem]
  by_cases hhit : ∃ y ∈ E.foreign cpu 1, waitSem m₁ e + 4 ≤ y ∧ y < waitSem m₁ e + 8
  · obtain ⟨y, ⟨hy, hr, -⟩, hlo, hhi⟩ := hhit
    have hbase : 4096 ≤ E.shMemAddrBase := by
      have := E.base_pos
      have := E.base_aligned
      omega
    have ha : waitSem m₁ e = u32 (m₁.rd64 (e + 32)) + 8 := by
      simp only [waitSem, u32] at hlo hhi ⊢
      omega
    have hword {lo : ℕ} (hge : u32 (m₁.rd64 (e + 32)) ≤ lo)
        (hle : lo + 4 ≤ u32 (m₁.rd64 (e + 32)) + 16) {m : Bytes}
        (hm : SameOn (E.around (E.seqR cpu 1)) m₁ m) : m.rd32 lo = m₁.rd32 lo := by
      have hkeeps : Keeps lo (lo + 4) m₁ m :=
        hm.keeps fun x hx hx' => ⟨by omega, by omega, by omega⟩
      exact hkeeps.rd32 le_rfl le_rfl
    have hwakes : Wakes m₂ e ↔ Wakes m₁ e := by
      rw [Wakes, Wakes, hsession, hptr, hword le_rfl (by omega) h]
    have hne : waitSem m₁ e ≠ 0 := by omega
    simp only [hwakes, hsem]
    split_ifs
    · rw [cpuCommSemUp, cpuCommSemUp, if_neg hne, if_neg hne, semUp, semUp,
        hword (by omega) (by omega) h₂]
      exact SameOn.wr32 (fun x hx => h₂ x (hsub hx)) _ _
    · exact fun x hx => h x (hsub hx)
  · -- the count is not in another share sequence
    have hoff : ∀ x ∈ E.foreign cpu 1, x < waitSem m₁ e + 4 ∨ waitSem m₁ e + 8 ≤ x := by
      intro x hx
      by_contra hno
      exact hhit ⟨x, hx, by omega, by omega⟩
    have hleft : SameOn (E.foreign cpu 1)
        (if Wakes m₁ e then cpuCommSemUp m₁ (waitSem m₁ e) else m₁) m₁ := by
      split_ifs
      · exact ((sameOff_cpuCommSemUp _ _).sameOn hoff).symm
      · exact SameOn.refl _ _
    refine hleft.trans ?_
    rw [hsem]
    split_ifs
    · exact SameOn.trans (fun x hx => h₂ x (hsub hx)) ((sameOff_cpuCommSemUp _ _).sameOn hoff)
    · exact fun x hx => h x (hsub hx)

section Returns

variable (hm : E.Message cpu 1 m r e) (hdev : E.DevPlace dev)
include hm hdev

/-- The fields of a message that are read after it has been staged. -/
lemma keeps_staged (alloc : Bool) (hlo : e + 4 ≤ lo) (hhi : hi ≤ e + 104)
    (hflag : hi ≤ e + 10 ∨ e + 12 ≤ lo) :
    Keeps lo hi (storeSlot 1 m (r + 32) e) (staged dev 1 alloc m cpu r e) := by
  have hle := hm.le
  have hmem := hdev.shMem
  have haside : Aside (Set.Ico lo hi) dev dev r e :=
    Message.aside_Ico (by omega) hflag (by omega) (by omega)
  exact (sameOn_staged haside (by omega)).keeps_Ico

variable (hown : E.OwnApart dev cpu 1 m)
include hown

lemma holds_staged (alloc : Bool)
    (hwaits : Holds .waitObject (E.sockAt cpu + 40) (E.waitObjects cpu) k s m) :
    Holds .waitObject (E.sockAt cpu + 40) (E.waitObjects cpu) k s
      (staged dev 1 alloc m cpu r e) := by
  have hle := hm.le
  have hsock := E.sockAt_le hm.cpu_le
  have hapart := E.apart
  have hsocks := hdev.sock
  have haside : Aside (Set.Ico (E.sockAt cpu + 40) (E.sockAt cpu + 932)) dev dev r e :=
    Message.aside_Ico (by omega) (by omega) (by omega) (by omega)
  have hkeeps : Keeps (E.sockAt cpu + 40) (E.sockAt cpu + 932) m (staged dev 1 alloc m cpu r e) :=
    ((hm.sameOn_slot hown (.inr ⟨rfl, .inr ⟨le_rfl, le_rfl⟩⟩)).trans
      (sameOn_staged haside (by omega))).keeps_Ico
  refine hwaits.same ⟨?_, ?_, ?_⟩
  · exact fun x hlo hhi => hkeeps x (by omega) (by omega)
  · rintro _ ⟨i, hi, rfl⟩ x hlo hhi
    have hsession : EntryKind.waitObject.session = 0 := rfl
    exact hkeeps x (by omega) (by omega)
  · rintro _ ⟨i, hi, rfl⟩ x hlo hhi
    have hnode : EntryKind.waitObject.node = 24 := rfl
    exact hkeeps x (by omega) (by omega)

lemma listed_spec (alloc : Bool)
    (hwaits : Holds .waitObject (E.sockAt cpu + 40) (E.waitObjects cpu) (k + 1) s m)
    (hfuel : s.entries.length ≤ fuel) :
    ∃ x, (signalListed fuel (staged dev 1 alloc m cpu r e) (E.sockAt cpu + 40) e).val = some x ∧
      (m.rd8 (r + 16) < 20 → SameOn (E.foreign cpu 1) (storeSlot 1 m (r + 32) e) x.1) ∧
      x.1.rd32 dev = u32 (m.rd32 dev + 1) := by
  have hle := hm.le
  have hmem := hdev.shMem
  have hsocks := hdev.sock
  have hsock := E.sockAt_le hm.cpu_le
  have hapart := E.apart
  obtain ⟨x, hx, hsame⟩ := signalListed_spec e (E.layout_waitObjects hm.cpu_le)
    (holds_staged hm hdev hown alloc hwaits) hfuel
  refine ⟨x, hx, fun hlt => ?_, ?_⟩
  · have haside := hm.aside_around hdev hlt
    have hsub : E.foreign cpu 1 ⊆ E.around r := hm.seq ▸ foreign_subset_around
    refine SameOn.trans (fun y hy => sameOn_staged haside (by omega) y (hsub hy))
      (hsame _ (fun y hy => ?_) (fun y hy => haside.flag y (hsub hy)) ?_)
    · have := hy.1
      omega
    · rintro _ ⟨i, hi, rfl⟩ y hy
      have := hy.1
      omega
  · have hcount : (staged dev 1 alloc m cpu r e).rd32 dev = u32 (m.rd32 dev + 1) :=
      hm.rd32_staged hdev hown
    rw [(hsame (Set.Ico dev (dev + 4)) ?_ ?_ ?_).keeps_Ico.rd32 le_rfl le_rfl, hcount]
    · rintro y ⟨hlo, hhi⟩
      omega
    · rintro y ⟨hlo, hhi⟩
      omega
    · rintro _ ⟨i, hi, rfl⟩ y ⟨hlo, hhi⟩
      omega

lemma embedded_spec (alloc : Bool) :
    ∃ x, (signalEmbedded (staged dev 1 alloc m cpu r e) e).val = some x ∧
      (m.rd8 (r + 16) < 20 → SameOn (E.foreign cpu 1)
        (if Wakes (storeSlot 1 m (r + 32) e) e then cpuCommSemUp (storeSlot 1 m (r + 32) e)
          (waitSem (storeSlot 1 m (r + 32) e) e) else storeSlot 1 m (r + 32) e) x.1) ∧
      x.1.rd32 dev = u32 (m.rd32 dev + 1) := by
  have hle := hm.le
  have hmem := hdev.shMem
  have hcount : (staged dev 1 alloc m cpu r e).rd32 dev = u32 (m.rd32 dev + 1) :=
      hm.rd32_staged hdev hown
  have hkeeps : Keeps (e + 12) (e + 40) (storeSlot 1 m (r + 32) e) (staged dev 1 alloc m cpu r e) :=
    keeps_staged hm hdev alloc (by omega) (by omega) (by omega)
  refine ⟨_, val_signalEmbedded _ _, fun hlt => ?_, ?_⟩
  · have haside := hm.aside_around hdev hlt
    have hnear : SameOn (E.around r) (storeSlot 1 m (r + 32) e) (staged dev 1 alloc m cpu r e) :=
      sameOn_staged haside (by omega)
    have hwait := foreign_wait hm.seq hnear (hkeeps.rd32 le_rfl (by omega))
      (hkeeps.rd64 (by omega) le_rfl) haside.flag
    simp only [apply_ite Prod.fst]
    exact hwait
  · split_ifs
    · have hsem : waitSem (staged dev 1 alloc m cpu r e) e = waitSem m e := by
        have hslot : SameOn (Set.Ico (e + 32) (e + 40)) m (storeSlot 1 m (r + 32) e) :=
          hm.sameOn_slot hown (.inr ⟨rfl, .inl (by omega)⟩)
        have hread := hslot.keeps_Ico.rd64 le_rfl le_rfl
        rw [waitSem, hkeeps.rd64 (by omega) le_rfl, hread, waitSem]
      have hapart := hown.wait rfl
      rw [hm.seq, hm.entry] at hapart
      rw [hsem, (sameOff_cpuCommSemUp _ _).rd32 (by omega), (sameOff_setFlag _ _ _).rd32 (by omega),
        hcount]
    · exact hcount

lemma takeReturn_spec (size : ℕ) (hpos : 0 < dev)
    (hwaits : Holds .waitObject (E.sockAt cpu + 40) (E.waitObjects cpu) (k + 1) s m)
    (hfuel : s.entries.length ≤ fuel) :
    ∃ x, (takeReturn (E.globals size) dev fuel (receive m e cpu) cpu r e).val = some x ∧
      (m.rd8 (r + 16) < 20 → SameOn (E.foreign cpu 1) (storePointers 1 m (r + 32) e) x.1) ∧
      x.1.rd32 dev = u32 (m.rd32 dev + 1) := by
  have hkeeps : Keeps (e + 6) (e + 8) (storeSlot 1 m (r + 32) e) (staged dev 1 true m cpu r e) :=
    keeps_staged hm hdev true (by omega) (by omega) (by omega)
  have hack := hkeeps.rd16 le_rfl le_rfl
  have hval : (takeReturn (E.globals size) dev fuel (receive m e cpu) cpu r e).val =
      (if ((staged dev 1 true m cpu r e).rd16 (e + 6)).testBit 1 then
        signalListed fuel (staged dev 1 true m cpu r e) (E.sockAt cpu + 40) e
      else signalEmbedded (staged dev 1 true m cpu r e) e).val := by
    simp only [takeReturn, Logged.val_bind, val_addReturn2Fifo, Option.bind_some, countReturns,
      if_neg hpos.ne', globals_sock E hm.cpu_le]
    rfl
  rw [hval, hack, storePointers, if_neg one_ne_zero, storeWait]
  by_cases hbit : ((storeSlot 1 m (r + 32) e).rd16 (e + 6)).testBit 1
  · rw [if_pos hbit, if_neg fun h => by simp [hbit] at h]
    exact listed_spec hm hdev hown true hwaits hfuel
  · rw [if_neg hbit]
    simp only [Bool.eq_false_iff.mpr hbit, true_and]
    exact embedded_spec hm hdev hown true

end Returns

/-! ### The call -/

lemma commandAction_spec (size : ℕ) (alloc : Bool) (hm : E.Message cpu dir m r e)
    (hdev : E.DevPlace dev) (hpos : 0 < dev) (hown : E.OwnApart dev cpu dir m)
    (hwaits : Holds .waitObject (E.sockAt cpu + 40) (E.waitObjects cpu) (k + 1) s m)
    (hfuel : s.entries.length ≤ fuel) :
    ∃ m', (commandAction (E.globals size) dev fuel alloc m cpu dir).val = some m' ∧
      (m.rd8 (r + 16) < 20 →
        SameOn (E.foreign cpu dir) (storePointers dir m (r + 32) e) m') ∧
      m'.rd32 (counter dev dir) = u32 (m.rd32 (counter dev dir) + 1) := by
  have hle := hm.le
  have hmem := hdev.shMem
  have hW := (E.seq_le hm.cpu_le hm.dir_le).2
  have hack (m₁ : Bytes) : SameOn (E.foreign cpu dir) m₁
      (acknowledge (E.globals size).curCPUID m₁ r (E.seqW cpu dir)) :=
    sameOn_acknowledge (fun x hx => by
      have := hx.2.1
      rw [hm.seq] at this
      omega) fun x hx => hx.2.2
  have hcount (m₁ : Bytes) : (acknowledge (E.globals size).curCPUID m₁ r (E.seqW cpu dir)).rd32
      (counter dev dir) = m₁.rd32 (counter dev dir) := by
    have hge : dev ≤ counter dev dir ∧ counter dev dir ≤ dev + 4 := by
      rw [counter]
      split_ifs <;> omega
    refine (sameOn_acknowledge ?_ ?_).keeps_Ico.rd32 le_rfl le_rfl <;>
    · rintro x ⟨hlo, hhi⟩
      omega
  simp only [commandAction, if_neg (Nat.not_lt.mpr hm.cpu_le),
    E.globals_getShareSeqR hm.cpu_le hm.dir_le, E.globals_getShareSeqW hm.cpu_le hm.dir_le, hm.seq,
    hm.entry, show r ≠ 0 by omega, show E.seqW cpu dir ≠ 0 by omega, or_self, if_false,
    if_neg (Nat.not_le.mpr hm.lt)]
  obtain rfl | rfl : dir = 0 ∨ dir = 1 := by
    have := hm.dir_le
    omega
  · have htake : takeCall dev alloc (receive m e cpu) r e = staged dev 0 alloc m cpu r e := by
      simp only [takeCall, staged, stage, if_neg hpos.ne', if_true]
    rw [htake]
    refine ⟨_, rfl, fun hlt => ?_, (hcount _).trans (hm.rd32_staged hdev hown)⟩
    have hsub : E.foreign cpu 0 ⊆ E.around r := hm.seq ▸ foreign_subset_around
    exact SameOn.trans (fun x hx => sameOn_staged (hm.aside_around hdev hlt) (by omega) x (hsub hx))
      (hack _)
  · obtain ⟨x, hx, hsame, hbump⟩ := takeReturn_spec hm hdev hown size hpos hwaits hfuel
    simp only [one_ne_zero, if_false, Logged.val_bind, hx, Option.bind_some, Logged.val_pure]
    refine ⟨_, rfl, fun hlt => ?_, ?_⟩
    · split_ifs
      · exact (hsame hlt).trans (hack _)
      · exact hsame hlt
    · split_ifs
      · exact (hcount _).trans hbump
      · exact hbump

/-- The headers as the driver sets them up: the staging FIFO has its ring, and a wait object that a
return wakes is not in a share sequence. -/
lemma Orderly.of_places (hcpu : cpu ≤ 1) (hdir : dir ≤ 1)
    (hindex : m.rd8 (E.seqR cpu dir + 16) ≠ 20)
    (hfifo : Describes (ShMem.loadFifo m (E.seqR cpu dir + 32)) (E.ringAt cpu dir))
    (hwait : dir = 1 → waitSem m (entryAt m (E.seqR cpu dir)) + 8 ≤ E.shMemAddrBase + 152 ∨
      E.shMemAddrBase + 19672 ≤ waitSem m (entryAt m (E.seqR cpu dir)) + 4) :
    E.Orderly cpu dir m := by
  refine ⟨hindex, fun hlt => ?_⟩
  have hseq := (E.seq_le hcpu hdir).1
  have hentry : E.seqR cpu dir + 360 ≤ entryAt m (E.seqR cpu dir) ∧
      entryAt m (E.seqR cpu dir) + 104 ≤ E.seqR cpu dir + 2440 := by
    rw [entryAt]
    omega
  have hsock := E.sockAt_le hcpu
  have hend := E.sock_lt
  have hapart := E.apart
  have hring : E.ringAt cpu dir = E.sockAt cpu + 4 * (238 + 53 * dir) := rfl
  have hwr := hfifo.wr_lt
  have hslot {S : Set ℕ} (hS : ∀ x ∈ S, E.shMemAddrBase ≤ x ∧ x < E.shMemAddrBase + 19672) :
      SameOn S m
        (storeSlot dir m (E.seqR cpu dir + 32) (entryAt m (E.seqR cpu dir))) := by
    refine sameOn_storeSlot fun _ h0 x hx => ?_
    have hx := hS x hx
    rw [wrSlot, hfifo.getItemWr (by omega) fun hfull => h0 (hfifo.getItemWr_full hfull)]
    omega
  have hforeign := hslot (S := E.foreign cpu dir) fun x hx => by
    have := hx.1
    omega
  rw [storePointers]
  split_ifs with h0
  · exact hforeign
  · refine hforeign.trans ?_
    have hread : waitSem (storeSlot dir m (E.seqR cpu dir + 32) (entryAt m (E.seqR cpu dir)))
        (entryAt m (E.seqR cpu dir)) = waitSem m (entryAt m (E.seqR cpu dir)) := by
      have hkeeps := (hslot (S := Set.Ico (entryAt m (E.seqR cpu dir) + 32)
        (entryAt m (E.seqR cpu dir) + 40)) fun x hx => by
          have := hx.1
          have := hx.2
          omega).keeps fun x hlo hhi => ⟨hlo, hhi⟩
      rw [waitSem, hkeeps.rd64 le_rfl le_rfl, waitSem]
    rw [storeWait]
    split_ifs
    · rw [hread]
      refine (sameOff_cpuCommSemUp _ _).sameOn fun x hx => ?_
      have := hx.1
      omega
    · exact SameOn.refl _ _

/-- `command_action` leaves the other share sequences alone and processes no mark, exactly if the
index is not the mark and the stores through the two pointers do not change the other sequences. -/
theorem commandAction_confined (size : ℕ) (alloc : Bool) (hdev : E.DevPlace dev) (hpos : 0 < dev)
    (hown : m.rd8 (E.seqR cpu dir + 16) < 21 → E.OwnApart dev cpu dir m)
    (hwaits : Holds .waitObject (E.sockAt cpu + 40) (E.waitObjects cpu) (k + 1) s m)
    (hfuel : s.entries.length ≤ fuel) :
    (1 < cpu ∨ 1 < dir → (commandAction (E.globals size) dev fuel alloc m cpu dir).val = some m) ∧
    (cpu ≤ 1 → dir ≤ 1 →
      ∃ m', (commandAction (E.globals size) dev fuel alloc m cpu dir).val = some m' ∧
        (E.Handled dev cpu dir m m' ↔ E.Orderly cpu dir m)) := by
  refine ⟨fun hout => ?_, fun hcpu hdir => ?_⟩
  · by_cases hcpu : cpu > 1
    · rw [commandAction, if_pos hcpu]
      rfl
    · have hzero : (E.globals size).getShareSeqR cpu dir = 0 := by
        rw [CommGlobals.getShareSeqR, if_pos (by omega)]
      simp only [commandAction, if_neg hcpu, hzero, true_or, if_true]
      rfl
  · rcases Nat.lt_or_ge (m.rd8 (E.seqR cpu dir + 16)) 21 with hlt | hge
    · obtain ⟨m', hm', hsame, hcount⟩ := commandAction_spec size alloc
        ⟨hcpu, hdir, rfl, rfl, hlt⟩ hdev hpos (hown hlt) hwaits hfuel
      refine ⟨m', hm', fun h => ⟨fun h20 => ?_, fun h20 => ?_⟩, fun h => ⟨?_, fun h20 => ?_⟩⟩
      · have hword := m.rd32_lt (counter dev dir)
        rw [h.marker h20, u32] at hcount
        omega
      · exact h.confined.trans (hsame h20).symm
      · have h20 : m.rd8 (E.seqR cpu dir + 16) < 20 := by
          have := h.index
          omega
        exact (h.stores h20).trans (hsame h20)
      · exact absurd h20 h.index
    · have hseq := E.seq_le hcpu hdir
      refine ⟨m, ?_, iff_of_true ⟨SameOn.refl _ m, fun _ => rfl⟩ ⟨by omega, fun h20 => ?_⟩⟩
      · simp only [commandAction, if_neg (Nat.not_lt.mpr hcpu), E.globals_getShareSeqR hcpu hdir,
          E.globals_getShareSeqW hcpu hdir, show E.seqR cpu dir ≠ 0 by omega,
          show E.seqW cpu dir ≠ 0 by omega, or_self, if_false, if_pos hge]
        rfl
      · omega

end IpcMem

namespace Command

open IpcMem

def boardIpc : IpcMem where
  shMemAddrBase := 65536
  shMemAddr := 65536
  commSockt := 262144
  base_pos := by decide
  addr_pos := by decide
  base_aligned := by decide
  addr_aligned := by decide
  base_lt := by decide
  addr_lt := by decide
  sock_pos := by decide
  sock_lt := by decide
  apart := by decide

def idleSeq (idx : ℕ) : Bytes :=
  ((Bytes.wrWords ⟨fun _ => 0⟩ 73040 [0, 0, 0, 0, 21, 4, 268300]).wrWords 267228
    [0, 267232, 267232, 0, 1]).wr8 73024 idx

lemma devPlace_board : boardIpc.DevPlace 4096 := ⟨by decide, by decide⟩

lemma ownApart_idleSeq {idx : ℕ} (h : idx = 0 ∨ idx = 20) :
    boardIpc.OwnApart 4096 1 1 (idleSeq idx) := by
  rcases h with rfl | rfl
  all_goals exact ⟨by decide +kernel, by decide +kernel⟩

lemma holds_idleSeq {idx : ℕ} (h : idx = 0 ∨ idx = 20) :
    Holds .waitObject (boardIpc.sockAt 1 + 40) (boardIpc.waitObjects 1) 1 ⟨[], fun _ => 0⟩
      (idleSeq idx) := by
  rcases h with rfl | rfl
  all_goals
    refine ⟨⟨by decide +kernel, by decide +kernel⟩, by decide +kernel, by decide +kernel,
      List.nodup_nil, fun e he => absurd he List.not_mem_nil, ?_⟩
    rintro e ⟨i, hi, rfl⟩
    have hread (i : Fin 20) : (idleSeq 0).rd32 (boardIpc.sockAt 1 + 292 + 32 * i.1 + 0) = 0 ∧
        (idleSeq 20).rd32 (boardIpc.sockAt 1 + 292 + 32 * i.1 + 0) = 0 := by
      revert i
      decide +kernel
  · exact (hread ⟨i, hi⟩).1
  · exact (hread ⟨i, hi⟩).2

lemma orderly_idleSeq : boardIpc.Orderly 1 1 (idleSeq 0) :=
  .of_places le_rfl le_rfl (by decide +kernel)
    ⟨by decide +kernel, by decide +kernel, by decide +kernel, by decide +kernel, by decide +kernel⟩
    fun _ => .inl (by decide +kernel)

/-- A return in the first slot, and the mark. -/
theorem commandAction_confined_first :
    (∃ m', (commandAction (boardIpc.globals 0) 4096 0 true (idleSeq 0) 1 1).val = some m' ∧
      SameOn (boardIpc.foreign 1 1) (idleSeq 0) m') ∧
    ∃ m', (commandAction (boardIpc.globals 0) 4096 0 true (idleSeq 20) 1 1).val = some m' ∧
      ¬ boardIpc.Handled 4096 1 1 (idleSeq 20) m' := by
  obtain ⟨m', hm', hiff⟩ := (commandAction_confined 0 true
    devPlace_board (by decide) (fun _ => ownApart_idleSeq (.inl rfl)) (holds_idleSeq (.inl rfl))
    le_rfl).2 le_rfl le_rfl
  obtain ⟨m'', hm'', hiff'⟩ := (commandAction_confined 0 true
    devPlace_board (by decide) (fun _ => ownApart_idleSeq (.inr rfl)) (holds_idleSeq (.inr rfl))
    le_rfl).2 le_rfl le_rfl
  refine ⟨⟨m', hm', (hiff.mpr orderly_idleSeq).confined⟩, m'', hm'', fun h => ?_⟩
  exact (hiff'.mp h).index (by decide +kernel)

/-- With no message the direction of the next sequence becomes 1. -/
theorem commandAction_marker :
    boardIpc.DevPlace 4096 ∧ boardIpc.OwnApart 4096 1 1 (idleSeq 20) ∧
    Holds .waitObject (boardIpc.sockAt 1 + 40) (boardIpc.waitObjects 1) 1 ⟨[], fun _ => 0⟩
      (idleSeq 20) ∧
    ∃ m', (commandAction (boardIpc.globals 0) 4096 0 true (idleSeq 20) 1 1).val = some m' ∧
      75450 ∈ boardIpc.foreign 1 1 ∧ (idleSeq 20).rd8 75450 = 0 ∧ m'.rd8 75450 = 1 ∧
      (idleSeq 20).rd32 4096 = 0 ∧ m'.rd32 4096 = 1 := by
  refine ⟨devPlace_board, ownApart_idleSeq (.inr rfl), holds_idleSeq (.inr rfl), ?_⟩
  have hrun : (commandAction (boardIpc.globals 0) 4096 0 true (idleSeq 20) 1 1).val.map
      (fun m => (m.rd8 75450, m.rd32 4096)) = some (1, 1) := by decide +kernel
  obtain ⟨m', hm', hbytes⟩ := Option.map_eq_some_iff.mp hrun
  obtain ⟨hbyte, hcount⟩ := Prod.mk.inj hbytes
  exact ⟨m', hm', ⟨by decide, by decide, by decide⟩, by decide +kernel, hbyte, by decide +kernel,
    hcount⟩

end Command

end CpuComm
