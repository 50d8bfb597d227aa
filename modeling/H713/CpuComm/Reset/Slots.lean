import H713.CpuComm.Smm.Slots
import H713.CpuComm.Reset.Invariant

/-!
# The call slots after a reset of the MIPS

The reset fills the FreeCall FIFOs of the share sequences of the MIPS anew. What was in a CallCmd or
a ReturnCmd FIFO or on the ReturnList is still there, and the same entries are free as well.
-/

namespace CpuComm

open Machine Bytes

namespace IpcMem

variable {E : IpcMem} {m m' : Bytes}

/-! ### The bytes that a reset leaves -/

/-- Neither a lock, nor a flag of a CPU, nor in the table of routines, nor a byte of a share
sequence that its initialisation writes. -/
structure Kept (E : IpcMem) (x : ℕ) : Prop where
  lock : x < E.shMemAddrBase ∨ E.shMemAddrBase + 144 ≤ x
  flag : x < E.shMemAddrBase + 19676 ∨ E.shMemAddrBase + 19684 ≤ x
  routine : x < E.shMemAddrBase + 30144 ∨ E.shMemAddrBase + 147656 ≤ x
  seq : ∀ cpu < 2, ∀ remote < 2, ∀ dir < 2, ShMem.Spared (E.getShareSeq cpu remote dir) x

lemma sameOff_cleanUpSpinLocks (cpu : ℕ) (m : Bytes) :
    SameOff E.shMemAddrBase (E.shMemAddrBase + 144) m (E.cleanUpSpinLocks cpu m) := by
  refine sameOff_loop (fun i m hi => ?_) m
  dsimp only
  split_ifs
  · exact (((SameOff.refl _ _ m).wr8 (by omega)).wr32 (by omega)).wr32 (by omega)
  · exact .refl _ _ m

lemma sameOff_routineCleanup (cpu : ℕ) (m : Bytes) :
    SameOff (E.shMemAddrBase + 30144) (E.shMemAddrBase + 147656) m
      (E.routineCleanupInCPUReset cpu m) := by
  have hbump : ∀ m, SameOff (E.shMemAddrBase + 30144) (E.shMemAddrBase + 147656) m
      (bump m (E.shMemAddrBase + 30144)) :=
    fun m => (sameOff_wr32 m _ _).mono le_rfl (by omega)
  refine ((hbump m).trans (sameOff_loop (fun i m hi => ?_) _)).trans (hbump _)
  dsimp only
  split_ifs
  · exact .refl _ _ m
  · exact ((SameOff.refl _ _ m).wr32 (by omega)).wr32 (by omega)
  · exact .refl _ _ m

lemma Kept.cpuFlag {x cpu : ℕ} (hx : E.Kept x) (hcpu : cpu < 2) (m : Bytes) (v : ℕ) :
    (m.wr32 (E.cpuFlag cpu) v).byte x = m.byte x := by
  have hflag := hx.flag
  refine sameOff_wr32 m _ v x ?_
  rw [IpcMem.cpuFlag]
  omega

lemma Kept.reinit {x cpu : ℕ} (hx : E.Kept x) (hcpu : cpu < 2) (m : Bytes) :
    (E.reinitSequences cpu m).byte x = m.byte x := by
  have hinit : ∀ c < 2, ∀ r < 2, ∀ m, (E.initCommShareSeqMem c r m).byte x = m.byte x :=
    fun c hc r hr m => (E.initCommShareSeqMem_spec hc hr m).2 x (hx.seq c hc r hr)
  rw [reinitSequences, hinit _ hcpu _ (by decide), hinit _ (by decide) _ hcpu,
    hinit _ hcpu _ (by decide), hinit _ (by decide) _ hcpu]

lemma Kept.setCPUReset {x : ℕ} (hx : E.Kept x) (cpu phase : ℕ) (m : Bytes) :
    (E.setCPUReset cpu phase m).byte x = m.byte x := by
  rw [IpcMem.setCPUReset]
  split_ifs with hcpu hmagic hphase hphase'
  · rfl
  · dsimp only
    rw [hx.cpuFlag (by decide), hx.cpuFlag (by decide), hx.cpuFlag (by omega)]
  · rw [hx.reinit (by omega), sameOff_routineCleanup cpu _ x hx.routine,
      sameOff_cleanUpSpinLocks cpu _ x hx.lock, checkNoticeReqedJob, hx.cpuFlag (by decide)]
  · rfl
  · rfl

lemma spared_of_outside {x : ℕ} (hx : x < E.shMemAddrBase + 152 ∨ E.shMemAddrBase + 19672 ≤ x) :
    ∀ cpu < 2, ∀ remote < 2, ∀ dir < 2, ShMem.Spared (E.getShareSeq cpu remote dir) x := by
  intro cpu hc remote hr dir hd
  rw [ShMem.getShareSeq]
  rcases hx with hx | hx
  · exact .inl (by omega)
  · exact .inr (.inl (by omega))

lemma spared_of_own {x : ℕ} (cpu remote dir : ℕ)
    (hlo : E.getShareSeq cpu remote dir ≤ x) (hhi : x < E.getShareSeq cpu remote dir + 2440)
    (h : ShMem.Spared (E.getShareSeq cpu remote dir) x) :
    ∀ c < 2, ∀ r < 2, ∀ d < 2, ShMem.Spared (E.getShareSeq c r d) x := by
  intro c hc' r hr' d hd'
  have hseq : ∀ c r d, E.getShareSeq c r d = E.shMemAddrBase + 152 + 2440 *
    (4 * c + 2 * r + d) := by
    intro c r d
    rw [ShMem.getShareSeq]
    omega
  rw [hseq] at hlo hhi h
  rw [hseq]
  rcases Nat.lt_trichotomy (4 * c + 2 * r + d) (4 * cpu + 2 * remote + dir) with hlt | heq | hgt
  · exact .inr (.inl (by omega))
  · rwa [heq]
  · exact .inl (by omega)

lemma kept_sock {x : ℕ} (hlo : E.commSockt ≤ x) (hhi : x < E.commSockt + 9984) : E.Kept x := by
  have hapart := E.apart
  exact ⟨by omega, by omega, by omega, spared_of_outside (by omega)⟩

lemma kept_own {x : ℕ} (cpu remote dir : ℕ) (hc : cpu < 2) (hr : remote < 2) (hd : dir < 2)
    (hlo : E.getShareSeq cpu remote dir ≤ x) (hhi : x < E.getShareSeq cpu remote dir + 2440)
    (h : ShMem.Spared (E.getShareSeq cpu remote dir) x) : E.Kept x := by
  have hseq : E.getShareSeq cpu remote dir
      = E.shMemAddrBase + 9760 * cpu + 4880 * remote + 2440 * dir + 152 := rfl
  exact ⟨by omega, by omega, by omega, spared_of_own cpu remote dir hlo hhi h⟩

lemma kept_node {a x : ℕ} (ha : a ∈ E.nodes) (hlo : a ≤ x) (hhi : x < a + 8) : E.Kept x := by
  obtain ⟨slot, hs, rfl⟩ := node_eq ha
  have hseq : E.getShareSeq 0 1 1 = E.shMemAddrBase + 7472 := by
    rw [ShMem.getShareSeq]
  have hseq' : E.getShareSeq 1 0 0 = E.shMemAddrBase + 9912 := by
    rw [ShMem.getShareSeq]
  by_cases h20 : slot = 20
  · exact kept_own 1 0 0 (by decide) (by decide) (by decide)
      (by omega) (by omega) (.inr (.inr (.inl ⟨by omega, by omega⟩)))
  · exact kept_own 0 1 1 (by decide) (by decide) (by decide)
      (by omega) (by omega) (.inr (.inr (.inr (.inr ⟨slot, by omega, by omega, by omega⟩))))

lemma Inv.kept_of_reserved (h : E.Inv m) {x : ℕ} (hx : E.Reserved m x) : E.Kept x := by
  have hring := E.cmdRing_eq 1
  have hlist := E.returnList_eq
  rcases hx with hx | hx | ⟨dir, hd, hx⟩ | hx | hx | ⟨a, ha, hx⟩
  · exact ⟨by omega, by omega, by omega, spared_of_outside (by omega)⟩
  · exact ⟨by omega, by omega, by omega, spared_of_outside (by omega)⟩
  · have hfifo : E.cmdFifo dir = E.getShareSeq 0 1 dir + 32 := rfl
    exact kept_own 0 1 dir (by decide) (by decide) hd (by omega) (by omega)
      (.inr (.inr (.inl ⟨by omega, by omega⟩)))
  · exact kept_sock (by omega) (by omega)
  · exact kept_sock (by omega) (by omega)
  · exact kept_node (h.linked.node a ha) hx.1 hx.2

/-! ### Runs -/

lemma loadFifo_stagingFifo (m : Bytes) (seq : ℕ) {ring : ℕ} (h : ring < 4294967296)
    (name : String) :
    ShMem.loadFifo (ShMem.stagingFifo m seq ring name) (seq + 32) = ⟨0, 0, 0, 1, 21, 4, ring⟩ := by
  rw [ShMem.stagingFifo, ShMem.loadFifo_of_keeps ((sameOff_wr32 _ _ _).keeps (by omega)),
    ShMem.loadFifo_of_keeps ((sameOff_strncpy _ _ _ _).keeps (by omega)),
    ShMem.loadFifo_wrWords m _ h]

lemma loadFifo_initCommSeqMem (m : Bytes) {dir : ℕ} (hd : dir < 2) :
    ShMem.loadFifo (E.initCommSeqMem 1 m) (E.cmdFifo dir)
      = ⟨0, 0, 0, 1, 21, 4, E.cmdRing dir⟩ := by
  have hsock := E.sock_lt
  have hseq : ∀ c r d, E.getShareSeq c r d
      = E.shMemAddrBase + 9760 * c + 4880 * r + 2440 * d + 152 := fun _ _ _ => rfl
  have hfifo : E.cmdFifo dir = E.getShareSeq 0 1 dir + 32 := rfl
  have hkeep : ∀ m r d name, Keeps (E.cmdFifo dir) (E.cmdFifo dir + 28) m
      (E.mipsStagingFifo m (E.getShareSeq 1 r d) name) := by
    intro m r d name
    have h₁ := hseq 0 1 dir
    have h₂ := hseq 1 r d
    exact (E.sameOff_mipsStagingFifo m _ _).keeps (by omega)
  rw [ShMem.initCommSeqMem]
  rw [if_pos rfl, ShMem.loadFifo_of_keeps ((((hkeep _ 0 0 _).trans (hkeep _ 0 1 _)).trans
    (hkeep _ 1 0 _)).trans (hkeep _ 1 1 _)), hfifo]
  obtain rfl | rfl : dir = 1 ∨ dir = 0 := by omega
  · exact loadFifo_stagingFifo _ _ (by omega) _
  · have h₀ := hseq 0 1 0
    have h₁ := hseq 0 1 1
    rw [ShMem.loadFifo_of_keeps ((ShMem.sameOff_stagingFifo _ _ _ _).keeps (by omega))]
    exact loadFifo_stagingFifo _ _ (by omega) _

lemma not_pending_of_eq {c : CommFifo} (h : c.rdIdx = c.wrIdx) (i : ℕ) : ¬Pending c i := by
  rw [Pending, if_pos h.le]
  omega

lemma start_spec (m : Bytes) :
    E.MagicSet (E.start m) ∧
      (∀ dir < 2, ShMem.loadFifo (E.start m) (E.cmdFifo dir)
        = ⟨0, 0, 0, 1, 21, 4, E.cmdRing dir⟩) ∧
      ∀ i < 2, (E.start m).rd32 (E.returnList + 4 * i) = E.returnList := by
  have hapart := E.apart
  have hsock := E.sock_lt
  have hlist := E.returnList_eq
  rw [IpcMem.start]
  -- everything but the first step stays off the sockets
  have hhead := fun i (hi : i < 2) => rd32_wrWords m E.returnList [E.returnList, E.returnList]
    (i := i) hi
  generalize m.wrWords E.returnList [E.returnList, E.returnList] = m₁ at *
  have hfirst : E.SeqRange m₁ (E.initCommShareSeqMem 0 1 (E.initCommShareSeqMem 0 0
      (E.initCommSeqMem 0 m₁))) :=
    ((E.sameOff_initCommSeqMem (by decide) m₁).trans (E.sameOff_initCommShareSeqMem (by decide)
      (by decide) _)).trans (E.sameOff_initCommShareSeqMem (by decide) (by decide) _)
  generalize E.initCommShareSeqMem 0 1 (E.initCommShareSeqMem 0 0 (E.initCommSeqMem 0 m₁)) = m₂ at *
  have hsecond := E.sameOff_initCommSeqMem (show 1 < 2 by decide) m₂
  have hload := fun dir (hd : dir < 2) => loadFifo_initCommSeqMem (E := E) m₂ hd
  generalize E.initCommSeqMem 1 m₂ = m₃ at *
  have hthird : E.SeqRange m₃ (E.initCommShareSeqMem 1 1 (E.initCommShareSeqMem 1 0 m₃)) :=
    (E.sameOff_initCommShareSeqMem (by decide) (by decide) _).trans
      (E.sameOff_initCommShareSeqMem (by decide) (by decide) _)
  have hheader : ∀ dir < 2, Keeps (E.cmdFifo dir) (E.cmdFifo dir + 28) m₃
      (E.initCommShareSeqMem 1 1 (E.initCommShareSeqMem 1 0 m₃)) := by
    intro dir hd x hlo hhi
    have hfifo : E.cmdFifo dir = E.getShareSeq 0 1 dir + 32 := rfl
    have hspared := spared_of_own (E := E) (x := x) 0 1 dir (by omega) (by omega)
      (.inr (.inr (.inl ⟨by omega, by omega⟩)))
    exact ((E.initCommShareSeqMem_spec (by decide) (by decide) _).2 x
      (hspared 1 (by decide) 1 (by decide))).trans
      ((E.initCommShareSeqMem_spec (by decide) (by decide) _).2 x
        (hspared 1 (by decide) 0 (by decide)))
  generalize E.initCommShareSeqMem 1 1 (E.initCommShareSeqMem 1 0 m₃) = m₄ at *
  have hmagic₁ := sameOff_wr32 m₄ (E.shMemAddrBase + 144) cpuCommMagic
  have hword₁ := rd32_wr32_self m₄ (E.shMemAddrBase + 144) cpuCommMagic
  generalize m₄.wr32 (E.shMemAddrBase + 144) cpuCommMagic = m₅ at *
  have hmagic₂ := sameOff_wr32 m₅ (E.shMemAddrBase + 30136) cpuCommMagic
  have hword₂ := rd32_wr32_self m₅ (E.shMemAddrBase + 30136) cpuCommMagic
  generalize m₅.wr32 (E.shMemAddrBase + 30136) cpuCommMagic = m₆ at *
  refine ⟨⟨?_, hword₂⟩, fun dir hd => ?_, fun i hi => ?_⟩
  · rw [hmagic₂.rd32 (by omega)]
    exact hword₁
  · have hfifo := E.cmdFifo_eq dir
    rw [ShMem.loadFifo_of_keeps (((hheader dir hd).trans (hmagic₁.keeps (by omega))).trans
      (hmagic₂.keeps (by omega))), hload dir hd]
  · rw [hmagic₂.rd32 (by omega), hmagic₁.rd32 (by omega), hthird.rd32 (by omega),
      hsecond.rd32 (by omega), hfirst.rd32 (by omega), hhead i hi]
    obtain rfl | rfl : i = 0 ∨ i = 1 := by omega
    · exact u32_of_lt (show E.returnList < 4294967296 by omega)
    · exact u32_of_lt (show E.returnList < 4294967296 by omega)

lemma Inv.start (m : Bytes) : E.Inv (E.start m) := by
  obtain ⟨hmagic, hempty, hlist⟩ := start_spec (E := E) m
  refine ⟨hmagic, fun dir hd => ?_, fun i hi => ?_,
    linked_empty (hlist 0 (by decide)) (hlist 1 (by decide))⟩
  · rw [hempty dir hd]
    exact ⟨show 0 < 21 by decide, show 0 < 21 by decide, rfl, rfl, rfl⟩
  · rw [hempty 1 (by decide)] at hi
    exact (not_pending_of_eq rfl i hi).elim

lemma Inv.step {e : Event} (h : E.Inv m) (hok : E.Ok m e) (hs : E.step m e = some m') :
    E.Inv m' := by
  cases e with
  | ret slot =>
    cases hs
    rcases addReturn2Fifo_cases h hok with heq | hst
    · rwa [heq]
    · exact h.staged (by decide) hok hst
  | call slot =>
    cases hs
    rcases commAdd2NewCallFifo_cases h hok with heq | hst
    · rwa [heq]
    · exact h.staged (by decide) hok hst
  | getReturn session fuel => exact h.getReturn hs
  | reset cpu phase =>
    cases hs
    exact h.of_reserved fun x hx => (h.kept_of_reserved hx).setCPUReset cpu phase m
  | store addr val =>
    cases hs
    refine h.of_reserved fun x hx => sameOff_wr8 m addr val x ?_
    have hne : x ≠ addr := fun heq => hok (heq ▸ hx)
    omega

/-! ### The slots -/

structure MipsSeq where
  cpu : ℕ
  remote : ℕ
  dir : ℕ
  cpu_lt : cpu < 2
  remote_lt : remote < 2
  dir_lt : dir < 2
  mips : cpu = cpuIdMips ∨ remote = cpuIdMips

namespace MipsSeq

variable (q : MipsSeq)

def addr (E : IpcMem) : ℕ := E.getShareSeq q.cpu q.remote q.dir

def slot (E : IpcMem) (j : ℕ) : ℕ := q.addr E + 360 + 104 * j

def ring (E : IpcMem) : ℕ :=
  if q.cpu = cpuIdArm then E.commSockt + 4992 * q.remote + 4 * (238 + 53 * q.dir)
  else q.addr E + 276

end MipsSeq

def Refers (E : IpcMem) (item v : ℕ) : Prop :=
  item = v ∨ item = E.vir2phy v ∨ item = 0xA0000000 + E.vir2phy v % 0x20000000

def FreeOnce (E : IpcMem) (m : Bytes) : Prop :=
  ∀ (q : MipsSeq), ∀ j < 20, ∃! i, Pending (ShMem.loadFifo m (q.addr E + 120)) i ∧
    m.rd32 (q.addr E + 192 + 4 * i) = E.vir2phy (q.slot E j)

/-- No slot is in a CallCmd or ReturnCmd FIFO or on the ReturnList. -/
structure NoReference (E : IpcMem) (m : Bytes) : Prop where
  staged : ∀ (q : MipsSeq) i, Pending (ShMem.loadFifo m (q.addr E + 32)) i →
    ∀ (q' : MipsSeq), ∀ j < 20, ¬E.Refers (m.rd32 (q.ring E + 4 * i)) (q'.slot E j)
  listed : ∀ (q : MipsSeq), ∀ j < 20, ¬OnList m E.returnList (nodeOf (q.slot E j))

variable (q : MipsSeq)

lemma MipsSeq.addr_eq :
    q.addr E = E.shMemAddrBase + 9760 * q.cpu + 4880 * q.remote + 2440 * q.dir + 152 := rfl

lemma existsUnique_of_fresh {seq : ℕ} (h : E.Fresh seq m) (hlo : E.shMemAddrBase ≤ seq)
    (hhi : seq + 2440 ≤ E.shMemAddrBase + 192512) {j : ℕ} (hj : j < 20) :
    ∃! i, Pending (ShMem.loadFifo m (seq + 120)) i ∧
      m.rd32 (seq + 192 + 4 * i) = E.vir2phy (seq + 360 + 104 * j) := by
  have hpending : ∀ i, Pending (ShMem.loadFifo m (seq + 120)) i ↔ i < 20 := by
    intro i
    simp only [h.fifo, Pending, ShMem.freeCall, Nat.zero_le, if_true, true_and]
    omega
  refine ⟨j, ⟨(hpending j).mpr hj, h.item j hj⟩, ?_⟩
  rintro i ⟨hi, hitem⟩
  have hi := (hpending i).mp hi
  rw [h.item i hi, ShMem.vir2phy_eq (by omega) (by omega), ShMem.vir2phy_eq (by omega) (by omega)]
    at hitem
  omega

lemma fresh_initCommShareSeqMem {q : MipsSeq} {c r : ℕ} (hc : c < 2) (hr : r < 2)
    (h : E.Fresh (q.addr E) m) : E.Fresh (q.addr E) (E.initCommShareSeqMem c r m) := by
  by_cases heq : c = q.cpu ∧ r = q.remote
  · obtain ⟨rfl, rfl⟩ := heq
    exact (E.initCommShareSeqMem_spec hc hr m).1 q.dir q.dir_lt
  · refine h.of_keeps fun x hlo hhi => (E.initCommShareSeqMem_spec hc hr m).2 x fun d hd => ?_
    have hq := q.addr_eq (E := E)
    have := q.remote_lt
    have := q.dir_lt
    rw [ShMem.getShareSeq]
    by_cases hlt : 2 * c + r < 2 * q.cpu + q.remote
    · exact .inr (.inl (by omega))
    · exact .inl (by omega)

lemma fresh_reset (h : E.MagicSet m) :
    E.Fresh (q.addr E) (E.setCPUReset cpuIdMips 1 m) := by
  have hdec : ¬ cpuIdMips > 1 := by decide
  rw [setCPUReset, if_neg hdec, if_neg (not_not_intro h), if_neg (by decide), if_pos rfl,
    reinitSequences]
  generalize E.routineCleanupInCPUReset cpuIdMips _ = m₁
  have hown : ∀ m, E.Fresh (q.addr E) (E.initCommShareSeqMem q.cpu q.remote m) :=
    fun m => (E.initCommShareSeqMem_spec q.cpu_lt q.remote_lt m).1 q.dir q.dir_lt
  have hone : cpuIdMips < 2 := by decide
  have hzero : cpuIdArm < 2 := by decide
  obtain ⟨hc, hr⟩ | ⟨hc, hr⟩ | ⟨hc, hr⟩ : (q.cpu = cpuIdMips ∧ q.remote = cpuIdMips) ∨
      (q.cpu = cpuIdMips ∧ q.remote = cpuIdArm) ∨ (q.cpu = cpuIdArm ∧ q.remote = cpuIdMips) := by
    have := q.cpu_lt
    have := q.remote_lt
    have := q.mips
    simp only [cpuIdArm, cpuIdMips] at *
    omega
  all_goals rw [hc, hr] at hown
  · exact hown _
  · exact fresh_initCommShareSeqMem hone hone (fresh_initCommShareSeqMem hone hone (hown _))
  · exact fresh_initCommShareSeqMem hone hone (fresh_initCommShareSeqMem hone hone
      (fresh_initCommShareSeqMem hone hzero (hown _)))

lemma freeOnce_reset (h : E.MagicSet m) : E.FreeOnce (E.setCPUReset cpuIdMips 1 m) := by
  intro q j hj
  have hq := q.addr_eq (E := E)
  have := q.cpu_lt
  have := q.remote_lt
  have := q.dir_lt
  exact existsUnique_of_fresh (fresh_reset q h) (by omega) (by omega) hj

lemma MipsSeq.keeps_reset (m : Bytes) :
    Keeps (q.addr E + 32) (q.addr E + 60) m (E.setCPUReset cpuIdMips 1 m) ∧
      Keeps (q.ring E) (q.ring E + 84) m (E.setCPUReset cpuIdMips 1 m) := by
  have hown : ∀ x, q.addr E ≤ x → x < q.addr E + 2440 → ShMem.Spared (q.addr E) x → E.Kept x :=
    fun x => kept_own _ _ _ q.cpu_lt q.remote_lt q.dir_lt
  have hremote := q.remote_lt
  have hdir := q.dir_lt
  constructor
  · intro x hlo hhi
    exact (hown x (by omega) (by omega) (.inr (.inr (.inl ⟨by omega, by omega⟩)))).setCPUReset ..
  · intro x hlo hhi
    rw [MipsSeq.ring] at hlo hhi
    split_ifs at hlo hhi
    · exact (kept_sock (by omega) (by omega)).setCPUReset ..
    · exact (hown x (by omega) (by omega)
        (.inr (.inr (.inr (.inl ⟨by omega, by omega⟩))))).setCPUReset ..

lemma Inv.noReference_reset (h : E.Inv m) :
    E.NoReference (E.setCPUReset cpuIdMips 1 m) ↔ E.NoReference m := by
  have hfifo : ∀ q : MipsSeq, ShMem.loadFifo (E.setCPUReset cpuIdMips 1 m) (q.addr E + 32)
      = ShMem.loadFifo m (q.addr E + 32) := fun q => ShMem.loadFifo_of_keeps (q.keeps_reset m).1
  have hitem : ∀ (q : MipsSeq) i, Pending (ShMem.loadFifo m (q.addr E + 32)) i →
      (E.setCPUReset cpuIdMips 1 m).rd32 (q.ring E + 4 * i) = m.rd32 (q.ring E + 4 * i) := by
    intro q i hi
    have := hi.1
    exact (q.keeps_reset m).2.rd32 (by omega) (by omega)
  have hlist : ∀ a, OnList (E.setCPUReset cpuIdMips 1 m) E.returnList a ↔ OnList m E.returnList a :=
    fun a => onList_iff_of_keeps
      (fun x hlo hhi => (h.kept_of_reserved (.inr (.inr (.inr (.inr (.inl
        ⟨hlo, hhi⟩)))))).setCPUReset ..)
      fun b hb x hlo hhi => (h.kept_of_reserved (.inr (.inr (.inr (.inr (.inr
        ⟨b, hb, hlo, hhi⟩)))))).setCPUReset ..
  constructor
  · rintro ⟨hstaged, hlisted⟩
    refine ⟨fun q i hi q' j hj => ?_, fun q j hj => ?_⟩
    · rw [← hitem q i hi]
      exact hstaged q i (by rwa [hfifo]) q' j hj
    · rw [← hlist]
      exact hlisted q j hj
  · rintro ⟨hstaged, hlisted⟩
    refine ⟨fun q i hi q' j hj => ?_, fun q j hj => ?_⟩
    · rw [hfifo] at hi
      rw [hitem q i hi]
      exact hstaged q i hi q' j hj
    · rw [hlist]
      exact hlisted q j hj

/-- In every run, the reset of the MIPS leaves each slot free exactly once and with no reference to
it if and only if there was no reference before. -/
theorem reset_clears_iff (m₀ : Bytes) (es : List Event) (m : Bytes)
    (hok : Guarded E.step E.Ok (E.start m₀) es) (hrun : run E.step (E.start m₀) es = some m) :
    (E.FreeOnce (E.setCPUReset cpuIdMips 1 m) ∧ E.NoReference (E.setCPUReset cpuIdMips 1 m)) ↔
      E.NoReference m := by
  have hinv : E.Inv m :=
    hok.invariant (fun _ _ _ hp hok hs => hp.step hok hs) (Inv.start m₀) hrun
  rw [hinv.noReference_reset]
  exact and_iff_right (freeOnce_reset hinv.magic)

lemma pending_ret (m₀ : Bytes) {slot : ℕ} (hs : slot < 20)
    (hva : cpuCommIsMipsVa (E.entryR 1 slot) = false) :
    ¬E.NoReference (addReturn2Fifo (E.start m₀) (E.cmdFifo 1) (E.entryR 1 slot)) := by
  intro hnone
  have hinv := Inv.start (E := E) m₀
  have hempty := (start_spec (E := E) m₀).2.1 1 (by decide)
  have hring := E.cmdRing_eq 1
  have hroom : fifoGetItemWr (ShMem.loadFifo (E.start m₀) (E.cmdFifo 1)) ≠ 0 := by
    have hne : (ShMem.loadFifo (E.start m₀) (E.cmdFifo 1)).rdIdx
        ≠ ((ShMem.loadFifo (E.start m₀) (E.cmdFifo 1)).wrIdx + 1) % 21 := by
      rw [hempty]
      exact Nat.zero_ne_one
    rw [(hinv.header 1 (by decide)).getItemWr (E.cmdRing_lt (by decide)) hne]
    omega
  have hst := addReturn2Fifo_staged hinv (by omega) hva hroom
  obtain ⟨p, hp⟩ := hst.header
  refine hnone.staged ⟨0, 1, 1, by decide, by decide, by decide, .inr rfl⟩
    (ShMem.loadFifo (E.start m₀) (E.cmdFifo 1)).wrIdx ?_
    ⟨0, 1, 1, by decide, by decide, by decide, .inr rfl⟩ slot hs (.inl ?_)
  · change Pending (ShMem.loadFifo _ (E.cmdFifo 1)) _
    rw [hp]
    exact (hinv.header 1 (by decide)).pending_pushed hst.room
  · have haddr : E.entryR 1 slot = E.getShareSeq 0 1 1 + 360 + 104 * slot := by
      rw [entryR_eq, ShMem.getShareSeq]
    exact hst.item.trans haddr

lemma board_sock_pos : 0 < ShMem.boardShMem.commSockt := by decide

lemma board_sock_lt : ShMem.boardShMem.commSockt + 9984 ≤ 4294967296 := by decide

lemma board_apart : ShMem.boardShMem.commSockt + 9984 ≤ ShMem.boardShMem.shMemAddrBase ∨
    ShMem.boardShMem.shMemAddrBase + 192512 ≤ ShMem.boardShMem.commSockt := by decide

def boardMem : IpcMem where
  toShMem := ShMem.boardShMem
  sock_pos := board_sock_pos
  sock_lt := board_sock_lt
  apart := board_apart

theorem reset_clears_iff_board :
    ∃ m, run boardMem.step (boardMem.start ⟨fun _ => 0⟩) [.ret 0, .reset cpuIdMips 0] = some m ∧
      ((boardMem.FreeOnce (boardMem.setCPUReset cpuIdMips 1 m) ∧
        boardMem.NoReference (boardMem.setCPUReset cpuIdMips 1 m)) ↔ boardMem.NoReference m) :=
  ⟨_, rfl, reset_clears_iff ⟨fun _ => 0⟩ [.ret 0, .reset cpuIdMips 0] _
    ⟨show 0 < 21 by decide, fun _ _ => ⟨trivial, fun _ _ => trivial⟩⟩ rfl⟩

/-- The MIPS sends a RETURN in slot 0 and is reset. The slot is then in the FreeCall FIFO, with the
old message still to be delivered. -/
theorem return_survives_reset :
    ∃ m, run boardMem.step (boardMem.start ⟨fun _ => 0⟩) [.ret 0] = some m ∧
      boardMem.FreeOnce (boardMem.setCPUReset cpuIdMips 1 m) ∧
      ¬boardMem.NoReference (boardMem.setCPUReset cpuIdMips 1 m) := by
  have hinv : boardMem.Inv (addReturn2Fifo (boardMem.start ⟨fun _ => 0⟩) (boardMem.cmdFifo 1)
      (boardMem.entryR 1 0)) :=
    (Inv.start _).step (e := .ret 0) (show 0 < 21 by decide) rfl
  refine ⟨_, rfl, freeOnce_reset hinv.magic, fun hnone => ?_⟩
  exact pending_ret ⟨fun _ => 0⟩ (by decide) (by decide) (hinv.noReference_reset.mp hnone)

end IpcMem

end CpuComm
