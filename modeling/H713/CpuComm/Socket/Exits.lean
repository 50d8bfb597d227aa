import H713.CpuComm.Action.Basic

/-!
# Semaphores at the exits

Four functions work on a socket between the `down` and the `up` of a semaphore, and some of their
exits are between the two. A call gives `none` if its `down` finds a count of zero, or a loop does
not end within the rounds allowed.
-/

namespace CpuComm

open Machine Function List Option

/-- The globals of the driver that the functions read. -/
structure CommGlobals where
  /-- `getCurCPUID(0)` -/
  curCPUID : ℕ
  shMemAddrBase : ℕ
  shMemAddr : ℕ
  shMemSize : ℕ
  /-- the address of `s_CommSockt` -/
  commSockt : ℕ

namespace CommGlobals

variable (G : CommGlobals)

def sock (cpu i : ℕ) : ℕ := u32 (G.commSockt + 4 * (1248 * cpu + i))

def getShareSeqR (cpu dir : ℕ) : ℕ :=
  if G.shMemAddrBase = 0 ∨ G.curCPUID > 1 ∨ cpu > 1 ∨ dir > 1 then 0
  else u32 (G.shMemAddrBase + 9760 * G.curCPUID + 4880 * cpu + 2440 * dir + 152)

def InShMem (p : ℕ) : Prop := G.shMemAddrBase ≤ p ∧ p < u32 (G.shMemAddrBase + G.shMemSize)

instance (p : ℕ) : Decidable (G.InShMem p) := inferInstanceAs (Decidable (_ ∧ _))

end CommGlobals

/-- The memory by address: semaphores, FIFO headers, ring words, bytes of share sequences, fields of
messages and links of nodes. The counter of a ReturnList is by CPU. -/
structure SockMem where
  /-- the count of a `struct semaphore` -/
  sem : ℕ → ℕ
  fifo : ℕ → CommFifo
  word : ℕ → ℕ
  byte : ℕ → ℕ
  /-- of the message at an address: the halfwords at `+4` and `+10` and the word at `+12` -/
  slotIndex : ℕ → ℕ
  flags : ℕ → ℕ
  session : ℕ → ℕ
  /-- of the node at an address: the words at `+0` and `+4` -/
  next : ℕ → ℕ
  prev : ℕ → ℕ
  /-- `sock[280]` and the byte at `sock[279]` -/
  count : ℕ → ℕ
  peak : ℕ → ℕ

namespace SockMem

variable {G : CommGlobals} {m m₁ m' : SockMem} {a : ℕ}

/-! ### Semaphores -/

def down (m : SockMem) (a : ℕ) : Option SockMem :=
  if m.sem a = 0 then none
  else some { m with sem := Function.update m.sem a (m.sem a - 1) }

def up (m : SockMem) (a : ℕ) : SockMem :=
  { m with sem := Function.update m.sem a (m.sem a + 1) }

lemma down_eq_some_iff :
    m.down a = some m₁ ↔
      m.sem a ≠ 0 ∧ m₁ = { m with sem := update m.sem a (m.sem a - 1) } := by
  rw [down]
  split_ifs with h
  · exact ⟨fun h' => absurd h' (by simp), fun h' => absurd h h'.1⟩
  · rw [some_inj, eq_comm, and_iff_right h]

lemma sem_up_of_down (h : m.down a = some m₁) : (m₁.up a).sem = m.sem := by
  obtain ⟨hpos, rfl⟩ := down_eq_some_iff.mp h
  have : m.sem a - 1 + 1 = m.sem a := Nat.sub_add_cancel (Nat.pos_of_ne_zero hpos)
  simp only [up, update_self, update_idem, this, update_eq_self]

lemma sem_lt_of_down (h : m.down a = some m₁) : m₁.sem a < m.sem a := by
  obtain ⟨hpos, rfl⟩ := down_eq_some_iff.mp h
  simp only [update_self]
  omega

lemma fifo_of_down (h : m.down a = some m₁) : m₁.fifo = m.fifo := by
  obtain ⟨-, rfl⟩ := down_eq_some_iff.mp h
  rfl

lemma sem_eq_iff_of_down {p : Prop} (hd : m.down a = some m₁) (hup : p → m'.sem = (m₁.up a).sem)
    (hkept : ¬ p → m'.sem = m₁.sem) : m'.sem = m.sem ↔ p := by
  by_cases hp : p
  · exact iff_of_true ((hup hp).trans (sem_up_of_down hd)) hp
  · refine iff_of_false (fun heq => ?_) hp
    rw [hkept hp] at heq
    exact (sem_lt_of_down hd).ne (congrFun heq a)

/-! ### The FreeWait FIFO and the FreeCall FIFO -/

def setWord (m : SockMem) (p v : ℕ) : SockMem := { m with word := Function.update m.word p v }

def requestItemWr (m : SockMem) (p : ℕ) : SockMem × ℕ :=
  let r := fifoRequestItemWr (m.fifo p)
  ({ m with fifo := Function.update m.fifo p r.1 }, r.2)

def releaseWaitComm (G : CommGlobals) (m : SockMem) (cpuId waitEntry : ℕ) : Option SockMem :=
  if cpuId > 1 then some m
  else
    let fifo := G.sock cpuId 34
    let sem := G.sock cpuId 30
    (m.down sem).map fun m =>
      let wrSlot := fifoGetItemWr (m.fifo fifo)
      -- the FIFO is full: the semaphore stays taken
      if wrSlot = 0 then m
      else ((m.setWord wrSlot waitEntry).requestItemWr fifo).1.up sem

def storeFreeCall (G : CommGlobals) (m : SockMem) (fifo wrSlotVir call : ℕ) : SockMem × ℕ :=
  let m := { m with flags := Function.update m.flags call 0 }
  let entryPhy := if call = 0 then 0 else sub32 (call + G.shMemAddr) G.shMemAddrBase
  (m.setWord wrSlotVir entryPhy).requestItemWr fifo

def putFreeCall (G : CommGlobals) (m : SockMem) (fifo sem call : ℕ) : SockMem :=
  let wrSlotPhy := fifoGetItemWr (m.fifo fifo)
  let wrSlotVir := sub32 (wrSlotPhy + G.shMemAddrBase) G.shMemAddr
  if wrSlotPhy = 0 then m
  else if wrSlotVir = 0 then m
  else if ¬ G.InShMem wrSlotVir then m.up sem
  else if ¬ G.InShMem call then m.up sem
  else if (storeFreeCall G m fifo wrSlotVir call).2 = 0 then
    (storeFreeCall G m fifo wrSlotVir call).1
  else (storeFreeCall G m fifo wrSlotVir call).1.up sem

def commReleaseFreeCall (G : CommGlobals) (m : SockMem) (shareSeq call : ℕ) : Option SockMem :=
  if shareSeq = 0 then some m
  else if m.byte shareSeq ≠ G.curCPUID then some m
  else if m.byte (u32 (shareSeq + 1)) > 1 then some m
  else
    let sem := G.sock (m.byte (u32 (shareSeq + 1))) 234
    (m.down sem).map fun m => putFreeCall G m (u32 (shareSeq + 120)) sem call

def WaitReleasable (G : CommGlobals) (m : SockMem) (cpuId : ℕ) : Prop :=
  cpuId ≤ 1 → fifoGetItemWr (m.fifo (G.sock cpuId 34)) ≠ 0

lemma releaseWaitComm_sem {cpuId waitEntry : ℕ}
    (h : releaseWaitComm G m cpuId waitEntry = some m') :
    m'.sem = m.sem ↔ WaitReleasable G m cpuId := by
  unfold releaseWaitComm at h
  split_ifs at h with hcpu
  · cases h
    exact iff_of_true rfl fun hle => absurd hle (Nat.not_le.mpr hcpu)
  · obtain ⟨m₁, hd, rfl⟩ := map_eq_some_iff.mp h
    rw [WaitReleasable, forall_prop_of_true (Nat.le_of_not_lt hcpu)]
    rw [← fifo_of_down hd]
    refine sem_eq_iff_of_down hd (fun hslot => ?_) fun hfull => ?_
    · rw [if_neg hslot]
      rfl
    · rw [if_pos (not_not.mp hfull)]

def nextSlot (f : CommFifo) : ℕ := f.slot (f.succ f.wrIdx)

/-- The FreeCall FIFO has a slot to write to that is not null, and if the message is written there,
neither is the slot after it. -/
structure CallFits (G : CommGlobals) (f : CommFifo) (call : ℕ) : Prop where
  not_full : fifoGetItemWr f ≠ 0
  slot_ne : sub32 (fifoGetItemWr f + G.shMemAddrBase) G.shMemAddr ≠ 0
  next_ne : G.InShMem (sub32 (fifoGetItemWr f + G.shMemAddrBase) G.shMemAddr) → G.InShMem call →
    nextSlot f ≠ 0

def CallReleasable (G : CommGlobals) (m : SockMem) (shareSeq call : ℕ) : Prop :=
  shareSeq ≠ 0 → m.byte shareSeq = G.curCPUID → m.byte (u32 (shareSeq + 1)) ≤ 1 →
    CallFits G (m.fifo (u32 (shareSeq + 120))) call

lemma fifoRequestItemWr_snd {f : CommFifo} (h : fifoGetItemWr f ≠ 0) :
    (fifoRequestItemWr f).2 = nextSlot f := by
  have hne : f.rdIdx ≠ f.succ f.wrIdx := fun hfull => h (if_pos hfull)
  obtain ⟨c, hc⟩ := CommFifo.exists_trackPeak { f with wrIdx := f.succ f.wrIdx }
  simp only [fifoRequestItemWr, if_neg hne, hc]
  rfl

lemma putFreeCall_sem_of_fits {fifo sem call : ℕ} (h : CallFits G (m.fifo fifo) call) :
    (putFreeCall G m fifo sem call).sem = (m.up sem).sem := by
  rw [putFreeCall, if_neg h.not_full, if_neg h.slot_ne]
  split_ifs with hslot hcall hnext
  · have hzero : nextSlot (m.fifo fifo) = 0 := (fifoRequestItemWr_snd h.not_full).symm.trans hnext
    exact absurd hzero (h.next_ne hslot hcall)
  · rfl
  · rfl
  · rfl

lemma putFreeCall_sem_of_not_fits {fifo sem call : ℕ} (h : ¬ CallFits G (m.fifo fifo) call) :
    (putFreeCall G m fifo sem call).sem = m.sem := by
  rw [putFreeCall]
  split_ifs with hfull hnull hslot hcall hnext
  · rfl
  · rfl
  · rfl
  · refine absurd ⟨hfull, hnull, fun _ _ hzero => hnext ?_⟩ h
    exact (fifoRequestItemWr_snd hfull).trans hzero
  · exact absurd ⟨hfull, hnull, fun _ hin => absurd hin hcall⟩ h
  · exact absurd ⟨hfull, hnull, fun hin => absurd hin hslot⟩ h

lemma commReleaseFreeCall_sem {shareSeq call : ℕ}
    (h : commReleaseFreeCall G m shareSeq call = some m') :
    m'.sem = m.sem ↔ CallReleasable G m shareSeq call := by
  unfold commReleaseFreeCall at h
  split_ifs at h with hseq hlocal hremote
  · cases h
    exact iff_of_true rfl fun hne => absurd hseq hne
  · cases h
    exact iff_of_true rfl fun _ heq => absurd heq hlocal
  · cases h
    exact iff_of_true rfl fun _ _ hle => absurd hle (Nat.not_le.mpr hremote)
  · obtain ⟨m₁, hd, rfl⟩ := map_eq_some_iff.mp h
    rw [CallReleasable, forall_prop_of_true hseq, forall_prop_of_true (not_not.mp hlocal),
      forall_prop_of_true (Nat.le_of_not_lt hremote)]
    rw [← fifo_of_down hd]
    exact sem_eq_iff_of_down hd putFreeCall_sem_of_fits putFreeCall_sem_of_not_fits

/-! ### The ReturnList -/

def itemRdNext (m : SockMem) (p : ℕ) : SockMem × ℕ :=
  let r := fifoItemRdNext (m.fifo p)
  ({ m with fifo := Function.update m.fifo p r.1 }, r.2)

def linkReturn (G : CommGlobals) (cpu : ℕ) (m : SockMem) (entry : ℕ) : SockMem :=
  let newNode := u32 (entry + 84)
  let sentinel := G.sock cpu 281
  let tail := m.prev sentinel
  let count := u32 (m.count cpu + 1)
  { m with
    flags := Function.update m.flags entry (m.flags entry ||| 0x20)
    next := Function.update (Function.update m.next newNode sentinel) tail newNode
    prev := Function.update (Function.update m.prev newNode tail) sentinel newNode
    count := Function.update m.count cpu count
    peak := if count > m.peak cpu then Function.update m.peak cpu (count % 256) else m.peak }

def pipeLoop (G : CommGlobals) (cpu fifo : ℕ) : ℕ → SockMem → ℕ → Option SockMem
  | 0, _, _               => none
  | rounds + 1, m, itemAddr =>
    if itemAddr = 0 then some (m.up (G.sock cpu 283))
    else
      let entry := m.word itemAddr
      if cpuCommIsMipsVa entry then
        let r := m.itemRdNext fifo
        pipeLoop G cpu fifo rounds r.1 r.2
      -- the slot index is out of range: the semaphore stays taken
      else if m.slotIndex entry > 19 then some m
      else
        let r := (m.linkReturn G cpu entry).itemRdNext fifo
        pipeLoop G cpu fifo rounds r.1 r.2

def returnPipeLine (G : CommGlobals) (rounds : ℕ) (m : SockMem) (cpu : ℕ) : Option SockMem :=
  if cpu > 1 then some m
  else if G.getShareSeqR cpu 1 = 0 then some m
  else
    let fifo := u32 (G.getShareSeqR cpu 1 + 32)
    (m.down (G.sock cpu 283)).bind fun m =>
      pipeLoop G cpu fifo rounds m (fifoGetItemRd (m.fifo fifo))

/-- How the search of `GetReturnbySessionId` ends. -/
inductive Search where
  | absent
  | corrupt
  | found (node : ℕ)

def searchReturn (m : SockMem) (sentinel sessionId : ℕ) : ℕ → ℕ → Option Search
  | 0, _                => none
  | rounds + 1, curNode =>
    if curNode = sentinel then some .absent
    else if cpuCommIsMipsVa curNode then some .corrupt
    else if m.session (sub32 curNode 84) = sessionId then some (.found curNode)
    else m.searchReturn sentinel sessionId rounds (m.next curNode)

def unlinkReturn (m : SockMem) (cpu node : ℕ) : SockMem :=
  { m with
    next := Function.update m.next (m.prev node) (m.next node)
    prev := Function.update m.prev (m.next node) (m.prev node)
    count := Function.update m.count cpu (sub32 (m.count cpu) 1) }

def endSearch (G : CommGlobals) (m : SockMem) (cpu : ℕ) : Search → SockMem × Option ℕ
  | .absent | .corrupt => (m.up (G.sock cpu 283), some 0)
  | .found node =>
    -- a negative count: the semaphore stays taken
    if i32 ((m.unlinkReturn cpu node).count cpu) < 0 then (m.unlinkReturn cpu node, none)
    else ((m.unlinkReturn cpu node).up (G.sock cpu 283), some (sub32 node 84))

def takeReturn (G : CommGlobals) (rounds : ℕ) (m : SockMem) (sessionId cpu : ℕ) :
    Option (SockMem × Option ℕ) :=
  let sentinel := G.sock cpu 281
  (m.down (G.sock cpu 283)).bind fun m =>
    (m.searchReturn sentinel sessionId rounds (m.next sentinel)).map (endSearch G m cpu)

def getReturnBySessionId (G : CommGlobals) (rounds : ℕ) (m : SockMem) (sessionId cpu : ℕ)
    (result : Bool) : Option (SockMem × Option ℕ) :=
  if cpu > 1 then some (m, none)
  else
    (returnPipeLine G rounds m cpu).bind fun m =>
      (takeReturn G rounds m sessionId cpu).map fun r => (r.1, if result then r.2 else none)

/-! ### What the ReturnCmd FIFO holds -/

def pending (word : ℕ → ℕ) : ℕ → CommFifo → ℕ → List ℕ
  | 0, _, _               => []
  | rounds + 1, f, itemAddr =>
    if itemAddr = 0 then []
    else word itemAddr :: pending word rounds (fifoItemRdNext f).1 (fifoItemRdNext f).2

def staged (G : CommGlobals) (rounds : ℕ) (m : SockMem) (cpu : ℕ) : List ℕ :=
  if cpu > 1 then []
  else if G.getShareSeqR cpu 1 = 0 then []
  else
    let f := m.fifo (u32 (G.getShareSeqR cpu 1 + 32))
    pending m.word rounds f (fifoGetItemRd f)

def Linkable (m : SockMem) (entry : ℕ) : Prop :=
  cpuCommIsMipsVa entry = false → m.slotIndex entry ≤ 19

def linkAll (G : CommGlobals) (cpu : ℕ) (m : SockMem) (entries : List ℕ) : SockMem :=
  entries.foldl (fun m e => if cpuCommIsMipsVa e then m else m.linkReturn G cpu e) m

lemma linkAll_cons (cpu entry : ℕ) (entries : List ℕ) (m : SockMem) :
    m.linkAll G cpu (entry :: entries) =
      (if cpuCommIsMipsVa entry then m else m.linkReturn G cpu entry).linkAll G cpu entries := rfl

lemma linkAll_with (cpu : ℕ) (f : ℕ → CommFifo) (c : ℕ → ℕ) (m : SockMem) (entries : List ℕ) :
    linkAll G cpu { m with fifo := f, sem := c } entries =
      { m.linkAll G cpu entries with fifo := f, sem := c } := by
  induction entries generalizing m with
  | nil => rfl
  | cons e entries ih =>
    rw [linkAll_cons, linkAll_cons]
    split_ifs
    · exact ih m
    · exact ih (m.linkReturn G cpu e)

/-! ### Draining the ReturnCmd FIFO -/

section Drain

variable {cpu fifo rounds itemAddr : ℕ}

/-- The loop links every message and ends with `up`, or it comes to a slot index out of range and
leaves the semaphores. -/
inductive PipeEnd (G : CommGlobals) (cpu : ℕ) (m : SockMem) (entries : List ℕ) (m' : SockMem) : Prop
  | drained (hall : ∀ e ∈ entries, m.Linkable e) (f : ℕ → CommFifo)
      (h : m' = { m.linkAll G cpu entries with fifo := f, sem := (m.up (G.sock cpu 283)).sem })
  | refused {e : ℕ} (he : e ∈ entries) (hbad : ¬ m.Linkable e) (h : m'.sem = m.sem)

lemma PipeEnd.cons {x : SockMem} {f : ℕ → CommFifo} {e : ℕ} {entries : List ℕ}
    (he : m.Linkable e) (hx : x = if cpuCommIsMipsVa e then m else m.linkReturn G cpu e)
    (h : PipeEnd G cpu { x with fifo := f } entries m') : PipeEnd G cpu m (e :: entries) m' := by
  have hslot : x.slotIndex = m.slotIndex := by
    rw [hx]
    split_ifs <;> rfl
  have hsem : x.sem = m.sem := by
    rw [hx]
    split_ifs <;> rfl
  cases h with
  | drained hall f' h =>
    refine .drained (forall_mem_cons.mpr ⟨he, fun e' he' => ?_⟩) f' ?_
    · rw [Linkable, ← hslot]
      exact hall e' he'
    · rw [linkAll_cons, ← hx, h, linkAll_with cpu f x.sem]
      simp only [up, hsem]
  | refused he' hbad h =>
    refine .refused (mem_cons_of_mem _ he') ?_ (h.trans hsem)
    rw [Linkable, ← hslot]
    exact hbad

lemma pipeLoop_end (h : pipeLoop G cpu fifo rounds m itemAddr = some m') :
    PipeEnd G cpu m (pending m.word rounds (m.fifo fifo) itemAddr) m' := by
  induction rounds generalizing m itemAddr with
  | zero => cases h
  | succ rounds ih =>
    simp only [pipeLoop] at h
    rw [pending]
    split_ifs at h ⊢ with hitem hmips hslot
    · cases h
      exact .drained (forall_mem_nil _) m.fifo rfl
    · have hend := ih h
      rw [itemRdNext] at hend
      simp only [update_self] at hend
      refine .cons (fun hno => absurd (hmips.symm.trans hno) (by decide)) (if_pos hmips).symm hend
    · cases h
      exact .refused mem_cons_self (fun hl =>
        absurd (hl (by simpa using hmips)) (by omega)) rfl
    · have hend := ih h
      rw [itemRdNext] at hend
      simp only [update_self] at hend
      exact .cons (fun _ => Nat.le_of_not_lt hslot) (if_neg hmips).symm hend

lemma returnPipeLine_cases (h : returnPipeLine G rounds m cpu = some m₁) :
    ((∀ e ∈ staged G rounds m cpu, m.Linkable e) ∧
      ∃ f, m₁ = { m.linkAll G cpu (staged G rounds m cpu) with fifo := f, sem := m.sem }) ∨
    ((∃ e ∈ staged G rounds m cpu, ¬ m.Linkable e) ∧
      m₁.sem (G.sock cpu 283) < m.sem (G.sock cpu 283)) := by
  unfold returnPipeLine at h
  unfold staged
  split_ifs at h ⊢ with hcpu hseq
  · cases h
    exact .inl ⟨forall_mem_nil _, m.fifo, rfl⟩
  · cases h
    exact .inl ⟨forall_mem_nil _, m.fifo, rfl⟩
  · obtain ⟨m₀, hd, hloop⟩ := bind_eq_some_iff.mp h
    have hend := pipeLoop_end hloop
    have hup := sem_up_of_down hd
    have hlt := sem_lt_of_down hd
    obtain ⟨-, rfl⟩ := down_eq_some_iff.mp hd
    cases hend with
    | drained hall f h =>
      refine .inl ⟨hall, f, ?_⟩
      rw [h, hup, linkAll_with cpu m.fifo]
    | refused he hbad h =>
      refine .inr ⟨⟨_, he, hbad⟩, ?_⟩
      rw [h]
      exact hlt

lemma returnPipeLine_sem (h : returnPipeLine G rounds m cpu = some m₁) :
    m₁.sem = m.sem ↔ ∀ e ∈ staged G rounds m cpu, m.Linkable e := by
  rcases returnPipeLine_cases h with ⟨hall, f, rfl⟩ | ⟨⟨e, he, hbad⟩, hlt⟩
  · exact iff_of_true rfl hall
  · exact iff_of_false (fun heq => hlt.ne (congrFun heq _)) fun hall => hbad (hall e he)

end Drain

/-! ### Taking a message from the ReturnList -/

section Take

variable {cpu rounds sessionId node sentinel : ℕ}

/-- The search from `node` on comes to a message of the session, before the sentinel and before a
pointer of the MIPS. -/
inductive Listed (session next : ℕ → ℕ) (sentinel sessionId : ℕ) : ℕ → Prop
  | here {node : ℕ} (hend : node ≠ sentinel) (hmips : cpuCommIsMipsVa node = false)
      (hq : session (sub32 node 84) = sessionId) : Listed session next sentinel sessionId node
  | next {node : ℕ} (hend : node ≠ sentinel) (hmips : cpuCommIsMipsVa node = false)
      (hq : session (sub32 node 84) ≠ sessionId)
      (h : Listed session next sentinel sessionId (next node)) :
      Listed session next sentinel sessionId node

lemma searchReturn_listed {r : Search}
    (h : m.searchReturn sentinel sessionId rounds node = some r) :
    Listed m.session m.next sentinel sessionId node ↔ ∃ p, r = .found p := by
  induction rounds generalizing node with
  | zero => cases h
  | succ rounds ih =>
    rw [searchReturn] at h
    split_ifs at h with hend hmips hq
    · cases h
      refine iff_of_false (fun hl => ?_) (by simp)
      cases hl <;> contradiction
    · cases h
      refine iff_of_false (fun hl => ?_) (by simp)
      cases hl <;> simp_all
    · cases h
      exact iff_of_true (.here hend (by simpa using hmips) hq) ⟨node, rfl⟩
    · rw [← ih h]
      refine ⟨fun hl => ?_, .next hend (by simpa using hmips) hq⟩
      cases hl with
      | here _ _ hq' => exact absurd hq' hq
      | next _ _ _ hl => exact hl

def Takeable (G : CommGlobals) (m : SockMem) (sessionId cpu : ℕ) : Prop :=
  Listed m.session m.next (G.sock cpu 281) sessionId (m.next (G.sock cpu 281)) →
    0 ≤ i32 (sub32 (m.count cpu) 1)

lemma endSearch_sem (G : CommGlobals) (m : SockMem) (cpu : ℕ) (q : Search) :
    ((∃ p, q = .found p) → 0 ≤ i32 (sub32 (m.count cpu) 1)) ∧
        (endSearch G m cpu q).1.sem = (m.up (G.sock cpu 283)).sem ∨
      ¬ ((∃ p, q = .found p) → 0 ≤ i32 (sub32 (m.count cpu) 1)) ∧
        (endSearch G m cpu q).1.sem = m.sem := by
  cases q with
  | absent => exact .inl ⟨by simp, rfl⟩
  | corrupt => exact .inl ⟨by simp, rfl⟩
  | found node =>
    have hcount : (m.unlinkReturn cpu node).count cpu = sub32 (m.count cpu) 1 :=
      update_self ..
    rw [endSearch, hcount]
    split_ifs with hneg
    · exact .inr ⟨fun hpos => absurd (hpos ⟨node, rfl⟩) (not_le.mpr hneg), rfl⟩
    · exact .inl ⟨fun _ => not_lt.mp hneg, rfl⟩

lemma takeable_of_down (h : m.down a = some m₁) :
    Takeable G m₁ sessionId cpu ↔ Takeable G m sessionId cpu := by
  obtain ⟨-, rfl⟩ := down_eq_some_iff.mp h
  rfl

lemma takeReturn_sem {r : SockMem × Option ℕ} (h : takeReturn G rounds m sessionId cpu = some r) :
    Takeable G m sessionId cpu ∧ r.1.sem = m.sem ∨
      ¬ Takeable G m sessionId cpu ∧ r.1.sem (G.sock cpu 283) < m.sem (G.sock cpu 283) := by
  obtain ⟨m₀, hd, hsearch⟩ := bind_eq_some_iff.mp h
  obtain ⟨q, hq, rfl⟩ := map_eq_some_iff.mp hsearch
  rw [← takeable_of_down hd, Takeable, searchReturn_listed hq]
  rcases endSearch_sem G m₀ cpu q with ⟨htake, hend⟩ | ⟨htake, hend⟩
  · exact .inl ⟨htake, hend.trans (sem_up_of_down hd)⟩
  · refine .inr ⟨htake, ?_⟩
    rw [hend]
    exact sem_lt_of_down hd

lemma getReturnBySessionId_sem {result : Bool} {r : SockMem × Option ℕ}
    (h : getReturnBySessionId G rounds m sessionId cpu result = some r) :
    r.1.sem = m.sem ↔
      cpu ≤ 1 → (∀ e ∈ staged G rounds m cpu, m.Linkable e) ∧
        Takeable G (m.linkAll G cpu (staged G rounds m cpu)) sessionId cpu := by
  rw [getReturnBySessionId] at h
  by_cases hcpu : cpu > 1
  · rw [if_pos hcpu, some_inj] at h
    rw [← h]
    exact iff_of_true rfl fun hle => absurd hle (Nat.not_le.mpr hcpu)
  · rw [if_neg hcpu] at h
    obtain ⟨m₁, hpipe, hrest⟩ := bind_eq_some_iff.mp h
    obtain ⟨r, htake, rfl⟩ := map_eq_some_iff.mp hrest
    rw [forall_prop_of_true (Nat.le_of_not_lt hcpu)]
    rcases returnPipeLine_cases hpipe with ⟨hall, f, rfl⟩ | ⟨⟨e, he, hbad⟩, hlt⟩
    · rcases takeReturn_sem htake with ⟨hok, hsem⟩ | ⟨hno, hsem⟩
      · exact iff_of_true hsem ⟨hall, hok⟩
      · exact iff_of_false (fun heq => hsem.ne (congrFun heq _)) fun hok => hno hok.2
    · -- a slot index out of range: what follows does not give the semaphore back
      refine iff_of_false (fun heq => ?_) fun hok => hbad (hok.1 e he)
      rcases takeReturn_sem htake with ⟨-, hsem⟩ | ⟨-, hsem⟩
      · exact hlt.ne (congrFun (hsem.symm.trans heq) _)
      · exact (hsem.trans hlt).ne (congrFun heq _)

end Take

/-- Every call that comes back restores the semaphores, exactly under these conditions. -/
theorem exits_keep_semaphores_iff (G : CommGlobals) (m : SockMem) :
    (∀ cpuId waitEntry m', releaseWaitComm G m cpuId waitEntry = some m' →
      (m'.sem = m.sem ↔ WaitReleasable G m cpuId)) ∧
    (∀ shareSeq call m', commReleaseFreeCall G m shareSeq call = some m' →
      (m'.sem = m.sem ↔ CallReleasable G m shareSeq call)) ∧
    (∀ rounds cpu m', returnPipeLine G rounds m cpu = some m' →
      (m'.sem = m.sem ↔ ∀ e ∈ staged G rounds m cpu, m.Linkable e)) ∧
    (∀ rounds sessionId cpu result r,
      getReturnBySessionId G rounds m sessionId cpu result = some r →
      (r.1.sem = m.sem ↔
        cpu ≤ 1 → (∀ e ∈ staged G rounds m cpu, m.Linkable e) ∧
          Takeable G (m.linkAll G cpu (staged G rounds m cpu)) sessionId cpu)) :=
  ⟨fun _ _ _ => releaseWaitComm_sem, fun _ _ _ => commReleaseFreeCall_sem,
    fun _ _ _ => returnPipeLine_sem, fun _ _ _ _ _ => getReturnBySessionId_sem⟩

def boardGlobals : CommGlobals where
  curCPUID := 0
  shMemAddrBase := 0xF0800000
  shMemAddr := 0x4E300000
  shMemSize := 0x500000
  commSockt := 0xC1000000

def ringFrom (base rd wr : ℕ) : CommFifo where
  rdIdx := rd
  wrIdx := wr
  peakCount := 0
  trackStats := 0
  capacity := 21
  itemSize := 4
  baseAddr := base

def uniform (f : CommFifo) (slotIndex count : ℕ) : SockMem where
  sem := fun _ => 1
  fifo := fun _ => f
  word := fun _ => 0xC2000000
  byte := fun _ => 0
  slotIndex := fun _ => slotIndex
  flags := fun _ => 0
  session := fun _ => 7
  next := fun node => if node = 0xC2000054 then boardGlobals.sock 0 281 else 0xC2000054
  prev := fun node => if node = 0xC2000054 then boardGlobals.sock 0 281 else 0xC2000054
  count := fun _ => count
  peak := fun _ => 0

/-- One message in every ring and one in the ReturnList. -/
theorem exits_keep_semaphores_iff_one :
    ∃ m : SockMem, m = uniform (ringFrom 0x4E301000 0 1) 0 1 ∧
      (∃ m', releaseWaitComm boardGlobals m 0 0xC1000124 = some m' ∧ m'.sem = m.sem) ∧
      (∃ m', commReleaseFreeCall boardGlobals m 0xF0800098 0xF0801000 = some m' ∧
        m'.sem = m.sem) ∧
      (∃ m', returnPipeLine boardGlobals 2 m 0 = some m' ∧ m'.sem = m.sem) ∧
      ∃ r, getReturnBySessionId boardGlobals 2 m 7 0 true = some r ∧ r.1.sem = m.sem := by
  refine ⟨_, rfl, ?_⟩
  obtain ⟨hwait, hcall, hpipe, hget⟩ :=
    exits_keep_semaphores_iff boardGlobals (uniform (ringFrom 0x4E301000 0 1) 0 1)
  refine ⟨?_, ?_, ?_, ?_⟩
  · obtain ⟨m', h⟩ := isSome_iff_exists.mp (show
      (releaseWaitComm boardGlobals (uniform (ringFrom 0x4E301000 0 1) 0 1) 0 0xC1000124).isSome
      by decide +kernel)
    exact ⟨m', h, (hwait _ _ _ h).mpr fun _ => by decide +kernel⟩
  · obtain ⟨m', h⟩ := isSome_iff_exists.mp (show
      (commReleaseFreeCall boardGlobals (uniform (ringFrom 0x4E301000 0 1) 0 1) 0xF0800098
        0xF0801000).isSome by decide +kernel)
    exact ⟨m', h, (hcall _ _ _ h).mpr fun _ _ _ =>
      ⟨by decide +kernel, by decide +kernel, fun _ _ => by decide +kernel⟩⟩
  · obtain ⟨m', h⟩ := isSome_iff_exists.mp (show
      (returnPipeLine boardGlobals 2 (uniform (ringFrom 0x4E301000 0 1) 0 1) 0).isSome
      by decide +kernel)
    exact ⟨m', h, (hpipe _ _ _ h).mpr fun _ _ _ => Nat.zero_le 19⟩
  · obtain ⟨r, h⟩ := isSome_iff_exists.mp (show
      (getReturnBySessionId boardGlobals 2 (uniform (ringFrom 0x4E301000 0 1) 0 1) 7 0 true).isSome
      by decide +kernel)
    exact ⟨r, h, (hget _ _ _ _ _ h).mpr fun _ =>
      ⟨fun _ _ _ => Nat.zero_le 19, fun _ => by decide +kernel⟩⟩

/-- Full FIFOs, a slot index of `20` and a counter of `0` each make a function return with its
semaphore taken. -/
theorem exits_take_semaphores :
    (releaseWaitComm boardGlobals (uniform (ringFrom 0xC10000D0 0 20) 0 1) 0 1).map
        (fun m => m.sem (boardGlobals.sock 0 30)) = some 0 ∧
    (commReleaseFreeCall boardGlobals (uniform (ringFrom 0x4E301000 0 20) 0 1)
        0xF0800098 0xF0801000).map (fun m => m.sem (boardGlobals.sock 0 234)) = some 0 ∧
    (returnPipeLine boardGlobals 2 (uniform (ringFrom 0xC100048C 0 1) 20 1) 0).map
        (fun m => m.sem (boardGlobals.sock 0 283)) = some 0 ∧
    (getReturnBySessionId boardGlobals 2 (uniform (ringFrom 0xC100048C 0 0) 0 0) 7 0 true).map
        (fun r => r.1.sem (boardGlobals.sock 0 283)) = some 0 := by
  decide +kernel

end SockMem

end CpuComm
