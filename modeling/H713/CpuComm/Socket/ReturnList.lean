import H713.CpuComm.Reset.Invariant
import H713.CpuComm.Socket.WaitList

/-!
# The ReturnList refines a sequence

`returnPipeLine` moves the messages staged in the ReturnCmd FIFO to the end of the ReturnList, in
their order, and `GetReturnbySessionId` does so and takes the first message of a session from the
list.
-/

namespace CpuComm

open Machine Bytes MsgFifo MsgSeq List Option Nat

variable {lb k e id fuel fifo ring : ℕ} {V : Set ℕ} {s : MsgSeq} {m m' : Bytes} {l : List ℕ}

/-! ### The ReturnCmd FIFO -/

lemma sameOn_addReturn2Fifo {S : Set ℕ} (h : IpcMem.Describes (ShMem.loadFifo m fifo) ring)
    (hlt : ring + 84 ≤ 4294967296) (hr : ∀ x ∈ S, x < ring ∨ ring + 84 ≤ x)
    (hf : ∀ x ∈ S, x < fifo ∨ fifo + 28 ≤ x) (he : ∀ x ∈ S, x < e + 10 ∨ e + 12 ≤ x) :
    SameOn S m (IpcMem.addReturn2Fifo m fifo e) := by
  have hwr := h.wr_lt
  simp only [IpcMem.addReturn2Fifo]
  split_ifs with hva hfull
  · exact SameOn.refl S m
  · exact SameOn.refl S m
  · rw [h.getItemWr hlt fun heq => hfull (h.getItemWr_full heq)]
    refine (((sameOff_wr32 _ _ _).sameOn fun x hx => ?_).trans
      ((IpcMem.sameOff_setFlag _ _ _).sameOn he)).trans
      ((ShMem.sameOff_storeFifo _ _ _).sameOn fun x hx => ?_)
    · have := hr x hx
      omega
    · have := hf x hx
      omega

/-- The messages in a FIFO with 21 places, the first one in front. -/
structure Stages (fifo ring : ℕ) (l : List ℕ) (m : Bytes) : Prop where
  header : IpcMem.Describes (ShMem.loadFifo m fifo) ring
  length_lt : l.length < 21
  wrIdx : (ShMem.loadFifo m fifo).wrIdx = ((ShMem.loadFifo m fifo).rdIdx + l.length) % 21
  item : ∀ i (h : i < l.length),
    m.rd32 (ring + 4 * (((ShMem.loadFifo m fifo).rdIdx + i) % 21)) = l[i]

/-- Header and ring do not overlap. -/
structure RingPlace (fifo ring : ℕ) : Prop where
  pos : 0 < ring
  le : ring + 84 ≤ 4294967296
  apart : fifo + 28 ≤ ring ∨ ring + 84 ≤ fifo

namespace Stages

lemma of_keeps (h : Stages fifo ring l m) (hf : Keeps fifo (fifo + 28) m m')
    (hr : Keeps ring (ring + 84) m m') : Stages fifo ring l m' := by
  have hload := ShMem.loadFifo_of_keeps hf
  refine ⟨hload ▸ h.header, h.length_lt, hload ▸ h.wrIdx, fun i hi => ?_⟩
  rw [hload, hr.rd32 (by omega) (by omega)]
  exact h.item i hi

lemma getItemRd_nil (h : Stages fifo ring [] m) : fifoGetItemRd (ShMem.loadFifo m fifo) = 0 := by
  have hrd := h.header.rd_lt
  have hwr := h.wrIdx
  rw [length_nil, Nat.add_zero, mod_eq_of_lt hrd] at hwr
  rw [fifoGetItemRd, CommFifo.rdAddr, if_pos hwr.symm]

lemma getItemRd_cons (hp : RingPlace fifo ring) (h : Stages fifo ring (e :: l) m) :
    fifoGetItemRd (ShMem.loadFifo m fifo) ≠ 0 ∧
      m.rd32 (fifoGetItemRd (ShMem.loadFifo m fifo)) = e := by
  have hrd := h.header.rd_lt
  have hwr := h.wrIdx
  have hlen := h.length_lt
  have hitem := h.item 0 (Nat.succ_pos _)
  rw [length_cons] at hwr hlen
  rw [Nat.add_zero, mod_eq_of_lt hrd] at hitem
  have hpos := hp.pos
  rw [fifoGetItemRd, CommFifo.rdAddr, if_neg (by omega), h.header.slot hp.le hrd]
  exact ⟨by omega, hitem⟩

lemma pop (hp : RingPlace fifo ring) (h : Stages fifo ring (e :: l) m) :
    Stages fifo ring l (itemRdNext m fifo).1 ∧
      (itemRdNext m fifo).2 = fifoGetItemRd (ShMem.loadFifo (itemRdNext m fifo).1 fifo) := by
  have hrd := h.header.rd_lt
  have hwr := h.wrIdx
  have hlen := h.length_lt
  have hapart := hp.apart
  rw [length_cons] at hwr hlen
  have hne : (ShMem.loadFifo m fifo).rdIdx ≠ (ShMem.loadFifo m fifo).wrIdx := by omega
  obtain ⟨-, -, haddr⟩ := h.header.itemRdNext hne
  obtain ⟨p, hload⟩ := h.header.exists_storeFifoRd hne rfl
  have hoff := IpcMem.sameOff_storeFifoRd m fifo (fifoItemRdNext (ShMem.loadFifo m fifo)).1
  refine ⟨⟨?_, by omega, ?_, fun i hi => ?_⟩, ?_⟩
  · rw [itemRdNext, hload]
    exact h.header.pop
  · simp only [itemRdNext, hload]
    omega
  · have hitem := h.item (i + 1) (succ_lt_succ hi)
    rw [getElem_cons_succ] at hitem
    have hmod : (((ShMem.loadFifo m fifo).rdIdx + 1) % 21 + i) % 21 =
        ((ShMem.loadFifo m fifo).rdIdx + (i + 1)) % 21 := by omega
    simp only [itemRdNext, hload]
    rw [hoff.rd32 (by omega), hmod]
    exact hitem
  · rw [itemRdNext, haddr, hload]
    rfl

lemma push (hp : RingPlace fifo ring) (h : Stages fifo ring l m) (hroom : l.length + 1 < 21)
    (hva : cpuCommIsMipsVa e = false) (he : e < 4294967296)
    (hfe : fifo + 28 ≤ e + 10 ∨ e + 12 ≤ fifo) (hre : ring + 84 ≤ e + 10 ∨ e + 12 ≤ ring) :
    Stages fifo ring (l ++ [e]) (IpcMem.addReturn2Fifo m fifo e) := by
  have hrd := h.header.rd_lt
  have hwr := h.wrIdx
  have hapart := hp.apart
  have hpos := hp.pos
  have hfull : (ShMem.loadFifo m fifo).rdIdx ≠ ((ShMem.loadFifo m fifo).wrIdx + 1) % 21 := by omega
  have hslot := h.header.getItemWr hp.le hfull
  have hne : fifoGetItemWr (ShMem.loadFifo m fifo) ≠ 0 := by omega
  -- the pointer is stored and the flag is set, and the header is as before
  set m₁ := IpcMem.setFlag (m.wr32 (fifoGetItemWr (ShMem.loadFifo m fifo)) e) e 0x10 with hm₁
  have hflag := IpcMem.sameOff_setFlag (m.wr32 (fifoGetItemWr (ShMem.loadFifo m fifo)) e) e 0x10
  have hstore := sameOff_wr32 m (fifoGetItemWr (ShMem.loadFifo m fifo)) e
  have hload₁ : ShMem.loadFifo m₁ fifo = ShMem.loadFifo m fifo :=
    ShMem.loadFifo_of_keeps ((hstore.keeps (by omega)).trans (hflag.keeps (by omega)))
  obtain ⟨p, hload⟩ := h.header.exists_storeFifo hfull hload₁
  have hoff := ShMem.sameOff_storeFifo m₁ fifo (fifoRequestItemWr (ShMem.loadFifo m₁ fifo)).1
  have hadd : IpcMem.addReturn2Fifo m fifo e =
      ShMem.storeFifo m₁ fifo (fifoRequestItemWr (ShMem.loadFifo m₁ fifo)).1 := by
    simp only [IpcMem.addReturn2Fifo, hva, Bool.false_eq_true, if_false, if_neg hne, hm₁]
  rw [hadd]
  refine ⟨hload ▸ h.header.push, by simpa using hroom, ?_, fun i hi => ?_⟩
  · rw [hload, length_append, length_singleton]
    simp only
    omega
  · rw [length_append, length_singleton] at hi
    rw [hload]
    simp only
    rw [hoff.rd32 (by omega), hflag.rd32 (by omega)]
    by_cases hlast : i = l.length
    · subst hlast
      rw [getElem_concat_length, ← hwr, ← hslot, rd32_wr32_self, u32_of_lt he]
      rfl
    · have hi' : i < l.length := by omega
      rw [hstore.rd32 (by omega), h.item i hi', getElem_append_left hi']

lemma keeps_push {lo hi : ℕ} (hp : RingPlace fifo ring) (h : Stages fifo ring l m)
    (hr : hi ≤ ring ∨ ring + 84 ≤ lo) (hf : hi ≤ fifo ∨ fifo + 28 ≤ lo)
    (he : hi ≤ e + 10 ∨ e + 12 ≤ lo) : Keeps lo hi m (IpcMem.addReturn2Fifo m fifo e) := by
  refine (sameOn_addReturn2Fifo (S := Set.Ico lo hi) h.header hp.le ?_ ?_ ?_).keeps
    fun x hlo hhi => ⟨hlo, hhi⟩ <;>
  · rintro x ⟨hlo, hhi⟩
    omega

end Stages

/-! ### Staged and listed messages -/

/-- The header, the messages, the FIFO and its ring do not overlap, and no message or node is a MIPS
pointer. -/
structure StagePlace (fifo ring lb : ℕ) (V : Set ℕ) : Prop where
  list : Layout .message lb V
  place : RingPlace fifo ring
  fifo_off : fifo + 28 ≤ lb ∨ lb + 80 ≤ fifo
  ring_off : ring + 84 ≤ lb ∨ lb + 80 ≤ ring
  fifo_entry : ∀ e ∈ V, fifo + 28 ≤ e ∨ e + 104 ≤ fifo
  ring_entry : ∀ e ∈ V, ring + 84 ≤ e ∨ e + 104 ≤ ring
  va : ∀ e ∈ V, cpuCommIsMipsVa e = false
  node_va : ∀ e ∈ V, cpuCommIsMipsVa (e + 84) = false

/-- What the operations on the list leave alone: the FIFO and the slot indices. -/
structure Spares (fifo ring : ℕ) (V : Set ℕ) (m m' : Bytes) : Prop where
  fifo : Keeps fifo (fifo + 28) m m'
  ring : Keeps ring (ring + 84) m m'
  index : ∀ e ∈ V, Keeps (e + 4) (e + 6) m m'

lemma Spares.trans {m'' : Bytes} (h : Spares fifo ring V m m') (h' : Spares fifo ring V m' m'') :
    Spares fifo ring V m m'' :=
  ⟨h.fifo.trans h'.fifo, h.ring.trans h'.ring, fun e he => (h.index e he).trans (h'.index e he)⟩

namespace StagePlace

variable {lo hi : ℕ}

lemma spares_header (hP : StagePlace fifo ring lb V) (h : SameOff lo hi m m') (hlo : lb ≤ lo)
    (hhi : hi ≤ lb + 80) : Spares fifo ring V m m' := by
  have := hP.fifo_off
  have := hP.ring_off
  refine ⟨h.keeps (by omega), h.keeps (by omega), fun e he => h.keeps ?_⟩
  have : e + 104 ≤ lb ∨ lb + 80 ≤ e := hP.list.off e he
  omega

lemma spares_entry (hP : StagePlace fifo ring lb V) (he : e ∈ V) (h : SameOff lo hi m m')
    (hlo : e + 6 ≤ lo) (hhi : hi ≤ e + 104) : Spares fifo ring V m m' := by
  have := hP.fifo_entry e he
  have := hP.ring_entry e he
  refine ⟨h.keeps (by omega), h.keeps (by omega), fun e' he' => h.keeps ?_⟩
  by_cases hee : e = e'
  · omega
  · have : e + 104 ≤ e' ∨ e' + 104 ≤ e := hP.list.apart e he e' he' hee
    omega

lemma same_off (h : SameOff lo hi m m') (hhead : hi ≤ lb + 52 ∨ lb + 72 ≤ lo)
    (hentry : ∀ e ∈ V, hi ≤ e + 12 ∨ e + 104 ≤ lo) : Holds.Same .message lb V m m' := by
  refine ⟨h.keeps (by omega), fun e he => h.keeps ?_, fun e he => h.keeps ?_⟩
  · have := hentry e he
    show e + 12 + 4 ≤ lo ∨ hi ≤ e + 12
    omega
  · have := hentry e he
    show e + 84 + 8 ≤ lo ∨ hi ≤ e + 84
    omega

lemma same_flag (hP : StagePlace fifo ring lb V) (he : e ∈ V)
    (h : SameOff (e + 10) (e + 12) m m') : Holds.Same .message lb V m m' := by
  have : e + 104 ≤ lb ∨ lb + 80 ≤ e := hP.list.off e he
  refine same_off h (by omega) fun e' he' => ?_
  by_cases hee : e = e'
  · omega
  · have : e + 104 ≤ e' ∨ e' + 104 ≤ e := hP.list.apart e he e' he' hee
    omega

lemma same_fifo (hP : StagePlace fifo ring lb V) (h : SameOff lo hi m m') (hlo : fifo ≤ lo)
    (hhi : hi ≤ fifo + 28) : Holds.Same .message lb V m m' := by
  have := hP.fifo_off
  refine same_off h (by omega) fun e he => ?_
  have := hP.fifo_entry e he
  omega

lemma spares_links (hP : StagePlace fifo ring lb V)
    (h : ∀ lo hi, Holds.Off .message lb V lo hi → Keeps lo hi m m') : Spares fifo ring V m m' := by
  refine ⟨h _ _ ⟨?_, fun e he => ?_⟩, h _ _ ⟨?_, fun e he => ?_⟩, fun e he => h _ _ ?_⟩
  · have := hP.fifo_off
    omega
  · have := hP.fifo_entry e he
    show fifo + 28 ≤ e + 84 ∨ e + 84 + 8 ≤ fifo
    omega
  · have := hP.ring_off
    omega
  · have := hP.ring_entry e he
    show ring + 84 ≤ e + 84 ∨ e + 84 + 8 ≤ ring
    omega
  · exact Holds.off_entry hP.list he (by omega) (show e + 6 ≤ e + 84 by omega)

end StagePlace

/-- The listed messages `s` and the staged ones, in memory. -/
structure Returns (fifo ring lb : ℕ) (V : Set ℕ) (k : ℕ) (s : MsgSeq) (staged : List ℕ)
    (m : Bytes) : Prop where
  holds : Holds .message lb V k s m
  stages : Stages fifo ring staged m
  index : ∀ e ∈ V, m.rd16 (e + 4) ≤ 19
  mem : ∀ e ∈ staged, e ∈ V
  nodup : (s.entries ++ staged).Nodup

namespace Returns

variable {s' : MsgSeq} {k' : ℕ}

lemma index_of_spares (h : ∀ e ∈ V, m.rd16 (e + 4) ≤ 19) (hs : Spares fifo ring V m m') :
    ∀ e ∈ V, m'.rd16 (e + 4) ≤ 19 := by
  intro e he
  rw [(hs.index e he).rd16 le_rfl le_rfl]
  exact h e he

lemma of_spares (h : Returns fifo ring lb V k s l m) (hm : Holds .message lb V k' s' m')
    (hs : Spares fifo ring V m m') (hnd : (s'.entries ++ l).Nodup) :
    Returns fifo ring lb V k' s' l m' :=
  ⟨hm, h.stages.of_keeps hs.fifo hs.ring, index_of_spares h.index hs, h.mem, hnd⟩

lemma down (hP : StagePlace fifo ring lb V) (h : Returns fifo ring lb V (k + 1) s l m) :
    ∃ m', semDown m (lb + 64) = some m' ∧ Returns fifo ring lb V k s l m' := by
  obtain ⟨m', hdown, hm, hoff⟩ := h.holds.down hP.list
  exact ⟨m', hdown, h.of_spares hm (hP.spares_header hoff (by omega) (by omega)) h.nodup⟩

lemma up (hP : StagePlace fifo ring lb V) (h : Returns fifo ring lb V k s l m)
    (hk : k + 1 < 4294967296) : Returns fifo ring lb V (k + 1) s l (semUp m (lb + 64)) :=
  h.of_spares (h.holds.up hP.list hk)
    (hP.spares_header (sameOff_wr32 m (lb + 68) _) (by omega) (by omega)) h.nodup

lemma setSession (hP : StagePlace fifo ring lb V) (h : Returns fifo ring lb V k s l m)
    (he : e ∈ V) (hid : id < 4294967296) :
    Returns fifo ring lb V k (s.setSession e id) l (m.wr32 (e + 12) id) :=
  h.of_spares (h.holds.setSession hP.list he hid)
    (hP.spares_entry he (sameOff_wr32 m (e + 12) id) (by omega) (by omega)) h.nodup

lemma unlink (hP : StagePlace fifo ring lb V) (h : Returns fifo ring lb V k s l m)
    (he : e ∈ s.entries) :
    Returns fifo ring lb V k (s.remove e) l (countDown (m.listDel (e + 84)) lb) := by
  have hcount : SameOff (lb + 52) (lb + 56) (m.listDel (e + 84))
      (countDown (m.listDel (e + 84)) lb) := sameOff_wr32 _ _ _
  have hspares := (hP.spares_links fun lo hi ho => h.holds.keeps_unlink he ho).trans
    (hP.spares_header hcount (by omega) (by omega))
  refine h.of_spares (h.holds.unlink hP.list he) hspares ?_
  exact h.nodup.sublist ((erase_sublist).append_right l)

lemma link (hP : StagePlace fifo ring lb V) (h : Returns fifo ring lb V k s (e :: l) m) :
    Returns fifo ring lb V k (s.add e) l (itemRdNext (linkReturn m lb e) fifo).1 ∧
      (itemRdNext (linkReturn m lb e) fifo).2 =
        fifoGetItemRd (ShMem.loadFifo (itemRdNext (linkReturn m lb e) fifo).1 fifo) := by
  have he : e ∈ V := h.mem e mem_cons_self
  have hnot : e ∉ s.entries := fun hm =>
    (nodup_append.mp h.nodup).2.2 e hm e mem_cons_self rfl
  have hflag := IpcMem.sameOff_setFlag m e 0x20
  have h₁ := h.holds.same (hP.same_flag he hflag)
  have hspares : Spares fifo ring V m (linkReturn m lb e) :=
    ((hP.spares_entry he hflag (by omega) (by omega)).trans
      (hP.spares_links fun lo hi ho => h₁.keeps_linkTail he ho)).trans
      (hP.spares_header (Holds.sameOff_countUp _ lb) (by omega) (by omega))
  obtain ⟨hpop, haddr⟩ := (h.stages.of_keeps hspares.fifo hspares.ring).pop hP.place
  have hnext := IpcMem.sameOff_storeFifoRd (linkReturn m lb e) fifo
    (fifoItemRdNext (ShMem.loadFifo (linkReturn m lb e) fifo)).1
  refine ⟨⟨(h₁.linkTail hP.list he hnot).same (hP.same_fifo hnext le_rfl (by omega)), hpop,
    fun e' he' => ?_, fun e' he' => h.mem e' (mem_cons_of_mem e he'), ?_⟩, haddr⟩
  · have := hP.fifo_entry e' he'
    rw [itemRdNext, hnext.rd16 (by omega)]
    exact index_of_spares h.index hspares e' he'
  · rw [MsgSeq.add, append_assoc]
    exact h.nodup

lemma pipeLoop_eq (hP : StagePlace fifo ring lb V) (hk : k + 1 < 4294967296)
    (h : Returns fifo ring lb V k s l m) (hfuel : l.length ≤ fuel) :
    ∃ m', pipeLoop fifo lb fuel (fifoGetItemRd (ShMem.loadFifo m fifo)) m = some m' ∧
      Returns fifo ring lb V (k + 1) { s with entries := s.entries ++ l } [] m' := by
  induction l generalizing s m fuel with
  | nil =>
    refine ⟨semUp m (lb + 64), ?_, by simpa using h.up hP hk⟩
    rw [h.stages.getItemRd_nil]
    cases fuel with
    | zero => rw [pipeLoop, if_pos rfl]
    | succ fuel => rw [pipeLoop, if_pos rfl]
  | cons e l ih =>
    obtain ⟨fuel, rfl⟩ := Nat.exists_eq_add_of_lt (Nat.lt_of_lt_of_le (Nat.succ_pos _) hfuel)
    have he : e ∈ V := h.mem e mem_cons_self
    have hindex := h.index e he
    obtain ⟨hitem, hentry⟩ := h.stages.getItemRd_cons hP.place
    obtain ⟨hlink, haddr⟩ := h.link hP
    rw [length_cons] at hfuel
    obtain ⟨m', hloop, hm'⟩ := ih hlink (show l.length ≤ fuel by omega)
    refine ⟨m', ?_, ?_⟩
    · rw [Nat.zero_add, pipeLoop, if_neg hitem]
      simp only [hentry, hP.va e he, Bool.false_eq_true, if_false, if_neg (Nat.not_lt.mpr hindex)]
      rw [haddr, hloop]
    · rwa [MsgSeq.add, append_assoc] at hm'

lemma stage (hP : StagePlace fifo ring lb V) (h : Returns fifo ring lb V k s l m)
    (hroom : l.length < 20) (he : e ∈ V) (hnot : e ∉ s.entries ++ l) :
    Returns fifo ring lb V k s (l ++ [e]) (IpcMem.addReturn2Fifo m fifo e) := by
  have hle : e + 104 ≤ 4294967296 := hP.list.entry_le e he
  have hfe := hP.fifo_entry e he
  have hre := hP.ring_entry e he
  have hring := hP.ring_off
  have hoff : e + 104 ≤ lb ∨ lb + 80 ≤ e := hP.list.off e he
  have hfo := hP.fifo_off
  -- nothing of a message is written but its flags
  have hkeeps {e' lo hi : ℕ} (he' : e' ∈ V) (hlo : e' ≤ lo) (hhi : hi ≤ e' + 104)
      (hflag : hi ≤ e' + 10 ∨ e' + 12 ≤ lo) : Keeps lo hi m (IpcMem.addReturn2Fifo m fifo e) := by
    have := hP.fifo_entry e' he'
    have := hP.ring_entry e' he'
    refine h.stages.keeps_push hP.place (by omega) (by omega) ?_
    by_cases hee : e = e'
    · omega
    · have : e + 104 ≤ e' ∨ e' + 104 ≤ e := hP.list.apart e he e' he' hee
      omega
  have hsame : Holds.Same .message lb V m (IpcMem.addReturn2Fifo m fifo e) :=
    ⟨h.stages.keeps_push hP.place (by omega) (by omega) (by omega),
      fun e' he' => hkeeps he' (show e' ≤ e' + 12 by omega) (show e' + 12 + 4 ≤ e' + 104 by omega)
        (.inr le_rfl),
      fun e' he' => hkeeps he' (show e' ≤ e' + 84 by omega) (show e' + 84 + 8 ≤ e' + 104 by omega)
        (.inr (show e' + 12 ≤ e' + 84 by omega))⟩
  refine ⟨h.holds.same hsame, h.stages.push hP.place (by omega) (hP.va e he) (by omega) (by omega)
    (by omega), fun e' he' => ?_, fun e' he' => ?_, ?_⟩
  · rw [(hkeeps he' (by omega) (by omega) (.inl (by omega))).rd16 (le_refl (e' + 4)) le_rfl]
    exact h.index e' he'
  · rcases mem_append.mp he' with he' | he'
    · exact h.mem e' he'
    · exact mem_singleton.mp he' ▸ he
  · rw [← append_assoc]
    exact h.nodup.append (nodup_singleton e) (by simpa using hnot)

lemma stage_full (h : Returns fifo ring lb V k s l m) (hfull : ¬l.length < 20) :
    IpcMem.addReturn2Fifo m fifo e = m := by
  have hrd := h.stages.header.rd_lt
  have hwr := h.stages.wrIdx
  have hlen := h.stages.length_lt
  have hzero := h.stages.header.getItemWr_full (by omega)
  simp only [IpcMem.addReturn2Fifo, hzero, if_true, ite_self]

end Returns

/-! ### The operations -/

/-- The share sequence of `cpu` has the FIFO and its socket has the list. -/
structure ReturnPlace (G : CommGlobals) (cpu ring : ℕ) (V : Set ℕ) : Prop
    extends StagePlace (G.getShareSeqR cpu 1 + 32) ring (G.sock cpu 267) V where
  cpu_le : cpu ≤ 1
  seq_ne : G.getShareSeqR cpu 1 ≠ 0
  sock_le : G.commSockt + 4 * (1248 * cpu + 287) ≤ 4294967296

inductive ReturnOp
  | stage (e : ℕ)
  | pipe
  | get (id : ℕ)
  /-- the sender of a message writes its session -/
  | setSession (e id : ℕ)

def returnStep (G : CommGlobals) (cpu fuel : ℕ) (st : Bytes × List Reply) :
    ReturnOp → Option (Bytes × List Reply)
  | .stage e => some (IpcMem.addReturn2Fifo st.1 (G.getShareSeqR cpu 1 + 32) e, st.2)
  | .pipe => (returnPipeLine G fuel st.1 cpu).map fun m => (m, st.2)
  | .get id =>
    (getReturnbySessionId G fuel st.1 id cpu true).map fun r => (r.1, st.2 ++ [r.2])
  | .setSession e id => some (st.1.wr32 (e + 12) id, st.2)

/-- The listed and the staged messages. -/
structure ReturnSeq where
  listed : MsgSeq
  staged : List ℕ
  replies : List Reply

namespace ReturnSeq

def pipe (r : ReturnSeq) : ReturnSeq :=
  { r with
    listed := { r.listed with entries := r.listed.entries ++ r.staged }
    staged := [] }

def step (r : ReturnSeq) : ReturnOp → Option ReturnSeq
  | .stage e => some (if r.staged.length < 20 then { r with staged := r.staged ++ [e] } else r)
  | .pipe => some r.pipe
  | .get id =>
    match r.pipe.listed.find id with
    | some e => some { r.pipe with
        listed := r.pipe.listed.remove e
        replies := r.replies ++ [⟨0, some e⟩] }
    | none   => some { r.pipe with replies := r.replies ++ [⟨0, some 0⟩] }
  | .setSession e id => some { r with listed := r.listed.setSession e id }

def Ok (V : Set ℕ) (r : ReturnSeq) : ReturnOp → Prop
  | .stage e         => e ∈ V ∧ e ∉ r.listed.entries ++ r.staged
  | .setSession e id => e ∈ V ∧ id < 4294967296
  | _                => True

end ReturnSeq

namespace ReturnPlace

variable {G : CommGlobals} {cpu : ℕ}

lemma sock_sem (hP : ReturnPlace G cpu ring V) : G.sock cpu 283 = G.sock cpu 267 + 64 := by
  have := hP.sock_le
  rw [CommGlobals.sock, CommGlobals.sock, u32_of_lt (by omega), u32_of_lt (by omega)]
  omega

lemma returnPipeLine_eq (hP : ReturnPlace G cpu ring V) (hk : k + 1 < 4294967296)
    (h : Returns (G.getShareSeqR cpu 1 + 32) ring (G.sock cpu 267) V (k + 1) s l m)
    (hfuel : l.length ≤ fuel) :
    ∃ m', returnPipeLine G fuel m cpu = some m' ∧
      Returns (G.getShareSeqR cpu 1 + 32) ring (G.sock cpu 267) V (k + 1)
        { s with entries := s.entries ++ l } [] m' := by
  obtain ⟨m₁, hdown, h₁⟩ := h.down hP.toStagePlace
  obtain ⟨m', hloop, h'⟩ := h₁.pipeLoop_eq hP.toStagePlace hk hfuel
  refine ⟨m', ?_, h'⟩
  rw [returnPipeLine, if_neg (Nat.not_lt.mpr hP.cpu_le)]
  simp only [hP.seq_ne, if_false, hP.sock_sem, hdown]
  exact hloop

lemma walkReturns_eq (hP : StagePlace fifo ring lb V) (h : Holds .message lb V k s m)
    (hfuel : s.entries.length ≤ fuel) (id : ℕ) :
    walkReturns m lb id fuel = some ((s.find id).map fun e => (true, e + 84)) := by
  rw [walkReturns, h.walk_eq hP.list hfuel, find]
  refine congrArg some (findSome?_eq_find? fun e he => ?_)
  have hle : e + 104 ≤ 4294967296 := hP.list.entry_le e (h.mem e he)
  have hsub : sub32 (e + 84) 72 = e + 12 := by
    rw [sub32_of_le (by omega) (by omega)]
    omega
  have hsession : m.rd32 (e + 12) = s.session e := h.session e (h.mem e he)
  have hva := hP.node_va e (h.mem e he)
  simp only [EntryKind.message, hva, Bool.false_eq_true, if_false, hsub, hsession,
    decide_eq_true_eq]

lemma getReturn_eq (hP : ReturnPlace G cpu ring V) (hk : k + 1 < 4294967296)
    (h : Returns (G.getShareSeqR cpu 1 + 32) ring (G.sock cpu 267) V (k + 1) s l m)
    (hfuel : s.entries.length + l.length ≤ fuel) (replies : List Reply) :
    ∃ r m', ReturnSeq.step ⟨s, l, replies⟩ (.get id) = some r ∧
      returnStep G cpu fuel (m, replies) (.get id) = some (m', r.replies) ∧
      Returns (G.getShareSeqR cpu 1 + 32) ring (G.sock cpu 267) V (k + 1) r.listed r.staged m' ∧
      r.listed.entries.length + r.staged.length ≤ s.entries.length + l.length := by
  obtain ⟨m₁, hpipe, h₁⟩ := hP.returnPipeLine_eq hk h (show l.length ≤ fuel by omega)
  obtain ⟨m₂, hdown, h₂⟩ := h₁.down hP.toStagePlace
  have hwalk := walkReturns_eq hP.toStagePlace h₂.holds
    (show (s.entries ++ l).length ≤ fuel by rwa [length_append]) id
  set s₁ : MsgSeq := { s with entries := s.entries ++ l } with hs₁
  have hlen : s₁.entries.length = s.entries.length + l.length := length_append
  simp only [returnStep, getReturnbySessionId, if_neg (Nat.not_lt.mpr hP.cpu_le), hpipe,
    hP.sock_sem, hdown, hwalk, bind_eq_bind, bind_some]
  cases hfind : s₁.find id with
  | none =>
    refine ⟨⟨s₁, [], replies ++ [⟨0, some 0⟩]⟩, _, ?_, rfl, h₂.up hP.toStagePlace hk, ?_⟩
    · simp only [ReturnSeq.step, ReturnSeq.pipe, ← hs₁, hfind]
    · exact hlen.le
  | some e =>
    have he := mem_of_find hfind
    have hrem := h₂.unlink hP.toStagePlace he
    have hsub : sub32 (e + 84) 84 = e := hP.list.sub_node (h₂.holds.mem e he)
    -- the count does not go below zero
    have hcount : ¬i32 ((countDown (m₂.listDel (e + 84)) (G.sock cpu 267)).rd32
        (G.sock cpu 267 + 52)) < 0 := by
      have hlt := hP.list.length_lt hrem.holds.nodup hrem.holds.mem
      rw [hrem.holds.count, i32_of_lt hlt]
      omega
    refine ⟨⟨s₁.remove e, [], replies ++ [⟨0, some e⟩]⟩, _, ?_, ?_, hrem.up hP.toStagePlace hk, ?_⟩
    · simp only [ReturnSeq.step, ReturnSeq.pipe, ← hs₁, hfind]
    · simp only [map_some, if_neg hcount, hsub, if_true]
    · have hle : (s₁.entries.erase e).length ≤ s₁.entries.length := length_erase_le
      exact hle.trans hlen.le

end ReturnPlace

namespace ReturnOp

variable {G : CommGlobals} {cpu : ℕ} {op : ReturnOp}

lemma simulate (hP : ReturnPlace G cpu ring V) (hk : k + 1 < 4294967296) {replies : List Reply}
    (h : Returns (G.getShareSeqR cpu 1 + 32) ring (G.sock cpu 267) V (k + 1) s l m)
    (hok : ReturnSeq.Ok V ⟨s, l, replies⟩ op) (hfuel : s.entries.length + l.length ≤ fuel) :
    ∃ r m', ReturnSeq.step ⟨s, l, replies⟩ op = some r ∧
      returnStep G cpu fuel (m, replies) op = some (m', r.replies) ∧
      Returns (G.getShareSeqR cpu 1 + 32) ring (G.sock cpu 267) V (k + 1) r.listed r.staged m' ∧
      r.listed.entries.length + r.staged.length ≤ s.entries.length + l.length + 1 := by
  cases op with
  | stage e =>
    by_cases hroom : l.length < 20
    · refine ⟨⟨s, l ++ [e], replies⟩, _, ?_, rfl, h.stage hP.toStagePlace hroom hok.1 hok.2, ?_⟩
      · simp only [ReturnSeq.step, hroom, if_true]
      · simp only [length_append, length_singleton]
        omega
    · refine ⟨⟨s, l, replies⟩, m, ?_, ?_, h, le_succ _⟩
      · simp only [ReturnSeq.step, hroom, if_false]
      · simp only [returnStep, h.stage_full hroom]
  | pipe =>
    obtain ⟨m', hpipe, h'⟩ := hP.returnPipeLine_eq hk h (show l.length ≤ fuel by omega)
    refine ⟨_, m', rfl, ?_, h', ?_⟩
    · simp only [returnStep, hpipe, map_some]
      rfl
    · simp [ReturnSeq.pipe]
  | get id =>
    obtain ⟨r, m', hr, hm', h', hlen⟩ := hP.getReturn_eq hk h hfuel replies
    exact ⟨r, m', hr, hm', h', by omega⟩
  | setSession e id =>
    exact ⟨_, _, rfl, rfl, h.setSession hP.toStagePlace hok.1 hok.2, le_succ _⟩

/-- What the operations in memory and on sequences have in common, with `n` of them to go. -/
structure Matches (G : CommGlobals) (cpu ring : ℕ) (V : Set ℕ) (k fuel n : ℕ) (r : ReturnSeq)
    (st : Bytes × List Reply) : Prop where
  replies : st.2 = r.replies
  returns : Returns (G.getShareSeqR cpu 1 + 32) ring (G.sock cpu 267) V (k + 1) r.listed r.staged
    st.1
  fuel : r.listed.entries.length + r.staged.length + n ≤ fuel

lemma run_matches {r : ReturnSeq} {st : Bytes × List Reply} {ops : List ReturnOp}
    (hP : ReturnPlace G cpu ring V) (hk : k + 1 < 4294967296)
    (h : Matches G cpu ring V k fuel ops.length r st)
    (hg : Guarded ReturnSeq.step (ReturnSeq.Ok V) r ops) :
    ∃ r' st', run ReturnSeq.step r ops = some r' ∧ run (returnStep G cpu fuel) st ops = some st' ∧
      Matches G cpu ring V k fuel 0 r' st' := by
  refine hg.exists_simulation (fun n r st op h hok => ?_) h
  obtain ⟨m, replies⟩ := st
  obtain ⟨s, l, replies'⟩ := r
  obtain ⟨rfl, hm, hn⟩ := h
  have hn : s.entries.length + l.length + (n + 1) ≤ fuel := hn
  obtain ⟨r', m', hr', hm', h', hlen⟩ := simulate hP hk hm hok
    (show s.entries.length + l.length ≤ fuel by omega)
  have hn' : r'.listed.entries.length + r'.staged.length + n ≤ fuel := by omega
  exact ⟨r', (m', r'.replies), hr', hm', rfl, h', hn'⟩

end ReturnOp

end CpuComm
