import H713.CpuComm.Channel.Basic

/-!
# Calls for a channel

An incoming call is put into the staging FIFO of its share sequence, and its channel is woken. The
woken thread reads its calls from a FIFO header at `+32` of the channel's slot, which no function
writes.
-/

namespace CpuComm

open Machine Function List

/-- The fields of a call entry that `Comm_Add2NewCallFifo` reads, and its address. -/
structure ChannelCall where
  vir : ℕ
  /-- the command word, `u16` at `+0` -/
  name : ℕ
  /-- `u16` at `+2` -/
  cpu : ℕ
  /-- `u32` at `+16` -/
  pid : ℕ
  vir_ne : vir ≠ 0
deriving DecidableEq

def ChannelCall.key (e : ChannelCall) : ℕ := ChannelPool.queryKey e.cpu e.pid

namespace ChannelPool

variable (p : ChannelPool)

def semUp (i : ℕ) : ChannelPool :=
  { p with word := Function.update p.word (11 * i + 5) (u32 (p.slot i 5 + 1)) }

def cmdFifo (i : ℕ) : CommFifo where
  rdIdx := p.slot i 8
  wrIdx := p.slot i 9
  peakCount := p.slot i 10
  trackStats := p.slot (i + 1) 0
  capacity := p.slot (i + 1) 1
  itemSize := p.slot (i + 1) 2
  baseAddr := p.slot (i + 1) 3

def setCmdFifo (i : ℕ) (f : CommFifo) : ChannelPool :=
  { p with
    word :=
      Function.update (Function.update p.word (11 * i + 8) f.rdIdx) (11 * i + 10) f.peakCount }

def commGetCallbyChannel (mem : ℕ → ℕ) (p : ChannelPool) (channelId : ℕ) : ChannelPool × ℕ :=
  match p.commQueryChannel channelId with
  | none   => (p, 0)
  | some i =>
    let item := fifoGetItemRd (p.cmdFifo i)
    if item = 0 then (p, 0) else (p.setCmdFifo i (fifoItemRdNext (p.cmdFifo i)).1, mem item)

def getCalls (mem : ℕ → ℕ) (channelId : ℕ) : ChannelPool → ℕ → List ℕ
  | _, 0     => []
  | p, n + 1 =>
    let (p', r) := p.commGetCallbyChannel mem channelId
    r :: getCalls mem channelId p' n

inductive PoolOp
  | add (compId cpu : ℕ)
  | remove (compId cpu : ℕ)

def apply : PoolOp → ChannelPool
  | .add c u    => (p.commAddNewChannel c u).1
  | .remove c u => (p.commRemoveChannel c u).1

end ChannelPool

/-! ### Incoming calls -/

/-- The channel pool and the staging FIFO of a share sequence, with the words of its ring. -/
structure CallPath where
  pool : ChannelPool
  cmdFifo : CommFifo
  ring : ℕ → ℕ

namespace CallPath

def init (pool : ChannelPool) (ring : ℕ) : CallPath := ⟨pool, ⟨0, 0, 0, 1, 21, 4, ring⟩, fun _ => 0⟩

def signal (p : ChannelPool) (e : ChannelCall) : ChannelPool :=
  match p.commQueryChannel e.key with
  | none   => p
  | some i =>
    if p.slot i 0 / 65536 ≠ e.name then p
    else if p.slot i 2 ≠ e.pid then p
    else if p.slot i 3 ≠ e.key then p
    else p.semUp i

variable (s : CallPath) (e : ChannelCall)

def add2NewCallFifo : CallPath :=
  let wrSlot := fifoGetItemWr s.cmdFifo
  if wrSlot = 0 then s
  else
    let ring := Function.update s.ring wrSlot e.vir
    let (f, next) := fifoRequestItemWr s.cmdFifo
    if next = 0 then ⟨s.pool, f, ring⟩ else ⟨signal s.pool e, f, ring⟩

def step : Option CallPath := some (s.add2NewCallFifo e)

def Wakes : Prop :=
  ∃ i, s.pool.commQueryChannel e.key = some i ∧
    (s.add2NewCallFifo e).pool.slot i 5 = u32 (s.pool.slot i 5 + 1)

end CallPath

/-! ### What a channel returns -/

namespace ChannelPool

variable {mem : ℕ → ℕ} {p q : ChannelPool} {id i n : ℕ}

lemma query_congr (h : ∀ j, q.slot j 0 = p.slot j 0) (id : ℕ) :
    q.commQueryChannel id = p.commQueryChannel id := by
  simp only [commQueryChannel, h]

lemma slot_update (w : ℕ → ℕ) (b i j v : ℕ) {k m : ℕ} (hk : k < 11) (hm : m < 11) :
    slot ⟨b, update w (11 * i + m) v⟩ j k
      = if j = i ∧ k = m then v else slot ⟨b, w⟩ j k := by
  simp only [slot, update_apply]
  exact if_congr (by omega) rfl rfl

lemma slot_setCmdFifo (p : ChannelPool) (i j : ℕ) (f : CommFifo) {k : ℕ} (hk : k < 11) :
    (p.setCmdFifo i f).slot j k = if j = i ∧ k = 10 then f.peakCount
      else if j = i ∧ k = 8 then f.rdIdx else p.slot j k := by
  rw [setCmdFifo, slot_update _ _ _ _ _ hk (by decide), slot_update _ _ _ _ _ hk (by decide)]

lemma getCalls_of_empty (hq : p.commQueryChannel id = some i)
    (h : fifoGetItemRd (p.cmdFifo i) = 0) : getCalls mem id p n = List.replicate n 0 := by
  induction n with
  | zero => rfl
  | succ n ih =>
    simp only [getCalls, commGetCallbyChannel, hq, h, if_true, ih, replicate_succ]

/-- The header at `+32` of a slot is as initialisation or removal has left it, and the next slot has
no session. -/
structure Unread (p : ChannelPool) (i : ℕ) : Prop where
  rd : p.slot i 8 = 0 ∨ p.slot i 8 = 0xFFFFFFFF
  wr : p.slot i 9 = 0
  cap : p.slot (i + 1) 1 = 0

def strayAddr (p : ChannelPool) (i : ℕ) : ℕ :=
  u32 (p.slot (i + 1) 3 + p.slot (i + 1) 2 * 0xFFFFFFFF)

def Stray (mem : ℕ → ℕ) (p : ChannelPool) (i v : ℕ) : Prop :=
  p.slot i 8 ≠ 0 ∧ p.strayAddr i ≠ 0 ∧ mem (p.strayAddr i) = v

lemma getCalls_unread (h : p.Unread i) (hq : p.commQueryChannel id = some i) (mem : ℕ → ℕ) :
    (∃ v, p.Stray mem i v ∧ ∀ n, getCalls mem id p (n + 1) = v :: List.replicate n 0) ∨
      ((∀ v, ¬ p.Stray mem i v) ∧ ∀ n, getCalls mem id p n = List.replicate n 0) := by
  by_cases hrd : p.slot i 8 = 0
  · refine .inr ⟨fun v hv => hv.1 hrd, fun n => getCalls_of_empty hq ?_⟩
    simp [fifoGetItemRd, CommFifo.rdAddr, cmdFifo, hrd, h.wr]
  have hmax : p.slot i 8 = 0xFFFFFFFF := h.rd.resolve_left hrd
  have hitem : fifoGetItemRd (p.cmdFifo i) = p.strayAddr i := by
    simp [fifoGetItemRd, CommFifo.rdAddr, CommFifo.slot, cmdFifo, hmax, h.wr, strayAddr]
  by_cases haddr : p.strayAddr i = 0
  · exact .inr ⟨fun v hv => hv.2.1 haddr, fun n => getCalls_of_empty hq (hitem.trans haddr)⟩
  refine .inl ⟨mem (p.strayAddr i), ⟨hrd, haddr, rfl⟩, fun n => ?_⟩
  -- the capacity is zero, so the read index wraps to the write index
  obtain ⟨c, hc⟩ := CommFifo.exists_trackLow { p.cmdFifo i with rdIdx := 0 }
  have hnext : (fifoItemRdNext (p.cmdFifo i)).1
      = { p.cmdFifo i with rdIdx := 0, peakCount := c } := by
    rw [← hc]
    simp [fifoItemRdNext, CommFifo.succ, cmdFifo, hmax, h.wr, h.cap, u32]
  have hget : p.commGetCallbyChannel mem id
      = (p.setCmdFifo i { p.cmdFifo i with rdIdx := 0, peakCount := c }, mem (p.strayAddr i)) := by
    simp only [commGetCallbyChannel, hq, hitem, if_neg haddr, hnext]
  rw [getCalls, hget]
  refine congrArg (_ :: ·) (getCalls_of_empty ((query_congr (fun j => ?_) id).trans hq) ?_)
  · simp [slot_setCmdFifo]
  · simp [fifoGetItemRd, CommFifo.rdAddr, cmdFifo, slot_setCmdFifo, h.wr]

lemma getCalls_eq_iff (h : p.Unread i) (hq : p.commQueryChannel id = some i) {l : List ℕ}
    (hne : l ≠ []) (h0 : ∀ v ∈ l, v ≠ 0) :
    (∀ n, getCalls mem id p n = (l ++ List.replicate n 0).take n) ↔
      ∃ v, l = [v] ∧ p.Stray mem i v := by
  obtain ⟨a, l, rfl⟩ := exists_cons_of_ne_nil hne
  have ha : a ≠ 0 := h0 a mem_cons_self
  obtain ⟨v, hv, hget⟩ | ⟨hnone, hget⟩ := getCalls_unread h hq mem
  · constructor
    · intro hall
      have h1 := (hget 1).symm.trans (hall 2)
      cases l with
      | nil =>
        obtain rfl : v = a := by simpa using h1
        exact ⟨v, rfl, hv⟩
      | cons b l =>
        -- the second read finds nothing
        obtain ⟨-, hb⟩ : v = a ∧ 0 = b := by simpa using h1
        exact absurd hb.symm (h0 b (by simp))
    · rintro ⟨w, hw, hstray⟩ n
      obtain ⟨rfl, rfl⟩ : a = w ∧ l = [] := by simpa using hw
      obtain rfl : a = v := hstray.2.2.symm.trans hv.2.2
      cases n with
      | zero => rfl
      | succ n => simp [hget, take_replicate]
  · refine ⟨fun hall => absurd ?_ ha, fun ⟨w, _, hw⟩ => absurd hw (hnone w)⟩
    have h1 := (hget 1).symm.trans (hall 1)
    simpa using h1.symm

/-! ### Registered channels -/

/-- What holds of a pool after any additions and removals. -/
structure Registered (p : ChannelPool) : Prop where
  unread : ∀ i < 32, p.Unread i
  id_eq : ∀ i < 32, p.slot i 0 ≠ 0 → p.slot i 3 = p.slot i 0

lemma Registered.init (base : ℕ) : (channelPoolInit base).Registered where
  unread i hi := by
    constructor <;> simp [slot_init, hi]
  id_eq i hi := by simp [slot_init]

lemma Registered.fill (h : p.Registered) {src : ℕ → ℕ} {n : ℕ} (hn : n = 8 ∨ n = 11)
    (hsession : src 1 = 0) (hid : src 3 = src 0) (hclear : n = 11 → src 8 = 0 ∧ src 9 = 0) :
    (p.fill i src n).Registered := by
  have hn11 : n ≤ 11 := by omega
  have hslot (j k : ℕ) (hk : k < 11) := slot_fill p i src (j := j) hn11 hk
  constructor
  · intro j hj
    obtain ⟨hrd, hwr, hcap⟩ := h.unread j hj
    have hcap' : (p.fill i src n).slot (j + 1) 1 = 0 := by
      rw [hslot _ _ (by decide)]
      split_ifs
      exacts [hsession, hcap]
    by_cases hji : j = i ∧ n = 11
    · obtain ⟨h8, h9⟩ := hclear hji.2
      have hwritten (k : ℕ) (hk : k < 11) : (p.fill i src n).slot j k = src k := by
        rw [hslot j k hk, if_pos (by omega)]
      exact ⟨.inl ((hwritten 8 (by decide)).trans h8), (hwritten 9 (by decide)).trans h9, hcap'⟩
    · have hkeep (k : ℕ) (hk : 8 ≤ k) (hk' : k < 11) : (p.fill i src n).slot j k = p.slot j k := by
        rw [hslot j k hk', if_neg (by omega)]
      exact ⟨by rw [hkeep 8 le_rfl (by decide)]; exact hrd,
        by rw [hkeep 9 (by decide) (by decide)]; exact hwr, hcap'⟩
  · intro j hj
    rw [hslot j 0 (by decide), hslot j 3 (by decide)]
    by_cases hji : j = i
    · rw [if_pos ⟨hji, by omega⟩, if_pos ⟨hji, by omega⟩]
      exact fun _ => hid
    · rw [if_neg fun hc => hji hc.1, if_neg fun hc => hji hc.1]
      exact h.id_eq j hj

lemma Registered.apply (h : p.Registered) (op : PoolOp) : (p.apply op).Registered := by
  cases op with
  | add c u =>
    simp only [ChannelPool.apply, commAddNewChannel]
    split
    · exact h.fill (.inl rfl) rfl rfl fun h => absurd h (by decide)
    · exact h
  | remove c u =>
    simp only [ChannelPool.apply, commRemoveChannel]
    split
    · exact h.fill (.inr rfl) rfl rfl fun _ => ⟨rfl, rfl⟩
    · exact h

lemma Registered.foldl (h : p.Registered) (ops : List PoolOp) :
    (ops.foldl ChannelPool.apply p).Registered := by
  induction ops generalizing p with
  | nil => exact h
  | cons op ops ih => exact ih (h.apply op)

end ChannelPool

/-! ### What an entry wakes -/

namespace CallPath

open ChannelPool

variable {p : ChannelPool} {s : CallPath} {e : ChannelCall} {ring k : ℕ}

def Accepts (p : ChannelPool) (e : ChannelCall) : Prop :=
  ∃ i, p.commQueryChannel e.key = some i ∧ e.key / 65536 = e.name ∧ p.slot i 2 = e.pid

lemma slot_semUp (p : ChannelPool) (i j : ℕ) {k : ℕ} (hk : k < 11) :
    (p.semUp i).slot j k = if j = i ∧ k = 5 then u32 (p.slot i 5 + 1) else p.slot j k :=
  slot_update _ _ _ _ _ hk (by decide)

lemma u32_succ_ne (n : ℕ) : n ≠ u32 (n + 1) := by
  unfold u32
  omega

lemma signal_eq (hp : p.Registered) (hkey : e.key ≠ 0) :
    (∃ i, p.commQueryChannel e.key = some i ∧ e.key / 65536 = e.name ∧ p.slot i 2 = e.pid ∧
        signal p e = p.semUp i) ∨
      (¬ Accepts p e ∧ signal p e = p) := by
  unfold signal
  cases hq : p.commQueryChannel e.key with
  | none => exact .inr ⟨fun ⟨i, hi, _⟩ => by simp [hq] at hi, rfl⟩
  | some i =>
    obtain ⟨hi, hid⟩ := of_query_eq_some hq
    have hid3 : p.slot i 3 = e.key := (hp.id_eq i hi (hid ▸ hkey)).trans hid
    by_cases hname : e.key / 65536 = e.name
    · by_cases hpid : p.slot i 2 = e.pid
      · exact .inl ⟨i, rfl, hname, hpid, by simp [hid, hname, hpid, hid3]⟩
      · refine .inr ⟨fun ⟨j, hj, _, hjpid⟩ => hpid ?_, by simp [hpid]⟩
        obtain rfl : i = j := Option.some.inj (hq.symm.trans hj)
        exact hjpid
    · exact .inr ⟨fun ⟨j, _, hjname, _⟩ => hname hjname, by simp [hid, hname]⟩

/-- After `k` entries: the staging FIFO holds them, and the pool has changed in its semaphores
only. -/
structure Staged (p : ChannelPool) (ring k : ℕ) (s : CallPath) : Prop where
  le : k ≤ 20
  fifo : ∃ c, s.cmdFifo = ⟨0, k, c, 1, 21, 4, ring⟩
  same : ∀ j m, m < 11 → m ≠ 5 → s.pool.slot j m = p.slot j m

lemma Staged.init (p : ChannelPool) (ring : ℕ) : Staged p ring 0 (init p ring) :=
  ⟨Nat.zero_le 20, ⟨0, rfl⟩, fun _ _ _ _ => rfl⟩

lemma Staged.query_eq (h : Staged p ring k s) (id : ℕ) :
    s.pool.commQueryChannel id = p.commQueryChannel id :=
  query_congr (fun j => h.same j 0 (by decide) (by decide)) id

lemma Staged.unread (h : Staged p ring k s) {i : ℕ} (hi : p.Unread i) : s.pool.Unread i := by
  obtain ⟨hrd, hwr, hcap⟩ := hi
  exact ⟨by rwa [h.same i 8 (by decide) (by decide)], by rwa [h.same i 9 (by decide) (by decide)],
    by rwa [h.same (i + 1) 1 (by decide) (by decide)]⟩

lemma Staged.registered (h : Staged p ring k s) (hp : p.Registered) : s.pool.Registered where
  unread i hi := h.unread (hp.unread i hi)
  id_eq i hi := by
    rw [h.same i 0 (by decide) (by decide), h.same i 3 (by decide) (by decide)]
    exact hp.id_eq i hi

lemma Staged.accepts_iff (h : Staged p ring k s) : Accepts s.pool e ↔ Accepts p e := by
  simp only [Accepts, h.query_eq, h.same _ 2 (by decide) (by decide)]

lemma Staged.stray_iff (h : Staged p ring k s) {mem : ℕ → ℕ} {i v : ℕ} :
    s.pool.Stray mem i v ↔ p.Stray mem i v := by
  simp only [Stray, strayAddr, h.same i 8 (by decide) (by decide),
    h.same (i + 1) 2 (by decide) (by decide), h.same (i + 1) 3 (by decide) (by decide)]

lemma signal_same (p : ChannelPool) (e : ChannelCall) (j : ℕ) {m : ℕ} (hm : m < 11) (h5 : m ≠ 5) :
    (signal p e).slot j m = p.slot j m := by
  unfold signal
  split
  · rfl
  · split_ifs <;> simp [slot_semUp, hm, h5]

def RingOk (ring : ℕ) : Prop := 0 < ring ∧ ring + 84 < 2 ^ 32

lemma Staged.add (h : Staged p ring k s) (hring : RingOk ring) (hk : k < 20) (e : ChannelCall) :
    (s.add2NewCallFifo e).pool = signal s.pool e ∧
      Staged p ring (k + 1) (s.add2NewCallFifo e) := by
  obtain ⟨-, ⟨c, hf⟩, hsame⟩ := h
  obtain ⟨hpos, hlt⟩ := hring
  have hsucc : u32 (k + 1) % 21 = k + 1 := by
    rw [u32_of_lt (by omega), Nat.mod_eq_of_lt (by omega)]
  have haddr (m : ℕ) (hm : m ≤ 20) : u32 (ring + 4 * m) = ring + 4 * m := u32_of_lt (by omega)
  have hwr : fifoGetItemWr s.cmdFifo = ring + 4 * k := by
    simp [fifoGetItemWr, hf, CommFifo.wrAddr, CommFifo.succ, CommFifo.slot, hsucc,
      haddr k (by omega)]
  obtain ⟨c', hc'⟩ := CommFifo.exists_trackPeak ⟨0, k + 1, c, 1, 21, 4, ring⟩
  have hreq : fifoRequestItemWr s.cmdFifo
      = (⟨0, k + 1, c', 1, 21, 4, ring⟩, ring + 4 * (k + 1)) := by
    simp [fifoRequestItemWr, hf, CommFifo.succ, CommFifo.slot, hsucc, hc', haddr (k + 1) (by omega)]
  have hadd : s.add2NewCallFifo e
      = ⟨signal s.pool e, ⟨0, k + 1, c', 1, 21, 4, ring⟩,
          update s.ring (ring + 4 * k) e.vir⟩ := by
    simp only [add2NewCallFifo, hwr, hreq]
    rw [if_neg (by omega), if_neg (by omega)]
  rw [hadd]
  refine ⟨rfl, by omega, ⟨c', rfl⟩, fun j m hm h5 => ?_⟩
  exact (signal_same s.pool e j hm h5).trans (hsame j m hm h5)

lemma Staged.add_full (h : Staged p ring 20 s) (e : ChannelCall) : s.add2NewCallFifo e = s := by
  obtain ⟨-, ⟨c, hf⟩, -⟩ := h
  have hwr : fifoGetItemWr s.cmdFifo = 0 := by
    simp [fifoGetItemWr, hf, CommFifo.wrAddr, CommFifo.succ, u32]
  simp only [add2NewCallFifo, hwr, if_true]

lemma Staged.wakes_iff (h : Staged p ring k s) (hring : RingOk ring) (hp : p.Registered)
    (hkey : e.key ≠ 0) : Wakes s e ↔ k < 20 ∧ Accepts p e := by
  rcases Nat.lt_or_eq_of_le h.le with hk | rfl
  · rw [Wakes, (h.add hring hk e).1, ← h.accepts_iff]
    obtain ⟨i, hq, hname, hpid, hsig⟩ | ⟨hno, hsig⟩ := signal_eq (h.registered hp) hkey
    · refine ⟨fun _ => ⟨hk, i, hq, hname, hpid⟩, fun _ => ⟨i, hq, ?_⟩⟩
      rw [hsig, slot_semUp _ _ _ (by decide), if_pos ⟨rfl, rfl⟩]
    · refine ⟨fun ⟨i, _, hup⟩ => absurd (hsig ▸ hup) (u32_succ_ne _),
        fun ⟨_, hacc⟩ => absurd hacc hno⟩
  · rw [Wakes, h.add_full e]
    exact ⟨fun ⟨i, _, hup⟩ => absurd hup (u32_succ_ne _), fun ⟨hlt, _⟩ => absurd hlt (lt_irrefl 20)⟩

lemma Staged.guarded_wakes_iff {es : List ChannelCall} (h : Staged p ring k s) (hring : RingOk ring)
    (hp : p.Registered) (hes : ∀ e ∈ es, e.key ≠ 0) :
    Guarded step Wakes s es ↔ k + es.length ≤ 20 ∧ ∀ e ∈ es, Accepts p e := by
  induction es generalizing k s with
  | nil => exact ⟨fun _ => ⟨h.le, by simp⟩, fun _ => trivial⟩
  | cons e es ih =>
    have hwake := h.wakes_iff hring hp (hes e mem_cons_self)
    have hes' : ∀ e ∈ es, e.key ≠ 0 := fun x hx => hes x (mem_cons_of_mem e hx)
    simp only [Guarded, CallPath.step, Option.some.injEq, forall_eq', hwake, length_cons,
      forall_mem_cons]
    constructor
    · rintro ⟨⟨hk, hacc⟩, hrest⟩
      obtain ⟨hlen, haccs⟩ := (ih (h.add hring hk e).2 hes').mp hrest
      exact ⟨by omega, hacc, haccs⟩
    · rintro ⟨hlen, hacc, haccs⟩
      have hk : k < 20 := by omega
      exact ⟨⟨hk, hacc⟩, (ih (h.add hring hk e).2 hes').mpr ⟨by omega, haccs⟩⟩

lemma Staged.step (h : Staged p ring k s) (hring : RingOk ring) (e : ChannelCall) :
    ∃ k', Staged p ring k' (s.add2NewCallFifo e) := by
  rcases Nat.lt_or_eq_of_le h.le with hk | rfl
  · exact ⟨k + 1, (h.add hring hk e).2⟩
  · exact ⟨20, (h.add_full e).symm ▸ h⟩

lemma Staged.of_run {es : List ChannelCall} {t : CallPath} (hring : RingOk ring)
    (ht : run CallPath.step (CallPath.init p ring) es = some t) : ∃ k, Staged p ring k t := by
  refine run_invariant (I := fun s => ∃ k, Staged p ring k s) ?_ ⟨0, Staged.init p ring⟩ ht
  rintro s e s' ⟨k, hk⟩ hs
  obtain rfl := Option.some.inj hs
  exact hk.step hring e

/-! ### Calls and their channels -/

def sameChannel (es : List ChannelCall) (e : ChannelCall) : List ChannelCall :=
  es.filter fun x => x.key = e.key

def Returned (mem : ℕ → ℕ) (t : CallPath) (es : List ChannelCall) (e : ChannelCall) : Prop :=
  ∀ n, getCalls mem e.key t.pool n
    = ((sameChannel es e).map ChannelCall.vir ++ List.replicate n 0).take n

lemma returned_iff {t : CallPath} {es : List ChannelCall} {mem : ℕ → ℕ} {i : ℕ}
    (ht : Staged p ring k t) (hp : p.Registered) (he : e ∈ es)
    (hq : p.commQueryChannel e.key = some i) :
    Returned mem t es e ↔ sameChannel es e = [e] ∧ p.Stray mem i e.vir := by
  have hmem : e ∈ sameChannel es e := mem_filter.mpr ⟨he, by simp⟩
  have hi := (of_query_eq_some hq).1
  have hne : (sameChannel es e).map ChannelCall.vir ≠ [] := by
    simpa using ne_nil_of_mem hmem
  have h0 : ∀ v ∈ (sameChannel es e).map ChannelCall.vir, v ≠ 0 := by
    simp only [mem_map, forall_exists_index, and_imp]
    rintro v x - rfl
    exact x.vir_ne
  rw [Returned, getCalls_eq_iff (ht.unread (hp.unread i hi)) ((ht.query_eq e.key).trans hq) hne h0]
  simp only [ht.stray_iff]
  constructor
  · rintro ⟨v, hv, hstray⟩
    obtain ⟨x, hx, rfl⟩ := map_eq_singleton_iff.mp hv
    obtain rfl : e = x := by simpa [hx] using hmem
    exact ⟨hx, hstray⟩
  · rintro ⟨hx, hstray⟩
    exact ⟨e.vir, by rw [hx]; rfl, hstray⟩

/-- Entries wake their channels and are returned in order exactly if there are at most twenty, ids
and pids fit, and the header read for the channel leads to the only entry for it. -/
theorem channel_calls_iff (base : ℕ) (ops : List PoolOp) {ring : ℕ} (hring : RingOk ring)
    (mem : ℕ → ℕ) {p : ChannelPool} (hp : p = ops.foldl ChannelPool.apply (channelPoolInit base))
    {es : List ChannelCall} (hes : ∀ e ∈ es, e.key ≠ 0 ∧ (p.commQueryChannel e.key).isSome) :
    (Guarded step Wakes (init p ring) es ∧
      ∀ t, run step (init p ring) es = some t → ∀ e ∈ es, Returned mem t es e) ↔
    es.length ≤ 20 ∧ ∀ e ∈ es, Accepts p e ∧ sameChannel es e = [e] ∧
      ∃ i, p.commQueryChannel e.key = some i ∧ p.Stray mem i e.vir := by
  have hreg : p.Registered := hp ▸ (Registered.init base).foldl ops
  rw [(Staged.init p ring).guarded_wakes_iff hring hreg fun e he => (hes e he).1, Nat.zero_add]
  obtain ⟨t, ht⟩ : ∃ t, run step (init p ring) es = some t :=
    ((guarded_true _ es).exists_run (I := fun _ => True)
      (fun s e _ _ => ⟨s.add2NewCallFifo e, rfl, trivial⟩) trivial).imp fun _ h => h.1
  obtain ⟨k, hk⟩ := Staged.of_run hring ht
  constructor
  · rintro ⟨⟨hlen, hacc⟩, hret⟩
    refine ⟨hlen, fun e he => ?_⟩
    obtain ⟨i, hi⟩ := Option.isSome_iff_exists.mp (hes e he).2
    obtain ⟨hone, hstray⟩ := (returned_iff hk hreg he hi).mp (hret t ht e he)
    exact ⟨hacc e he, hone, i, hi, hstray⟩
  · rintro ⟨hlen, hall⟩
    refine ⟨⟨hlen, fun e he => (hall e he).1⟩, fun t' ht' e he => ?_⟩
    obtain rfl : t = t' := Option.some.inj (ht.symm.trans ht')
    obtain ⟨-, hone, i, hi, hstray⟩ := hall e he
    exact (returned_iff hk hreg he hi).mpr ⟨hone, hstray⟩

def twoChannels : ChannelPool :=
  [PoolOp.add 1 4096, .add 2 4096].foldl ChannelPool.apply (channelPoolInit 0)

def strayEntry : ChannelCall := ⟨256, 1, 1, 4096, by decide⟩

/-- The address of the call stands where the ids of the second channel lead. -/
theorem channel_calls_stray :
    Guarded step Wakes (init twoChannels 256) [strayEntry] ∧
      ∀ t, run step (init twoChannels 256) [strayEntry] = some t →
        ∀ e ∈ [strayEntry], Returned (fun _ => 256) t [strayEntry] e := by
  refine (channel_calls_iff 0 [.add 1 4096, .add 2 4096] ⟨by decide, by decide⟩ _ rfl
    (by decide +kernel)).mpr ⟨by decide, ?_⟩
  rw [forall_mem_singleton]
  exact ⟨⟨0, by decide +kernel⟩, by decide +kernel, 0, by decide +kernel, by decide +kernel,
    by decide +kernel, rfl⟩

/-- A call for process 1000 wakes its channel, which then finds no call; with command word 1 it does
not even wake it. -/
theorem channel_call_lost :
    let p := (channelPoolInit 0).apply (.add 1 1000)
    let calls (name : ℕ) := run step (init p 256) [⟨4096, name, 1, 1000, by decide⟩]
    p.commQueryChannel (queryKey 1 1000) = some 0 ∧
      (calls 0).map (fun t => (t.pool.slot 0 5, getCalls (fun _ => 0) (queryKey 1 1000) t.pool 1))
        = some (1, [0]) ∧
      (calls 1).map (fun t => t.pool.slot 0 5) = some 0 := by
  decide +kernel

end CallPath

end CpuComm
