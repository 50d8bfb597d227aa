import H713.Mipsloader.Capture

/-!
# The poll loop in mode 2

The MIPS core stores its log into a buffer of 2 MiB and counts it in `wp2`. `elog_thread_fn` copies
what is new and, near the end, sets `wp2` back to zero, while the MIPS core may be between two
accesses.
-/

namespace Mipsloader

open Machine Function List Option

def elogLinearBufSize : ℕ := 2097152

/-- Between two appends, with `wp2` in a register, or with its byte stored and `wp2` still to be
written. -/
inductive Mips where
  | idle
  | loaded (b : UInt8) (w : ℕ)
  | stored (w : ℕ)
  deriving DecidableEq

/-- Before the read of `wp2`, in `memcpy_fromio` with what is copied so far, or before the reset. -/
inductive Poller where
  | waiting
  | copying (cur : ℕ) (tmp : List UInt8)
  | cycling
  deriving DecidableEq

/-- The buffer, `wp2`, `elog_last_wp_src` and both sides. `written` are the bytes stored and
`appended` those passed to `elog_append`. -/
structure Log where
  linear : ℕ → UInt8
  wp2 : ℕ
  lastWpSrc : ℕ
  mips : Mips
  poller : Poller
  written : List UInt8
  appended : List UInt8

def Log.init (linear : ℕ → UInt8) : Log where
  linear := linear
  wp2 := 0
  lastWpSrc := 0
  mips := .idle
  poller := .waiting
  written := []
  appended := []

/-- The MIPS core reads `wp2` to append a byte, stores the byte, writes `wp2`; the poll loop goes
on. -/
inductive Act where
  | load (b : UInt8)
  | store
  | inc
  | poll
  deriving DecidableEq

/-! ### The steps -/

variable (s : Log)

def Log.read : Log :=
  if s.wp2 = s.lastWpSrc then s
  else
    let cur := if elogLinearBufSize < s.wp2 then elogLinearBufSize else s.wp2
    let last := if cur < s.lastWpSrc then 0 else s.lastWpSrc
    if cur - last = 0 then { s with lastWpSrc := last }
    else { s with lastWpSrc := last, poller := .copying cur [] }

def Log.copy (cur : ℕ) (tmp : List UInt8) : Log :=
  if s.lastWpSrc + tmp.length < cur then
    { s with poller := .copying cur (tmp ++ [s.linear (s.lastWpSrc + tmp.length)]) }
  else
    { s with
      appended := s.appended ++ tmp
      lastWpSrc := cur
      poller := if elogLinearBufSize - 64 ≤ cur then .cycling else .waiting }

def Log.cycle : Log := { s with wp2 := 0, lastWpSrc := 0, poller := .waiting }

def Log.poll : Log :=
  match s.poller with
  | .waiting         => s.read
  | .copying cur tmp => s.copy cur tmp
  | .cycling         => s.cycle

def Log.step : Act → Option Log
  | .load b =>
    match s.mips with
    | .idle => some (if s.wp2 < elogLinearBufSize then { s with mips := .loaded b s.wp2 } else s)
    | _     => none
  | .store =>
    match s.mips with
    | .loaded b w =>
      some { s with
        linear := Function.update s.linear w b
        mips := .stored w
        written := s.written ++ [b] }
    | _ => none
  | .inc =>
    match s.mips with
    | .stored w => some { s with wp2 := w + 1, mips := .idle }
    | _         => none
  | .poll => some s.poll

/-- All that a step can be. -/
inductive Steps (s : Log) : Act → Log → Prop
  | full (b : UInt8) (hm : s.mips = .idle) (hw : elogLinearBufSize ≤ s.wp2) : Steps s (.load b) s
  | load (b : UInt8) (hm : s.mips = .idle) (hw : s.wp2 < elogLinearBufSize) :
      Steps s (.load b) { s with mips := .loaded b s.wp2 }
  | store {b : UInt8} {w : ℕ} (hm : s.mips = .loaded b w) :
      Steps s .store { s with
        linear := Function.update s.linear w b
        mips := .stored w
        written := s.written ++ [b] }
  | inc {w : ℕ} (hm : s.mips = .stored w) : Steps s .inc { s with wp2 := w + 1, mips := .idle }
  | read (hp : s.poller = .waiting) : Steps s .poll s.read
  | copy {cur : ℕ} {tmp : List UInt8} (hp : s.poller = .copying cur tmp) :
      Steps s .poll (s.copy cur tmp)
  | cycle (hp : s.poller = .cycling) : Steps s .poll s.cycle

lemma steps_of_step {s s' : Log} {a : Act} (h : s.step a = some s') : Steps s a s' := by
  cases a with
  | load b =>
    simp only [Log.step] at h
    split at h
    · rename_i hm
      obtain rfl := Option.some.inj h
      split_ifs with hw
      · exact .load b hm hw
      · exact .full b hm (Nat.not_lt.mp hw)
    · cases h
  | store =>
    simp only [Log.step] at h
    split at h
    · rename_i hm
      obtain rfl := Option.some.inj h
      exact .store hm
    · cases h
  | inc =>
    simp only [Log.step] at h
    split at h
    · rename_i hm
      obtain rfl := Option.some.inj h
      exact .inc hm
    · cases h
  | poll =>
    obtain rfl := Option.some.inj h
    rw [Log.poll]
    split
    · exact .read ‹_›
    · exact .copy ‹_›
    · exact .cycle ‹_›

/-! ### The buffer as a queue -/

def Log.inFlight : List UInt8 :=
  match s.mips with
  | .stored w => [s.linear w]
  | _         => []

def Log.queue : List UInt8 := copyFrom s.linear s.lastWpSrc (s.wp2 - s.lastWpSrc)

def Log.complete : List UInt8 := s.written.take (s.written.length - s.inFlight.length)

def Quiet (a : Act) : Prop :=
  a = .poll → s.poller = .cycling → s.mips = .idle ∧ s.wp2 = s.lastWpSrc

instance (a : Act) : Decidable (Quiet s a) :=
  inferInstanceAs (Decidable (a = .poll → s.poller = .cycling →
    s.mips = .idle ∧ s.wp2 = s.lastWpSrc))

def Mips.Holds (wp2 : ℕ) : Mips → Prop
  | .idle       => True
  | .loaded _ w => w = wp2 ∧ w < elogLinearBufSize
  | .stored w   => w = wp2 ∧ w < elogLinearBufSize

def Log.Copied : Poller → Prop
  | .copying cur tmp =>
    cur ≤ s.wp2 ∧ s.lastWpSrc + tmp.length ≤ cur ∧ tmp = copyFrom s.linear s.lastWpSrc tmp.length
  | _ => True

structure Queued (s : Log) : Prop where
  size : s.wp2 ≤ elogLinearBufSize
  last : s.lastWpSrc ≤ s.wp2
  mips : s.mips.Holds s.wp2
  poller : s.Copied s.poller
  content : s.written = s.appended ++ s.queue ++ s.inFlight

lemma queued_init (linear : ℕ → UInt8) : Queued (.init linear) where
  size := Nat.zero_le _
  last := le_rfl
  mips := trivial
  poller := trivial
  content := rfl

section

variable {s s' : Log} {a : Act}

lemma Log.Copied.mono {p : Poller} (h : s.Copied p) (hw : s.wp2 ≤ s'.wp2)
    (hlast : s'.lastWpSrc = s.lastWpSrc)
    (hlinear : ∀ n, s.lastWpSrc + n ≤ s.wp2 →
      copyFrom s'.linear s.lastWpSrc n = copyFrom s.linear s.lastWpSrc n) : s'.Copied p := by
  cases p with
  | waiting => trivial
  | cycling => trivial
  | copying cur tmp =>
    obtain ⟨hcur, hlen, htmp⟩ := h
    refine ⟨hcur.trans hw, hlast ▸ hlen, ?_⟩
    rw [hlast, hlinear _ (hlen.trans hcur)]
    exact htmp

lemma Queued.read_eq (h : Queued s) :
    s.read = if s.wp2 = s.lastWpSrc then s else { s with poller := .copying s.wp2 [] } := by
  have hlast := h.last
  rw [Log.read, if_neg (Nat.not_lt.mpr h.size)]
  refine if_ctx_congr Iff.rfl (fun _ => rfl) fun hne => ?_
  dsimp only
  rw [if_neg (Nat.not_lt.mpr hlast), if_neg (by omega)]

lemma Queued.read (h : Queued s) : Queued s.read := by
  rw [h.read_eq]
  split_ifs
  · exact h
  · exact { h with poller := ⟨le_rfl, h.last, rfl⟩ }

lemma Queued.store (h : Queued s) {b : UInt8} {w : ℕ} (hm : s.mips = .loaded b w) :
    Queued { s with
      linear := update s.linear w b
      mips := .stored w
      written := s.written ++ [b] } := by
  have hlast := h.last
  have hreg := h.mips
  have hcontent := h.content
  rw [hm] at hreg
  obtain ⟨rfl, hlt⟩ := hreg
  refine ⟨h.size, h.last, ⟨rfl, hlt⟩, ?_, ?_⟩
  · exact h.poller.mono le_rfl rfl fun n hn => copyFrom_update _ _ hn
  · simp only [Log.queue, Log.inFlight, hm] at hcontent ⊢
    rw [copyFrom_update _ _ (by omega), update_self, hcontent, append_nil]

lemma Queued.inc (h : Queued s) {w : ℕ} (hm : s.mips = .stored w) :
    Queued { s with wp2 := w + 1, mips := .idle } := by
  have hlast := h.last
  have hreg := h.mips
  have hcontent := h.content
  rw [hm] at hreg
  obtain ⟨rfl, hlt⟩ := hreg
  refine ⟨hlt, by dsimp only; omega, trivial, ?_, ?_⟩
  · exact h.poller.mono (Nat.le_succ _) rfl fun n _ => rfl
  · simp only [Log.queue, Log.inFlight, hm] at hcontent ⊢
    rw [Nat.sub_add_comm hlast, copyFrom_succ, Nat.add_sub_cancel' hlast, append_nil,
      ← append_assoc, hcontent]

lemma Queued.copy (h : Queued s) {cur : ℕ} {tmp : List UInt8} (hp : s.poller = .copying cur tmp) :
    Queued (s.copy cur tmp) := by
  have hcopied := h.poller
  rw [hp] at hcopied
  obtain ⟨hcur, hlen, htmp⟩ := hcopied
  by_cases hmore : s.lastWpSrc + tmp.length < cur
  · rw [Log.copy, if_pos hmore]
    refine { h with poller := ⟨hcur, ?_, ?_⟩ }
    · rw [length_append, length_singleton]
      exact hmore
    · rw [length_append, length_singleton, copyFrom_succ, ← htmp]
  · -- all is copied, so the queue loses what `elog_append` gets
    have hall : s.wp2 - s.lastWpSrc = tmp.length + (s.wp2 - cur) := by omega
    have hplace : s.lastWpSrc + tmp.length = cur := by omega
    have hqueue : s.queue = tmp ++ copyFrom s.linear cur (s.wp2 - cur) := by
      rw [Log.queue, hall, copyFrom_add, ← htmp, hplace]
    rw [Log.copy, if_neg hmore]
    refine ⟨h.size, hcur, h.mips, ?_, ?_⟩
    · dsimp only
      split_ifs <;> trivial
    · have hcontent := h.content
      rw [hqueue, ← append_assoc] at hcontent
      exact hcontent

lemma Queued.cycle (h : Queued s) (hm : s.mips = .idle) (hw : s.wp2 = s.lastWpSrc) :
    Queued s.cycle where
  size := Nat.zero_le _
  last := le_rfl
  mips := by
    rw [Log.cycle, hm]
    trivial
  poller := trivial
  content := by
    have hcontent := h.content
    rw [Log.queue, hw, Nat.sub_self] at hcontent
    exact hcontent

lemma Queued.step (h : Queued s) (hq : Quiet s a) (hs : s.step a = some s') : Queued s' := by
  cases steps_of_step hs with
  | full b hm hw => exact h
  | load b hm hw =>
    refine { h with mips := ⟨rfl, hw⟩, content := ?_ }
    have hcontent := h.content
    simp only [Log.inFlight, hm] at hcontent
    exact hcontent
  | store hm => exact h.store hm
  | inc hm => exact h.inc hm
  | read hp => exact h.read
  | copy hp => exact h.copy hp
  | cycle hp =>
    obtain ⟨hm, hw⟩ := hq rfl hp
    exact h.cycle hm hw

lemma Queued.appended_prefix (h : Queued s) : s.appended <+: s.written := by
  rw [h.content, append_assoc]
  exact prefix_append _ _

lemma Queued.complete_eq (h : Queued s) : s.complete = s.appended ++ s.queue := by
  rw [Log.complete, h.content, length_append, Nat.add_sub_cancel]
  exact take_left

/-! ### Nothing stays in the queue -/

def Log.todo (s : Log) (len : ℕ) : ℕ :=
  match s.poller with
  | .waiting         => elogLinearBufSize + 2
  | .copying cur tmp =>
    cur - (s.lastWpSrc + tmp.length) + 1 +
      if len ≤ s.appended.length + (cur - s.lastWpSrc) then 0 else elogLinearBufSize + 3
  | .cycling         => elogLinearBufSize + 3

def Due (len n : ℕ) (s : Log) : Prop :=
  len ≤ s.appended.length ∨
    len ≤ s.appended.length + (s.wp2 - s.lastWpSrc) ∧ s.todo len ≤ n

lemma Queued.due_read {len n : ℕ} (h : Queued s) (hp : s.poller = .waiting) (hd : Due len n s) :
    Due len (n - 1) s.read := by
  have hsize := h.size
  have hlast := h.last
  rw [h.read_eq]
  rcases hd with hdone | ⟨hlen, htodo⟩
  · split_ifs
    · exact .inl hdone
    · exact .inl hdone
  · simp only [Log.todo, hp] at htodo
    split_ifs with heq
    · exact .inl (by omega)
    · refine .inr ⟨hlen, ?_⟩
      simp only [Log.todo, length_nil]
      rw [if_pos hlen]
      omega

lemma Queued.due_copy {len n cur : ℕ} {tmp : List UInt8} (h : Queued s)
    (hp : s.poller = .copying cur tmp) (hd : Due len n s) : Due len (n - 1) (s.copy cur tmp) := by
  have hcopied := h.poller
  rw [hp] at hcopied
  obtain ⟨hcur, htmp, -⟩ := hcopied
  by_cases hmore : s.lastWpSrc + tmp.length < cur
  · rw [Log.copy, if_pos hmore]
    rcases hd with hdone | ⟨hlen, htodo⟩
    · exact .inl hdone
    · refine .inr ⟨hlen, ?_⟩
      simp only [Log.todo, hp, length_append, length_singleton] at htodo ⊢
      omega
  · rw [Log.copy, if_neg hmore]
    have happ : (s.appended ++ tmp).length = s.appended.length + (cur - s.lastWpSrc) := by
      rw [length_append]
      omega
    rcases hd with hdone | ⟨hlen, htodo⟩
    · exact .inl (by dsimp only; omega)
    · simp only [Log.todo, hp] at htodo
      by_cases hin : len ≤ s.appended.length + (cur - s.lastWpSrc)
      · exact .inl (by dsimp only; omega)
      · -- stored after the read: the next poll takes it
        rw [if_neg hin] at htodo
        refine .inr ⟨by dsimp only; omega, ?_⟩
        simp only [Log.todo]
        split_ifs <;> dsimp only <;> omega

lemma written_prefix_step (hs : s.step a = some s') : s.written <+: s'.written := by
  cases steps_of_step hs with
  | full b hm hw => exact prefix_rfl
  | load b hm hw => exact prefix_rfl
  | store hm => exact prefix_append _ _
  | inc hm => exact prefix_rfl
  | read hp =>
    simp only [Log.read]
    split_ifs <;> exact prefix_rfl
  | copy hp =>
    rw [Log.copy]
    split_ifs <;> exact prefix_rfl
  | cycle hp => exact prefix_rfl

lemma Queued.due_step {len n : ℕ} (h : Queued s) (hq : Quiet s a) (hs : s.step a = some s')
    (hd : Due len n s) : Due len (if a == .poll then n - 1 else n) s' := by
  cases steps_of_step hs with
  | full b hm hw => exact hd
  | load b hm hw => exact hd
  | store hm => exact hd
  | inc hm =>
    have hreg := h.mips
    rw [hm] at hreg
    obtain ⟨rfl, -⟩ := hreg
    refine hd.imp id fun ⟨hlen, htodo⟩ => ⟨?_, htodo⟩
    dsimp only
    omega
  | read hp => exact h.due_read hp hd
  | copy hp => exact h.due_copy hp hd
  | cycle hp =>
    obtain ⟨-, hw⟩ := hq rfl hp
    refine .inl ?_
    rcases hd with hdone | ⟨hlen, -⟩
    · exact hdone
    · rw [hw, Nat.sub_self] at hlen
      exact hlen

lemma Queued.todo_le (h : Queued s) (len : ℕ) : s.todo len ≤ 2 * elogLinearBufSize + 4 := by
  have hsize := h.size
  have hcopied := h.poller
  rw [Log.todo]
  split
  · omega
  · rename_i cur tmp hp
    rw [hp] at hcopied
    have hcur := hcopied.1
    split_ifs <;> omega
  · omega

end

/-- While each reset is quiet, what has been passed to `elog_append` is a beginning of what was
stored, and the bytes counted now have been passed on after two rounds of the poll loop. -/
theorem poll_exactly_once (linear : ℕ → UInt8) {as : List Act} {s : Log}
    (hquiet : Guarded Log.step Quiet (.init linear) as)
    (hrun : run Log.step (.init linear) as = some s) :
    s.appended <+: s.written ∧
    ∀ bs t, Guarded Log.step Quiet s bs → run Log.step s bs = some t →
      2 * elogLinearBufSize + 4 ≤ bs.count .poll → s.complete <+: t.appended := by
  have hstep : ∀ s a s', Queued s → Quiet s a → Log.step s a = some s' → Queued s' :=
    fun s a s' h hq hs => h.step hq hs
  have hs : Queued s := hquiet.invariant hstep (queued_init linear) hrun
  refine ⟨hs.appended_prefix, fun bs t hg hr hcount => ?_⟩
  have ht : Queued t := hg.invariant hstep hs hr
  have hwritten : s.written <+: t.written :=
    run_invariant (I := fun u => s.written <+: u.written)
      (fun _ _ _ h hu => h.trans (written_prefix_step hu)) prefix_rfl hr
  have hnow : Due s.complete.length (2 * elogLinearBufSize + 4) s := by
    refine .inr ⟨?_, hs.todo_le _⟩
    rw [hs.complete_eq, length_append, Log.queue, length_copyFrom]
  have hlen : s.complete.length ≤ t.appended.length := by
    rcases hg.due hstep (fun _ _ _ _ h hq hu hd => h.due_step hq hu hd) hs hr hnow hcount
      with hdone | ⟨-, htodo⟩
    · exact hdone
    · rw [Log.todo] at htodo
      split at htodo <;> omega
  exact prefix_of_prefix_length_le (( take_prefix _ _).trans hwritten) ht.appended_prefix
    hlen

section

variable {s : Log}

lemma poll_of_drained (hp : s.poller = .waiting) (hw : s.wp2 = s.lastWpSrc) : s.poll = s := by
  simp only [Log.poll, hp]
  rw [Log.read, if_pos hw]

lemma run_polls_of_drained (hp : s.poller = .waiting) (hw : s.wp2 = s.lastWpSrc) (n : ℕ) :
    run Log.step s (List.replicate n .poll) = some s := by
  induction n with
  | zero => rfl
  | succ n ih =>
    rw [replicate_succ, run_cons, Log.step, poll_of_drained hp hw, bind_some, ih]

/-- While the MIPS core does nothing, the poll loop is the only one to change `wp2`. -/
structure Alone (s : Log) : Prop where
  idle : s.mips = .idle
  size : s.wp2 ≤ elogLinearBufSize
  copying : ∀ cur tmp, s.poller = .copying cur tmp → cur = s.wp2
  cycling : s.poller = .cycling → s.wp2 = s.lastWpSrc

lemma Alone.poll (h : Alone s) : Alone s.poll := by
  obtain ⟨hidle, hsize, hcopying, hcycling⟩ := h
  rw [Log.poll]
  split
  · rename_i hp
    simp only [Log.read, if_neg (Nat.not_lt.mpr hsize)]
    split_ifs
    · exact ⟨hidle, hsize, hcopying, hcycling⟩
    all_goals exact ⟨hidle, hsize, by simp [hp], by simp [hp]⟩
  · rename_i cur tmp hp
    obtain rfl := hcopying cur tmp hp
    rw [Log.copy]
    split_ifs
    · exact ⟨hidle, hsize, by simp, by simp⟩
    · exact ⟨hidle, hsize, by simp, fun _ => rfl⟩
    · exact ⟨hidle, hsize, by simp, by simp⟩
  · exact ⟨hidle, Nat.zero_le _, nofun, nofun⟩

lemma Alone.guarded (h : Alone s) (n : ℕ) :
    Guarded Log.step Quiet s (List.replicate n .poll) := by
  induction n generalizing s with
  | zero => trivial
  | succ n ih =>
    refine ⟨fun _ hp => ⟨h.idle, h.cycling hp⟩, fun s' hs => ?_⟩
    cases hs
    exact ih h.poll

end

/-! ### A buffer that is filled -/

variable (n : ℕ)

def zeros : Log :=
  { Log.init fun _ => 0 with wp2 := n, written := List.replicate n 0 }

def appends : ℕ → List Act
  | 0     => []
  | n + 1 => appends n ++ [.load 0, .store, .inc]

lemma run_appends {n : ℕ} (hn : n ≤ elogLinearBufSize) :
    run Log.step (.init fun _ => 0) (appends n) = some (zeros n) := by
  induction n with
  | zero => rfl
  | succ n ih =>
    rw [appends, run_append, ih (Nat.le_of_succ_le hn), bind_some]
    have hload : (zeros n).step (.load 0) = some { zeros n with mips := .loaded 0 n } := by
      simp only [Log.step, zeros, Log.init, Option.some.injEq]
      exact if_pos hn
    have hzero : update (fun _ : ℕ => (0 : UInt8)) n 0 = fun _ => 0 :=
      update_eq_self n _
    rw [run_cons, hload, bind_some, run_cons]
    simp only [Log.step, bind_some, run_cons, run_nil, zeros, Log.init, hzero,
      ← replicate_succ']

def copied (n k : ℕ) : Log := { zeros n with poller := .copying n (List.replicate k 0) }

lemma run_copied {n k : ℕ} (hk : k ≤ n) :
    run Log.step (copied n 0) (List.replicate k .poll) = some (copied n k) := by
  induction k with
  | zero => rfl
  | succ k ih =>
    have hmore : (copied n k).lastWpSrc + (List.replicate k (0 : UInt8)).length < n := by
      rw [length_replicate]
      exact (Nat.zero_add k).trans_lt hk
    have hpoll : (copied n k).poll = copied n (k + 1) := by
      change Log.copy (copied n k) n (List.replicate k 0) = _
      have hnext : copied n (k + 1) =
          { zeros n with poller := .copying n (List.replicate k 0 ++ [0]) } := by
        rw [copied, replicate_succ']
      rw [Log.copy, if_pos hmore, hnext]
      rfl
    rw [replicate_succ', run_append, ih (Nat.le_of_succ_le hk), bind_some, run_cons,
      Log.step, hpoll]
    rfl

def passed : Log :=
  { zeros n with appended := List.replicate n 0, lastWpSrc := n, poller := .cycling }

lemma run_passed {n : ℕ} (hn : elogLinearBufSize - 64 ≤ n) (hsize : n ≤ elogLinearBufSize) :
    run Log.step (.init fun _ => 0) (appends n ++ (.poll :: List.replicate (n + 1) .poll)) =
      some (passed n) := by
  have hpos : 0 < n := Nat.lt_of_lt_of_le (by decide) hn
  have hread : (zeros n).poll = copied n 0 := by
    change Log.read (zeros n) = _
    have hne : (zeros n).wp2 ≠ (zeros n).lastWpSrc := hpos.ne'
    have hcap : ¬ elogLinearBufSize < (zeros n).wp2 := Nat.not_lt.mpr hsize
    rw [Log.read, if_neg hne, if_neg hcap]
    exact if_neg hpos.ne'
  have hlast : (copied n n).poll = passed n := by
    change Log.copy (copied n n) n (List.replicate n 0) = _
    rw [Log.copy, if_neg, if_pos hn]
    · rfl
    · rw [length_replicate]
      exact (Nat.zero_add n).not_lt
  rw [run_append, run_appends hsize, bind_some, run_cons, Log.step, bind_some, hread,
    replicate_succ', run_append, run_copied le_rfl, bind_some, run_cons, Log.step,
    hlast]
  rfl

def resetRun : List Act :=
  appends n ++ List.replicate (n + 3) .poll ++ [.load 5, .store, .inc, .load 6, .store, .inc]

/-- The buffer is filled with `n` zeros and set back, and two more bytes are stored. -/
def afterReset : Log :=
  { Log.init (Function.update (Function.update (fun _ => 0) 0 5) 1 6) with
    wp2 := 2
    written := List.replicate n 0 ++ [5] ++ [6]
    appended := List.replicate n 0 }

lemma run_resetRun {n : ℕ} (hn : elogLinearBufSize - 64 ≤ n) (hsize : n ≤ elogLinearBufSize) :
    run Log.step (.init fun _ => 0) (resetRun n) = some (afterReset n) := by
  have hpolls : List.replicate (n + 3) Act.poll =
      (.poll :: List.replicate (n + 1) .poll) ++ [.poll] := by
    rw [replicate_succ', replicate_succ]
  rw [resetRun, hpolls, ← append_assoc, run_append, run_append, run_passed hn hsize]
  rfl

lemma guarded_resetRun {n : ℕ} (hsize : n ≤ elogLinearBufSize) :
    Guarded Log.step Quiet (.init fun _ => 0) (resetRun n) := by
  have happends : ∀ n, ∀ a ∈ appends n, ∀ s, Quiet s a := by
    intro n
    induction n with
    | zero => exact fun a ha => absurd ha not_mem_nil
    | succ n ih =>
      intro a ha s hpoll
      subst hpoll
      rcases mem_append.mp ha with ha | ha
      · exact ih _ ha s rfl
      · simp at ha
  refine ((guarded_of_forall (happends n) _).append fun t ht => ?_).append fun t _ => ?_
  · obtain rfl := Option.some.inj ((run_appends hsize).symm.trans ht)
    exact Alone.guarded ⟨rfl, hsize, by simp [zeros, Log.init], by simp [zeros, Log.init]⟩ _
  · exact guarded_of_forall (by simp [Quiet]) t

lemma complete_afterReset : (afterReset n).complete = List.replicate n 0 ++ [5] ++ [6] :=
  take_length

lemma run_afterReset (n k : ℕ) :
    run Log.step (afterReset n) (List.replicate (k + 4) .poll) =
      some { afterReset n with appended := List.replicate n 0 ++ [5, 6], lastWpSrc := 2 } :=
  run_polls_of_drained rfl rfl k

lemma alone_afterReset : Alone (afterReset n) :=
  ⟨rfl, by simp [afterReset, elogLinearBufSize], by simp [afterReset, Log.init],
    by simp [afterReset, Log.init]⟩

/-- All bytes from before and after the reset are passed on. -/
theorem poll_exactly_once_reset :
    ∃ as t, run Log.step (.init fun _ => 0) as = some (afterReset 2097088) ∧
      run Log.step (afterReset 2097088) (List.replicate 4194308 .poll) = some t ∧
      List.replicate 2097088 0 ++ [5] ++ [6] <+: t.appended := by
  have hrun := run_resetRun (n := 2097088) (by decide) (by decide)
  have hpolls := run_afterReset 2097088 4194304
  rw [← complete_afterReset]
  refine ⟨_, _, hrun, hpolls, ?_⟩
  refine (poll_exactly_once (fun _ => 0) (guarded_resetRun (by decide)) hrun).2 _ _
    ((alone_afterReset 2097088).guarded _) hpolls ?_
  rw [count_replicate_self, elogLinearBufSize]

/-! ### A byte that is lost -/

def lost : Log :=
  { Log.init (Function.update (fun _ => 0) n 7) with
    written := List.replicate n 0 ++ [7]
    appended := List.replicate n 0 }

lemma run_lost {n : ℕ} (hn : n < elogLinearBufSize) :
    run Log.step (passed n) [.load 7, .store, .inc, .poll] = some (lost n) := by
  have hload : (passed n).step (.load 7) = some { passed n with mips := .loaded 7 n } :=
    congrArg some (if_pos hn)
  rw [run_cons, hload]
  rfl

/-- The buffer is filled up to 64 bytes before its end and copied; a byte stored before the reset is
never passed on. -/
theorem byte_lost : ∃ as t, run Log.step (.init fun _ => 0) as = some t ∧
    t.written = List.replicate 2097088 0 ++ [7] ∧ t.appended = List.replicate 2097088 0 ∧
    t.mips = .idle ∧ ∀ n, run Log.step t (List.replicate n .poll) = some t := by
  refine ⟨appends 2097088 ++ (.poll :: List.replicate (2097088 + 1) .poll) ++
    [.load 7, .store, .inc, .poll], lost 2097088, ?_, rfl, rfl, rfl, run_polls_of_drained rfl rfl⟩
  rw [run_append, run_passed (by decide) (by decide), bind_some, run_lost (by decide)]

end Mipsloader
