import H713.Machine.PrioQueue

/-!
# The frame queues of the Wi-Fi driver

A `frame_queue` has one list for each priority. `hi_prio` bounds the priorities in use from above:
it goes up when a frame is queued and comes down only in `aicwf_frame_dequeue`, on the way to the
frame that is taken.
-/

namespace Wifi

open Machine PrioQueue List

variable {α : Type*}

def u16 (n : ℕ) : ℕ := n % 65536

structure FrameQueue (α : Type*) where
  numPrio : ℕ
  hiPrio : ℕ
  qmax : ℕ
  qcnt : ℕ
  queuelist : ℕ → List α

def aicwfFrameQueueInit (numPrio maxLen : ℕ) : FrameQueue α where
  numPrio := u16 numPrio
  hiPrio := 0
  qmax := u16 maxLen
  qcnt := 0
  queuelist := fun _ => []

namespace FrameQueue

def set (q : FrameQueue α) (prio : ℕ) (l : List α) : FrameQueue α :=
  { q with queuelist := Function.update q.queuelist prio l }

def aicwfFrameQueuePenq (q : FrameQueue α) (prio : ℕ) (p : α) : FrameQueue α × Option α :=
  if q.qmax ≤ (q.queuelist prio).length then (q, none)
  else
    ({ q.set prio (q.queuelist prio ++ [p]) with
      qcnt := u16 (q.qcnt + 1)
      hiPrio := if q.hiPrio < prio then u16 prio else q.hiPrio }, some p)

def aicwfFrameEnq (q : FrameQueue α) (pkt : α) (prio : ℕ) : FrameQueue α × Bool :=
  if (q.queuelist prio).length < q.qmax ∧ q.qcnt < q.qmax then
    ((q.aicwfFrameQueuePenq prio pkt).1, true)
  else (q, false)

/-- `hi_prio` when the loop of `aicwf_frame_dequeue` has passed the empty lists. -/
def lowered (lists : ℕ → List α) : ℕ → ℕ
  | 0        => 0
  | prio + 1 => if (lists (prio + 1)).isEmpty then lowered lists prio else prio + 1

def aicwfFrameDequeue (q : FrameQueue α) : FrameQueue α × Option α :=
  if q.qcnt = 0 then (q, none)
  else
    let prio := lowered q.queuelist q.hiPrio
    let q := { q with hiPrio := prio }
    match q.queuelist prio with
    | []        => (q, none)
    | p :: rest => ({ q.set prio rest with qcnt := u16 (q.qcnt + 65535) }, some p)

/-- `qcnt--` for each frame of a list. -/
def flushList (q : FrameQueue α) (prio : ℕ) : FrameQueue α :=
  { q.set prio [] with
    qcnt := (q.queuelist prio).foldl (fun qcnt _ => u16 (qcnt + 65535)) q.qcnt }

def aicwfFrameQueueFlush (q : FrameQueue α) : FrameQueue α :=
  (List.range q.numPrio).foldl flushList q

def aicwfIsFramequeueEmpty (q : FrameQueue α) : Bool :=
  ¬ 0 < (List.range (q.hiPrio + 1)).foldl (fun len prio => len + (q.queuelist prio).length) 0

def step (q : FrameQueue α) : Op α → FrameQueue α × Answer α
  | .put prio pkt => ((q.aicwfFrameEnq pkt prio).1, .said (q.aicwfFrameEnq pkt prio).2)
  | .take         => (q.aicwfFrameDequeue.1, .item q.aicwfFrameDequeue.2)
  | .isEmpty      => (q, .said q.aicwfIsFramequeueEmpty)
  | .clear        => (q.aicwfFrameQueueFlush, .done)

/-! ### The frames in a queue -/

/-- The queue holds the frames of `l`, which came in this order. -/
structure Holds (num bound : ℕ) (q : FrameQueue α) (l : List (ℕ × α)) : Prop where
  numPrio : q.numPrio = num
  qmax : q.qmax = bound
  lists : q.queuelist = bucket l
  qcnt : q.qcnt = l.length
  room : l.length ≤ bound
  below : ∀ x ∈ l, x.1 ≤ q.hiPrio
  hiPrio : q.hiPrio < num

variable {num bound : ℕ} {q : FrameQueue α} {l : List (ℕ × α)}

lemma Holds.put (hnum : num ≤ 8) (hbound : bound < 65536) (h : Holds num bound q l) {prio : ℕ}
    (hprio : prio < num) (pkt : α) :
    (q.step (.put prio pkt)).2 = (PrioQueue.step bound l (.put prio pkt)).2 ∧
      Holds num bound (q.step (.put prio pkt)).1 (PrioQueue.step bound l (.put prio pkt)).1 := by
  have hlen : (q.queuelist prio).length ≤ l.length := by
    rw [h.lists, bucket, length_map]
    exact length_filter_le _ l
  have hu : u16 prio = prio := Nat.mod_eq_of_lt (by omega)
  have hcnt := h.qcnt
  rw [step, aicwfFrameEnq, aicwfFrameQueuePenq, PrioQueue.step, h.qmax, hu]
  by_cases hroom : l.length < bound
  · rw [if_pos (by omega), if_pos hroom, if_neg (by omega)]
    refine ⟨rfl, h.numPrio, h.qmax, ?_, ?_, ?_, fun x hx => ?_, ?_⟩
    · funext p
      by_cases hp : p = prio
      · subst hp
        simp [set, h.lists, bucket]
      · simp [set, h.lists, bucket, hp, Ne.symm hp]
    · simp only [length_append, length_singleton, u16]
      omega
    · rw [length_append]
      exact hroom
    · have hx' : x.1 ≤ q.hiPrio ∨ x.1 = prio :=
        (mem_append.mp hx).imp (h.below x) fun hx => by rw [mem_singleton.mp hx]
      dsimp only
      split_ifs <;> omega
    · have := h.hiPrio
      split_ifs <;> omega
  · rw [if_neg (by omega), if_neg hroom]
    exact ⟨rfl, h⟩

lemma lowered_spec (lists : ℕ → List α) (n : ℕ) :
    lowered lists n ≤ n ∧ (∀ p ≤ n, lowered lists n < p → lists p = []) ∧
      (lists (lowered lists n) = [] → ∀ p ≤ n, lists p = []) := by
  induction n with
  | zero => simp [lowered]
  | succ n ih =>
    obtain ⟨hle, habove, hnone⟩ := ih
    rw [lowered]
    split_ifs with hempty <;> rw [List.isEmpty_iff] at hempty
    · have hsucc {p : ℕ} (hp : p ≤ n + 1) (h : p ≤ n → lists p = []) : lists p = [] := by
        rcases Nat.eq_or_lt_of_le hp with rfl | hlt
        · exact hempty
        · exact h (by omega)
      exact ⟨by omega, fun p hp hlt => hsucc hp fun hn => habove p hn hlt,
        fun h p hp => hsucc hp (hnone h p)⟩
    · exact ⟨Nat.le_refl _, fun p _ _ => by omega, fun h => absurd h hempty⟩

lemma Holds.queuelist_ne_nil (h : Holds num bound q l) {x : ℕ × α} (hx : x ∈ l) :
    q.queuelist x.1 ≠ [] := by
  rw [h.lists]
  exact fun hnil => bucket_eq_nil.mp hnil x hx rfl

lemma Holds.take (hbound : bound < 65536) (h : Holds num bound q l) :
    (q.step .take).2 = (PrioQueue.step bound l .take).2 ∧
      Holds num bound (q.step .take).1 (PrioQueue.step bound l .take).1 := by
  have hcnt := h.qcnt
  rw [step, aicwfFrameDequeue, PrioQueue.step]
  by_cases hzero : q.qcnt = 0
  · obtain rfl : l = [] := length_eq_zero_iff.mp (hcnt.symm.trans hzero)
    rw [if_pos hzero]
    exact ⟨rfl, h⟩
  rw [if_neg hzero]
  obtain ⟨hle, habove, hnone⟩ := lowered_spec q.queuelist q.hiPrio
  have hbelow : ∀ x ∈ l, x.1 ≤ lowered q.queuelist q.hiPrio := fun x hx =>
    Nat.le_of_not_lt fun hlt => h.queuelist_ne_nil hx (habove x.1 (h.below x hx) hlt)
  dsimp only
  cases hlist : q.queuelist (lowered q.queuelist q.hiPrio) with
  | nil =>
    -- a frame that is counted is in one of the lists
    obtain ⟨x, hx⟩ := exists_mem_of_length_pos (l := l) (by omega)
    exact (h.queuelist_ne_nil hx (hnone hlist x.1 (h.below x hx))).elim
  | cons p rest =>
    rw [h.lists] at hlist hbelow
    obtain ⟨l', htake, hlen, hsub, hbucket⟩ := take_of_bucket hlist hbelow
    have hroom := h.room
    have hhi := h.hiPrio
    rw [htake]
    refine ⟨rfl, h.numPrio, h.qmax, ?_, ?_, by dsimp only; omega, ?_, by dsimp only [set]; omega⟩
    · funext r
      rw [hbucket]
      simp only [set, h.lists, Function.update_apply]
    · simp only [u16]
      omega
    · exact fun x hx => h.lists ▸ hbelow x (hsub x hx)

lemma sum_range_eq_zero (f : ℕ → ℕ) (n : ℕ) :
    (List.range n).foldl (fun len p => len + f p) 0 = 0 ↔ ∀ p < n, f p = 0 := by
  induction n with
  | zero => simp
  | succ n ih =>
    rw [range_succ, foldl_append, foldl_cons, foldl_nil, Nat.add_eq_zero_iff,
      ih, Nat.forall_lt_succ_right]

lemma Holds.isEmpty (h : Holds num bound q l) : q.aicwfIsFramequeueEmpty = l.isEmpty := by
  have hnone : (∀ p < q.hiPrio + 1, (q.queuelist p).length = 0) ↔ l = [] := by
    refine ⟨fun hlists => ?_, fun hl p _ => by simp [h.lists, hl, bucket]⟩
    refine eq_nil_iff_forall_not_mem.mpr fun x hx => h.queuelist_ne_nil hx ?_
    exact length_eq_zero_iff.mp (hlists x.1 (Nat.lt_succ_of_le (h.below x hx)))
  rw [aicwfIsFramequeueEmpty, Bool.eq_iff_iff, decide_eq_true_eq, List.isEmpty_iff,
    Nat.pos_iff_ne_zero, not_not, sum_range_eq_zero, hnone]

lemma foldl_dec (k : List α) {n : ℕ} (hk : k.length ≤ n) (hn : n < 65536) :
    k.foldl (fun qcnt _ => u16 (qcnt + 65535)) n = n - k.length := by
  induction k generalizing n with
  | nil => rfl
  | cons a k ih =>
    rw [length_cons] at hk
    have hdec : u16 (n + 65535) = n - 1 := by
      rw [u16]
      omega
    rw [foldl_cons, hdec, ih (by omega) (by omega), length_cons]
    omega

lemma Holds.flushList (hbound : bound < 65536) (h : Holds num bound q l) (prio : ℕ) :
    Holds num bound (q.flushList prio) (l.filter (·.1 ≠ prio)) := by
  have hsplit : l.length = (bucket l prio).length + (l.filter (·.1 ≠ prio)).length := by
    rw [bucket, length_map]
    simpa using length_eq_length_filter_add (l := l) (·.1 = prio)
  have hroom := h.room
  refine ⟨h.numPrio, h.qmax, ?_, ?_, by omega, fun x hx => h.below x (mem_filter.mp hx).1,
    h.hiPrio⟩
  · funext p
    by_cases hp : p = prio
    · simp [FrameQueue.flushList, set, bucket, hp]
    · have hx (x : ℕ × α) : (decide (x.1 = p) && decide (x.1 ≠ prio)) = decide (x.1 = p) := by
        by_cases hx : x.1 = p <;> simp [hx, hp]
      simp only [FrameQueue.flushList, set, Function.update_of_ne hp, h.lists, bucket,
        filter_filter, hx]
  · rw [FrameQueue.flushList]
    dsimp only
    rw [h.lists, h.qcnt, foldl_dec _ (by omega) (by omega)]
    omega

lemma Holds.flush (hbound : bound < 65536) (h : Holds num bound q l) :
    Holds num bound q.aicwfFrameQueueFlush [] := by
  have hprios (n : ℕ) : Holds num bound ((List.range n).foldl FrameQueue.flushList q)
      (l.filter (n ≤ ·.1)) := by
    induction n with
    | zero => simpa using h
    | succ n ih =>
      rw [range_succ, foldl_append, foldl_cons, foldl_nil]
      convert ih.flushList hbound n using 1
      rw [filter_filter]
      refine filter_congr fun x _ => ?_
      rw [← Bool.decide_and]
      exact decide_eq_decide.mpr (by omega)
  have hnone : l.filter (q.numPrio ≤ ·.1) = [] := by
    refine filter_eq_nil_iff.mpr fun x hx => ?_
    have hx' := h.below x hx
    have hhi := h.hiPrio
    rw [decide_eq_true_eq, h.numPrio]
    omega
  rw [aicwfFrameQueueFlush, ← hnone]
  exact hprios q.numPrio

end FrameQueue

open FrameQueue

/-- Over every sequence of calls a frame queue answers as a priority queue with room for `bound`
frames: a frame is accepted exactly while there is room, and the oldest frame of the highest
priority is taken first. -/
theorem frameQueue_refines {num bound : ℕ} (hpos : 0 < num) (hnum : num ≤ 8)
    (hbound : bound < 65536) (calls : List (Op α))
    (hcalls : ∀ c ∈ calls, ∀ prio pkt, c = .put prio pkt → prio < num) :
    answers step (aicwfFrameQueueInit num bound) calls =
      answers (PrioQueue.step bound) [] calls := by
  have hinit : Holds num bound (aicwfFrameQueueInit num bound : FrameQueue α) [] :=
    ⟨Nat.mod_eq_of_lt (by omega), Nat.mod_eq_of_lt hbound, rfl, rfl, Nat.zero_le _, by simp, hpos⟩
  refine answers_eq (fun q l c h hc => ?_) hinit hcalls
  cases c with
  | put prio pkt => exact h.put hnum hbound (hc prio pkt rfl) pkt
  | take => exact h.take hbound
  | isEmpty => exact ⟨congrArg Answer.said h.isEmpty, h⟩
  | clear => exact ⟨rfl, h.flush hbound⟩

theorem frameQueue_refines_overtakes :
    answers step (aicwfFrameQueueInit 8 8192)
      [.put 2 10, .put 5 11, .put 5 12, .take, .take, .clear, .isEmpty, .put 1 13, .take] =
    [.said true, .said true, .said true, .item (some 11), .item (some 12), .done, .said true,
      .said true, .item (some 13)] :=
  frameQueue_refines (by decide) (by decide) (by decide) _ (by simp)

end Wifi
