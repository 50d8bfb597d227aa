import H713.Machine.DropQueue
import H713.Machine.Word
import Mathlib.Data.Nat.Bitwise

/-!
# The vsync timestamps

The interrupt handler puts the time of each vsync into a ring of eight slots, from which
`dec_vsync_timestamp_get` reads. When it runs into the read index it moves that on as well. Both
hold the spinlock of the ring.
-/

namespace Decd

open Machine List

/-- `struct dec_vsync_ring` -/
structure VsyncRing where
  ts : ℕ → ℕ
  rd : ℕ
  wr : ℕ

namespace VsyncRing

def following (index : ℕ) : ℕ := u32 (index + 1) &&& 7

def record (r : VsyncRing) (now : ℕ) : VsyncRing :=
  let wr := following r.wr
  { ts := Function.update r.ts wr now
    wr := wr
    rd := if wr = r.rd then following r.rd else r.rd }

def decVsyncTimestampGet (r : VsyncRing) : VsyncRing × Except ℤ ℕ :=
  if r.rd = r.wr then (r, .error (-11))
  else
    let next := following r.rd
    ({ r with rd := next }, .ok (r.ts next))

inductive Event where
  /-- the interrupt line, with the answer of `dec_irq_query` and the time -/
  | interrupt (pending : Bool) (now : ℕ)
  | get

def step (s : VsyncRing × List (Except ℤ ℕ)) : Event → VsyncRing × List (Except ℤ ℕ)
  | .interrupt pending now => if pending then (s.1.record now, s.2) else s
  | .get =>
    let (r, result) := s.1.decVsyncTimestampGet
    (r, s.2 ++ [result])

def run (r : VsyncRing) (es : List Event) : VsyncRing × List (Except ℤ ℕ) := es.foldl step (r, [])

/-! ### The queue the ring stands for -/

def Event.op : Event → Option (DropQueue.Op ℕ)
  | .interrupt pending now => if pending then some (.record now) else none
  | .get                   => some .get

variable (es : List Event)

def queue : DropQueue ℕ := .after 7 (es.filterMap Event.op)

def result : Option ℕ → Except ℤ ℕ
  | none    => .error (-11)
  | some ts => .ok ts

/-- Item `i` of the queue lies in slot `i + 1`, counted from where the ring was empty. -/
structure Rep (r₀ : ℕ) (r : VsyncRing) (q : DropQueue ℕ) : Prop where
  wr : r.wr = (r₀ + q.recorded.length) % 8
  rd : r.rd = (r₀ + q.next) % 8
  ts : ∀ i, q.next ≤ i → i < q.recorded.length → q.recorded[i]? = some (r.ts ((r₀ + (i + 1)) % 8))

lemma following_mod (r₀ n : ℕ) : following ((r₀ + n) % 8) = (r₀ + (n + 1)) % 8 := by
  rw [following, show (7 : ℕ) = 2 ^ 3 - 1 from rfl, Nat.and_two_pow_sub_one_eq_mod, u32]
  omega

variable {r₀ : ℕ} {r : VsyncRing} {q : DropQueue ℕ}

lemma Rep.record (h : Rep r₀ r q) (hq : q.Inv 7) (now : ℕ) :
    Rep r₀ (r.record now) (q.record 7 now) := by
  have hle := hq.next_le
  have hroom := hq.room
  have hwr : following r.wr = (r₀ + (q.recorded.length + 1)) % 8 := by rw [h.wr, following_mod]
  have hnext : (q.record 7 now).next = max q.next (q.recorded.length + 1 - 7) := rfl
  have hlen : (q.record 7 now).recorded.length = q.recorded.length + 1 := length_append
  refine ⟨by rw [hlen]; exact hwr, ?_, fun i hi hlt => ?_⟩
  · have hfull : following r.wr = r.rd ↔ q.recorded.length = q.next + 7 := by
      rw [hwr, h.rd]
      omega
    simp only [VsyncRing.record, hnext]
    split_ifs with hcatch
    · rw [h.rd, following_mod]
      congr 2
      omega
    · rw [h.rd]
      congr 2
      omega
  · rw [hlen] at hlt
    rw [hnext] at hi
    rcases Nat.lt_or_eq_of_le (Nat.le_of_lt_succ hlt) with hold | rfl
    · -- the slot that is overwritten belongs to an item that is not in the queue
      have hne : (r₀ + (i + 1)) % 8 ≠ following r.wr := by
        rw [hwr]
        omega
      simp only [VsyncRing.record, DropQueue.record, Function.update_of_ne hne,
        List.getElem?_append_left hold]
      exact h.ts i (by omega) hold
    · simp only [VsyncRing.record, DropQueue.record, hwr, Function.update_self]
      exact List.getElem?_concat_length

lemma Rep.get (h : Rep r₀ r q) (hq : q.Inv 7) :
    Rep r₀ r.decVsyncTimestampGet.1 q.get ∧
      r.decVsyncTimestampGet.2 = result (q.value q.head) := by
  have hle := hq.next_le
  have hroom := hq.room
  have hempty : r.rd = r.wr ↔ ¬ q.next < q.recorded.length := by
    rw [h.rd, h.wr]
    omega
  by_cases hlt : q.next < q.recorded.length
  · have hrd : following r.rd = (r₀ + (q.next + 1)) % 8 := by rw [h.rd, following_mod]
    rw [decVsyncTimestampGet, if_neg fun he => hempty.mp he hlt]
    refine ⟨⟨h.wr, ?_, fun i hi hi' => ?_⟩, ?_⟩
    · simp only [DropQueue.get, if_pos hlt, hrd]
    · simp only [DropQueue.get, if_pos hlt] at hi hi'
      exact h.ts i (by omega) hi'
    · rw [DropQueue.head, if_pos hlt, DropQueue.value, Option.bind_some, h.ts q.next le_rfl hlt,
        hrd]
      rfl
  · rw [decVsyncTimestampGet, if_pos (hempty.mpr hlt)]
    refine ⟨⟨h.wr, ?_, fun i hi hi' => ?_⟩, ?_⟩
    · simp only [DropQueue.get, if_neg hlt, h.rd]
    · simp only [DropQueue.get, if_neg hlt] at hi hi'
      omega
    · rw [DropQueue.head, if_neg hlt]
      rfl

/-! ### Runs -/

lemma queue_interrupt (now : ℕ) :
    queue (es ++ [.interrupt true now]) = (queue es).record 7 now := by
  simp [queue, DropQueue.after, Event.op, DropQueue.step]

lemma queue_spurious (now : ℕ) :
    queue (es ++ [.interrupt false now]) = queue es := by
  simp [queue, Event.op]

lemma queue_get : queue (es ++ [.get]) = (queue es).get := by
  simp [queue, DropQueue.after, Event.op, DropQueue.step]

lemma run_concat (r : VsyncRing) (es : List Event) (e : Event) :
    r.run (es ++ [e]) = step (r.run es) e := by
  rw [run, foldl_append]
  rfl

def Event.time : Event → Option ℕ
  | .interrupt pending now => if pending then some now else none
  | .get                   => none

lemma queue_recorded : (queue es).recorded = es.filterMap Event.time := by
  induction es using List.reverseRecOn with
  | nil => rfl
  | append_singleton es e ih =>
    rw [filterMap_append, ← ih]
    cases e with
    | get =>
      rw [queue_get]
      exact (append_nil _).symm
    | interrupt pending now =>
      cases pending with
      | true =>
        rw [queue_interrupt]
        rfl
      | false =>
        rw [queue_spurious]
        exact (append_nil _).symm

lemma rep_run (hstart : r.rd = r.wr) (hlt : r.wr < 8) (es : List Event) :
    Rep r.wr (r.run es).1 (queue es) ∧
      (r.run es).2 = (queue es).answers.map fun a => result ((queue es).value a) := by
  induction es using List.reverseRecOn with
  | nil =>
    refine ⟨⟨?_, ?_, fun i _ hi => absurd hi (Nat.not_lt_zero i)⟩, rfl⟩
    · exact (Nat.mod_eq_of_lt hlt).symm
    · exact hstart.trans (Nat.mod_eq_of_lt hlt).symm
  | append_singleton es e ih =>
    obtain ⟨hrep, hresults⟩ := ih
    have hinv : (queue es).Inv 7 := DropQueue.inv_after _
    rw [run_concat]
    cases e with
    | get =>
      obtain ⟨hrep', hresult⟩ := hrep.get hinv
      rw [queue_get]
      refine ⟨hrep', ?_⟩
      simp only [step, DropQueue.get, map_append, map_singleton, hresult, hresults]
      rfl
    | interrupt pending now =>
      cases pending with
      | true =>
        rw [queue_interrupt]
        refine ⟨hrep.record hinv now, hresults.trans ?_⟩
        exact map_congr_left fun a ha => by rw [hinv.value_record now ha]
      | false =>
        rw [queue_spurious]
        exact ⟨hrep, hresults⟩

/-- For every sequence of interrupts and reads, the reads return what a queue of the last seven
timestamps returns that drops the oldest ones, and `-EAGAIN` when there is none: in order, and none
twice. -/
theorem vsyncRing_refines (hstart : r.rd = r.wr) (hlt : r.wr < 8) (es : List Event) :
    (queue es).recorded = es.filterMap Event.time ∧
      (r.run es).2 = (queue es).answers.map (fun a => result ((queue es).value a)) ∧
      (queue es).reads.Pairwise (· < ·) ∧
      ((∃ i ts, IsLeast ((queue es).unread 7) i ∧ (queue es).recorded[i]? = some ts ∧
          (r.run es).1.decVsyncTimestampGet.2 = .ok ts) ∨
        (queue es).unread 7 = ∅ ∧ (r.run es).1.decVsyncTimestampGet.2 = .error (-11)) := by
  obtain ⟨hrep, hresults⟩ := rep_run hstart hlt es
  have hinv : (queue es).Inv 7 := DropQueue.inv_after _
  have hnext := (hrep.get hinv).2
  refine ⟨queue_recorded es, hresults, hinv.sorted, ?_⟩
  rcases hinv.head_spec with ⟨i, hleast, hhead⟩ | ⟨hunread, hhead⟩
  · have hi : i < (queue es).recorded.length := hleast.1.1
    refine .inl ⟨i, (queue es).recorded[i], hleast, List.getElem?_eq_getElem hi, ?_⟩
    rw [hnext, hhead, DropQueue.value, Option.bind_some, List.getElem?_eq_getElem hi]
    rfl
  · refine .inr ⟨hunread, ?_⟩
    rw [hnext, hhead]
    rfl

def atSix : VsyncRing := ⟨fun _ => 0, 6, 6⟩

def nine : List Event := (List.range 9).map (.interrupt true)

theorem vsyncRing_refines_nine :
    ∃ i, IsLeast ((queue nine).unread 7) i ∧ (queue nine).recorded[i]? = some 2 ∧
      (atSix.run nine).1.decVsyncTimestampGet.2 = .ok 2 := by
  have hget : (atSix.run nine).1.decVsyncTimestampGet.2 = .ok 2 := rfl
  obtain ⟨-, -, -, h⟩ := vsyncRing_refines (r := atSix) rfl (by decide) nine
  rw [hget] at h
  rcases h with ⟨i, ts, hleast, hrecorded, hts⟩ | ⟨-, hts⟩
  · cases hts
    exact ⟨i, hleast, hrecorded, hget⟩
  · cases hts

end VsyncRing

end Decd
