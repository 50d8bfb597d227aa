import Mathlib.Data.List.Induction
import Mathlib.Order.Bounds.Basic

/-!
# Queues that drop their oldest items

A `DropQueue` keeps the last `cap` recorded items until they are read. A read gives the oldest of
the last `cap` items that has not been read, if there is one.
-/

namespace Machine

open List

structure DropQueue (α : Type*) where
  recorded : List α
  next : ℕ
  answers : List (Option ℕ)

namespace DropQueue

variable {α : Type*} {cap : ℕ} {q : DropQueue α}

inductive Op (α : Type*) where
  | record (x : α)
  | get

def empty : DropQueue α := ⟨[], 0, []⟩

def record (cap : ℕ) (q : DropQueue α) (x : α) : DropQueue α :=
  { q with recorded := q.recorded ++ [x], next := max q.next (q.recorded.length + 1 - cap) }

def head (q : DropQueue α) : Option ℕ := if q.next < q.recorded.length then some q.next else none

def get (q : DropQueue α) : DropQueue α :=
  { q with
    next := if q.next < q.recorded.length then q.next + 1 else q.next
    answers := q.answers ++ [q.head] }

def step (cap : ℕ) (q : DropQueue α) : Op α → DropQueue α
  | .record x => q.record cap x
  | .get      => q.get

def after (cap : ℕ) (ops : List (Op α)) : DropQueue α := ops.foldl (step cap) empty

def unread (cap : ℕ) (q : DropQueue α) : Set ℕ :=
  {i | i < q.recorded.length ∧ q.recorded.length ≤ i + cap ∧ some i ∉ q.answers}

def reads (q : DropQueue α) : List ℕ := q.answers.filterMap id

def value (q : DropQueue α) (a : Option ℕ) : Option α := a.bind (q.recorded[·]?)

structure Inv (cap : ℕ) (q : DropQueue α) : Prop where
  next_le : q.next ≤ q.recorded.length
  room : q.recorded.length ≤ q.next + cap
  sorted : q.reads.Pairwise (· < ·)
  read_lt : ∀ i, some i ∈ q.answers → i < q.next
  gone : ∀ i < q.next, some i ∈ q.answers ∨ i + cap < q.recorded.length

lemma inv_empty : (empty : DropQueue α).Inv cap where
  next_le := le_rfl
  room := Nat.zero_le _
  sorted := .nil
  read_lt := fun _ h => absurd h not_mem_nil
  gone := fun _ h => absurd h (Nat.not_lt_zero _)

lemma Inv.record (h : q.Inv cap) (x : α) : (q.record cap x).Inv cap := by
  have hle := h.next_le
  have hroom := h.room
  have hlen : (q.record cap x).recorded.length = q.recorded.length + 1 := length_append
  have hnext : (q.record cap x).next = max q.next (q.recorded.length + 1 - cap) := rfl
  refine ⟨by omega, by omega, h.sorted, fun i hi => ?_, fun i hi => ?_⟩
  · have hlt := h.read_lt i hi
    omega
  · by_cases hold : i < q.next
    · rcases h.gone i hold with hread | hdropped
      · exact .inl hread
      · exact .inr (by omega)
    · exact .inr (by omega)

lemma Inv.get (h : q.Inv cap) : q.get.Inv cap := by
  have hle := h.next_le
  have hroom := h.room
  by_cases hlt : q.next < q.recorded.length
  · have hget : q.get = { q with next := q.next + 1, answers := q.answers ++ [some q.next] } := by
      simp only [DropQueue.get, head, if_pos hlt]
    rw [hget]
    refine ⟨hlt, by dsimp only; omega, ?_, fun i hi => ?_, fun i hi => ?_⟩
    · rw [reads, filterMap_append]
      refine pairwise_append.mpr ⟨h.sorted, pairwise_singleton _ _, fun i hi j hj => ?_⟩
      obtain rfl : j = q.next := by simpa using hj
      exact h.read_lt i (by simpa [reads] using hi)
    · rcases mem_append.mp hi with hold | hnew
      · exact Nat.lt_succ_of_lt (h.read_lt i hold)
      · obtain rfl : i = q.next := by simpa using hnew
        exact Nat.lt_succ_self _
    · rcases Nat.lt_or_eq_of_le (Nat.le_of_lt_succ hi) with hold | rfl
      · exact (h.gone i hold).imp_left fun hm => mem_append_left _ hm
      · exact .inl (mem_append_right _ mem_cons_self)
  · have hget : q.get = { q with answers := q.answers ++ [none] } := by
      simp only [DropQueue.get, head, if_neg hlt]
    rw [hget]
    refine ⟨hle, hroom, ?_, fun i hi => ?_, fun i hi => ?_⟩
    · rw [reads, filterMap_append, filterMap_cons_none rfl, filterMap_nil,
        append_nil]
      exact h.sorted
    · exact h.read_lt i (by simpa using hi)
    · exact (h.gone i hi).imp_left fun hm => mem_append_left _ hm

lemma Inv.step (h : q.Inv cap) (o : Op α) : (q.step cap o).Inv cap := by
  cases o with
  | record x => exact h.record x
  | get => exact h.get

lemma inv_after (ops : List (Op α)) : (after cap ops).Inv cap := by
  induction ops using List.reverseRecOn with
  | nil => exact inv_empty
  | append_singleton ops o ih =>
    rw [after, foldl_append]
    exact ih.step o

lemma Inv.value_record (h : q.Inv cap) (x : α) {a : Option ℕ} (ha : a ∈ q.answers) :
    (q.record cap x).value a = q.value a := by
  cases a with
  | none => rfl
  | some i =>
    exact List.getElem?_append_left (lt_of_lt_of_le (h.read_lt i ha) h.next_le)

lemma Inv.mem_unread_iff (h : q.Inv cap) {i : ℕ} :
    i ∈ q.unread cap ↔ q.next ≤ i ∧ i < q.recorded.length := by
  have hroom := h.room
  constructor
  · rintro ⟨hlt, hlast, hread⟩
    refine ⟨?_, hlt⟩
    by_contra hgone
    rcases h.gone i (by omega) with hr | hd
    · exact hread hr
    · omega
  · rintro ⟨hle, hlt⟩
    refine ⟨hlt, by omega, fun hr => ?_⟩
    have hlt' := h.read_lt i hr
    omega

lemma Inv.head_spec (h : q.Inv cap) :
    (∃ i, IsLeast (q.unread cap) i ∧ q.head = some i) ∨ q.unread cap = ∅ ∧ q.head = none := by
  by_cases hlt : q.next < q.recorded.length
  · refine .inl ⟨q.next, ⟨h.mem_unread_iff.mpr ⟨le_rfl, hlt⟩, fun i hi => ?_⟩, if_pos hlt⟩
    exact (h.mem_unread_iff.mp hi).1
  · refine .inr ⟨Set.eq_empty_iff_forall_notMem.mpr fun i hi => ?_, if_neg hlt⟩
    have hmem := h.mem_unread_iff.mp hi
    omega

end DropQueue

end Machine
