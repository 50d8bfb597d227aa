import Mathlib.Data.List.Basic

/-!
# Priority queues

The items with their priorities, in the order in which they came. `bucket l p` are the items of
priority `p`: whoever keeps these lists finds the item to take at the head of the highest one that
is not empty.
-/

namespace Machine

open List

variable {σ τ ι β α : Type*}

/-- What a machine answers to a sequence of requests. -/
def answers (step : σ → ι → σ × β) : σ → List ι → List β
  | _, []      => []
  | s, a :: as => (step s a).2 :: answers step (step s a).1 as

lemma answers_eq {step : σ → ι → σ × β} {astep : τ → ι → τ × β} {R : σ → τ → Prop} {ok : ι → Prop}
    (hstep : ∀ s t a, R s t → ok a → (step s a).2 = (astep t a).2 ∧ R (step s a).1 (astep t a).1)
    {s : σ} {t : τ} {as : List ι} (hR : R s t) (hok : ∀ a ∈ as, ok a) :
    answers step s as = answers astep t as := by
  induction as generalizing s t with
  | nil => rfl
  | cons a as ih =>
    obtain ⟨hanswer, hR'⟩ := hstep s t a hR (hok a mem_cons_self)
    rw [answers, answers, hanswer, ih hR' fun b hb => hok b (mem_cons_of_mem a hb)]

namespace PrioQueue

inductive Op (α : Type*) where
  | put (prio : ℕ) (x : α)
  | take
  | isEmpty
  | clear

inductive Answer (α : Type*) where
  | item (x : Option α)
  | said (b : Bool)
  | done
deriving DecidableEq

/-- The first item that no later one exceeds. -/
def take : List (ℕ × α) → Option ((ℕ × α) × List (ℕ × α))
  | []     => none
  | x :: l =>
    if l.all (·.1 ≤ x.1) then some (x, l) else (take l).map fun y => (y.1, x :: y.2)

def step (bound : ℕ) (l : List (ℕ × α)) : Op α → List (ℕ × α) × Answer α
  | .put prio x => if l.length < bound then (l ++ [(prio, x)], .said true) else (l, .said false)
  | .take       =>
    match take l with
    | none         => (l, .item none)
    | some (x, l') => (l', .item (some x.2))
  | .isEmpty    => (l, .said l.isEmpty)
  | .clear      => ([], .done)

def bucket (l : List (ℕ × α)) (p : ℕ) : List α := (l.filter (·.1 = p)).map (·.2)

variable {l : List (ℕ × α)} {p : ℕ}

lemma bucket_eq_nil : bucket l p = [] ↔ ∀ y ∈ l, y.1 ≠ p := by
  simp [bucket]

lemma bucket_cons (y : ℕ × α) (l : List (ℕ × α)) (p : ℕ) :
    bucket (y :: l) p = if y.1 = p then y.2 :: bucket l p else bucket l p := by
  by_cases h : y.1 = p <;> simp [bucket, h]

/-- When no item has a higher priority, the head of a list is the item to take. -/
theorem take_of_bucket {a : α} {rest : List α} (h : bucket l p = a :: rest)
    (hle : ∀ y ∈ l, y.1 ≤ p) : ∃ l', take l = some ((p, a), l') ∧ l'.length + 1 = l.length ∧
      (∀ y ∈ l', y ∈ l) ∧ ∀ q, bucket l' q = if q = p then rest else bucket l q := by
  induction l with
  | nil => cases h
  | cons y l ih =>
    have hle' : ∀ z ∈ l, z.1 ≤ p := fun z hz => hle z (mem_cons_of_mem y hz)
    rw [bucket_cons] at h
    rcases Nat.eq_or_lt_of_le (hle y mem_cons_self) with hy | hy
    · -- the first item is the oldest one of its priority
      rw [if_pos hy] at h
      obtain ⟨rfl, rfl⟩ := List.cons.inj h
      refine ⟨l, ?_, rfl, fun z hz => mem_cons_of_mem y hz, fun q => ?_⟩
      · rw [take, if_pos (by simpa [hy] using hle'), ← hy]
      · by_cases hq : q = p
        · rw [if_pos hq, hq]
        · rw [if_neg hq, bucket_cons, if_neg (hy.trans_ne (Ne.symm hq))]
    · have hne : y.1 ≠ p := Nat.ne_of_lt hy
      rw [if_neg hne] at h
      obtain ⟨l', htake, hlen, hsub, hbucket⟩ := ih h hle'
      have hlater : ¬ l.all (·.1 ≤ y.1) := fun hall => by
        have hnil : bucket l p = [] := bucket_eq_nil.mpr fun z hz => by
          have hz' : z.1 ≤ y.1 := by simpa using all_eq_true.mp hall z hz
          omega
        exact cons_ne_nil _ _ (h.symm.trans hnil)
      refine ⟨y :: l', ?_, congrArg (· + 1) hlen, fun z hz => ?_, fun q => ?_⟩
      · rw [take, if_neg hlater, htake, Option.map_some]
      · exact mem_cons.mpr ((mem_cons.mp hz).imp_right (hsub z))
      · rw [bucket_cons, bucket_cons, hbucket]
        by_cases hq : q = p
        · simp [hq, hne]
        · simp [hq]

end PrioQueue

end Machine
