import H713.Machine.Run
import Mathlib.Algebra.GroupWithZero.Nat
import Mathlib.Algebra.Order.BigOperators.Group.List
import Mathlib.Algebra.Order.Group.Nat

/-!
# Threads over a shared state

`act s i t e` is what thread number `i`, in local state `t`, does to the shared state `s` in one
atomic step `e`. The environment changes the shared state on its own, and new threads start at any
time.
-/

namespace Machine

open List Option

variable {S T E X : Type*}

/-- The state of the whole system: the shared part, and the threads in the order they started. -/
structure Pool (S T : Type*) where
  shared : S
  threads : List T

inductive Label (T E X : Type*) where
  | act (i : ℕ) (e : E)
  | env (x : X)
  | spawn (t : T)

structure System (S T E X : Type*) where
  act : S → ℕ → T → E → Option (S × T)
  env : S → X → Option S
  start : T → Bool

namespace System

variable (M : System S T E X)

def step (p : Pool S T) : Label T E X → Option (Pool S T)
  | .act i e =>
    match p.threads[i]? with
    | none   => none
    | some t => (M.act p.shared i t e).map fun r => ⟨r.1, p.threads.set i r.2⟩
  | .env x   => (M.env p.shared x).map fun s => { p with shared := s }
  | .spawn t => if M.start t then some { p with threads := p.threads ++ [t] } else none

variable {M} {p p' : Pool S T}

/-- All that a step of the system can be. -/
inductive Steps (M : System S T E X) (p : Pool S T) : Label T E X → Pool S T → Prop
  | act {i : ℕ} {e : E} {t t' : T} {s' : S} (ht : p.threads[i]? = some t)
      (ha : M.act p.shared i t e = some (s', t')) :
      Steps M p (.act i e) ⟨s', p.threads.set i t'⟩
  | env {x : X} {s' : S} (hx : M.env p.shared x = some s') :
      Steps M p (.env x) ⟨s', p.threads⟩
  | spawn {t : T} (ht : M.start t = true) :
      Steps M p (.spawn t) ⟨p.shared, p.threads ++ [t]⟩

lemma steps_of_step {l : Label T E X} (h : M.step p l = some p') : Steps M p l p' := by
  cases l with
  | act i e =>
    simp only [step] at h
    split at h
    · cases h
    · rename_i t ht
      obtain ⟨⟨s', t'⟩, ha, rfl⟩ := map_eq_some_iff.mp h
      exact .act ht ha
  | env x =>
    obtain ⟨s', hx, rfl⟩ := map_eq_some_iff.mp h
    exact .env hx
  | spawn t =>
    simp only [step] at h
    split_ifs at h with ht
    cases h
    exact .spawn ht

/-! ### A property of every thread -/

def Forall (I : S → ℕ → T → Prop) (p : Pool S T) : Prop :=
  ∀ i t, p.threads[i]? = some t → I p.shared i t

lemma getElem?_set_cases {l : List T} {i j : ℕ} {t u : T} (h : (l.set i t)[j]? = some u) :
    (j = i ∧ u = t) ∨ (j ≠ i ∧ l[j]? = some u) := by
  by_cases hij : i = j
  · subst hij
    rw [List.getElem?_set_self'] at h
    obtain ⟨v, -, rfl⟩ := map_eq_some_iff.mp h
    exact Or.inl ⟨rfl, rfl⟩
  · rw [List.getElem?_set_ne hij] at h
    exact Or.inr ⟨Ne.symm hij, h⟩

lemma getElem?_concat_cases {l : List T} {j : ℕ} {t u : T} (h : (l ++ [t])[j]? = some u) :
    (j = l.length ∧ u = t) ∨ l[j]? = some u := by
  rcases lt_trichotomy j l.length with hj | hj | hj
  · rw [List.getElem?_append_left hj] at h
    exact Or.inr h
  · subst hj
    simp only [List.getElem?_concat_length, Option.some.injEq] at h
    exact Or.inl ⟨rfl, h.symm⟩
  · have hlen : (l ++ [t]).length ≤ j := by
      rw [length_append, length_singleton]
      omega
    rw [List.getElem?_eq_none hlen] at h
    cases h

/-! ### A property of some thread -/

lemma exists_mem_set_self {l : List T} {i : ℕ} {t t' : T} {P : T → Prop} (ht : l[i]? = some t)
    (h : P t') : ∃ u ∈ l.set i t', P u := by
  refine ⟨t', mem_iff_getElem?.mpr ⟨i, ?_⟩, h⟩
  rw [List.getElem?_set_self', ht]
  rfl

lemma exists_mem_set {l : List T} {i : ℕ} {t t' : T} {P : T → Prop} (ht : l[i]? = some t)
    (hself : P t → P t') (h : ∃ u ∈ l, P u) : ∃ u ∈ l.set i t', P u := by
  obtain ⟨u, hu, hP⟩ := h
  obtain ⟨j, hj⟩ := mem_iff_getElem?.mp hu
  by_cases hij : i = j
  · subst hij
    obtain rfl : t = u := Option.some.inj (ht.symm.trans hj)
    exact exists_mem_set_self ht (hself hP)
  · exact ⟨u, mem_iff_getElem?.mpr ⟨j, (List.getElem?_set_ne hij).trans hj⟩, hP⟩

/-! ### A quantity shared between the threads and the state -/

def total (f : S → ℕ) (g : T → ℕ) (p : Pool S T) : ℕ :=
  f p.shared + (p.threads.map g).sum

lemma sum_map_set {l : List T} {i : ℕ} {t : T} (t' : T) (g : T → ℕ) (h : l[i]? = some t) :
    ((l.set i t').map g).sum + g t = (l.map g).sum + g t' := by
  induction l generalizing i with
  | nil => cases h
  | cons a l ih =>
    cases i with
    | zero =>
      simp only [List.getElem?_cons_zero, Option.some.injEq] at h
      subst h
      simp only [set_cons_zero, map_cons, sum_cons]
      omega
    | succ i =>
      have := ih h
      simp only [set_cons_succ, map_cons, sum_cons]
      omega

lemma le_sum_map {l : List T} {i : ℕ} {t : T} (g : T → ℕ) (h : l[i]? = some t) :
    g t ≤ (l.map g).sum :=
  single_le_sum (fun _ _ => Nat.zero_le _) _
    (mem_map.mpr ⟨t, mem_of_getElem? h, rfl⟩)

lemma sum_map_eq_zero {l : List T} {g : T → ℕ} (h : ∀ t ∈ l, g t = 0) : (l.map g).sum = 0 := by
  rw [sum_eq_zero_iff]
  intro n hn
  obtain ⟨t, ht, rfl⟩ := mem_map.mp hn
  exact h t ht

lemma add_le_sum_map {l : List T} {i j : ℕ} {t u : T} (g : T → ℕ) (hi : l[i]? = some t)
    (hj : l[j]? = some u) (hne : i ≠ j) : g t + g u ≤ (l.map g).sum := by
  induction l generalizing i j with
  | nil => cases hi
  | cons a l ih =>
    simp only [map_cons, sum_cons]
    cases i with
    | zero =>
      cases j with
      | zero => exact absurd rfl hne
      | succ j =>
        simp only [List.getElem?_cons_zero, Option.some.injEq] at hi
        subst hi
        have := le_sum_map g (l := l) hj
        omega
    | succ i =>
      cases j with
      | zero =>
        simp only [List.getElem?_cons_zero, Option.some.injEq] at hj
        subst hj
        have := le_sum_map g (l := l) hi
        omega
      | succ j =>
        have := ih hi hj (fun h => hne (by rw [h]))
        omega

end System

end Machine
