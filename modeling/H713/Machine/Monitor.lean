import Mathlib.Data.List.Induction

/-!
# Monitors of a trace

`NoneUntil p q r` says of a trace that after an item with `p` there is none with `q` until one with
`r`. The monitor `armed` is on between an item with `p` and the next one with `r`.
-/

namespace Machine

open List

variable {α : Type*}

def NoneUntil (p q r : α → Prop) (l : List α) : Prop :=
  ∀ as x bs y cs, l = as ++ x :: (bs ++ y :: cs) → p x → q y → ∃ z ∈ bs, r z

def armed (p r : α → Prop) [DecidablePred p] [DecidablePred r] (l : List α) : Bool :=
  l.foldl (fun b x => if p x then true else if r x then false else b) false

section

variable {p q r : α → Prop}

lemma noneUntil_nil : NoneUntil p q r [] := by
  intro as x bs y cs h
  simp at h

variable [DecidablePred p] [DecidablePred r]

@[simp] lemma armed_nil : armed p r ([] : List α) = false := rfl

variable (l : List α)

lemma armed_concat (x : α) :
    armed p r (l ++ [x]) = if p x then true else if r x then false else armed p r l := by
  simp only [armed, foldl_append, foldl_cons, foldl_nil]

lemma armed_iff :
    armed p r l = true ↔ ∃ as x bs, l = as ++ x :: bs ∧ p x ∧ ∀ z ∈ bs, ¬ r z := by
  induction l using List.reverseRecOn with
  | nil => simp
  | append_singleton l y ih =>
    rw [armed_concat]
    constructor
    · intro h
      by_cases hp : p y
      · exact ⟨l, y, [], rfl, hp, by simp⟩
      · rw [if_neg hp] at h
        split_ifs at h with hr
        obtain ⟨as, x, bs, rfl, hx, hbs⟩ := ih.mp h
        refine ⟨as, x, bs ++ [y], by simp, hx, fun z hz => ?_⟩
        rcases mem_append.mp hz with hz | hz
        · exact hbs z hz
        · rw [mem_singleton.mp hz]
          exact hr
    · rintro ⟨as, x, bs, heq, hx, hbs⟩
      cases bs using List.reverseRecOn with
      | nil =>
        obtain ⟨-, hy⟩ := append_inj' heq rfl
        rw [singleton_inj.mp hy]
        exact if_pos hx
      | append_singleton bs z =>
        have hl : l ++ [y] = (as ++ x :: bs) ++ [z] := by simpa using heq
        obtain ⟨rfl, hyz⟩ := append_inj' hl rfl
        obtain rfl := singleton_inj.mp hyz
        have harm : armed p r (as ++ x :: bs) = true :=
          ih.mpr ⟨as, x, bs, rfl, hx, fun w hw => hbs w (mem_append_left _ hw)⟩
        rw [if_neg (hbs y (by simp)), harm, ite_self]

/-- What an item added to the trace must not do. -/
theorem noneUntil_concat (y : α) :
    NoneUntil p q r (l ++ [y]) ↔ NoneUntil p q r l ∧ (q y → armed p r l = false) := by
  constructor
  · intro h
    refine ⟨fun as x bs z cs hl hx hz => ?_, fun hy => ?_⟩
    · exact h as x bs z (cs ++ [y]) (by simp [hl]) hx hz
    · rw [← Bool.not_eq_true, armed_iff]
      rintro ⟨as, x, bs, rfl, hx, hbs⟩
      obtain ⟨z, hz, hrz⟩ := h as x bs y [] (by simp) hx hy
      exact hbs z hz hrz
  · rintro ⟨h, harm⟩ as x bs z cs hl hx hz
    cases cs using List.reverseRecOn with
    | nil =>
      have hl' : l ++ [y] = (as ++ x :: bs) ++ [z] := by simpa using hl
      obtain ⟨rfl, hyz⟩ := append_inj' hl' rfl
      obtain rfl := singleton_inj.mp hyz
      by_contra hno
      have harmed : armed p r (as ++ x :: bs) = true :=
        (armed_iff _).mpr ⟨as, x, bs, rfl, hx, fun w hw hr => hno ⟨w, hw, hr⟩⟩
      rw [harm hz] at harmed
      cases harmed
    | append_singleton cs w =>
      have hl' : l ++ [y] = (as ++ x :: (bs ++ z :: cs)) ++ [w] := by simpa using hl
      exact h as x bs z cs (append_inj' hl' rfl).1 hx hz

end

end Machine
