import Mathlib.Data.Option.Basic

/-!
# Computations with a log

A computation notes events and gives a value, or does not come back. What it has noted before it
gets stuck is in the log as well. Forgetting the log gives a computation in `Option`.
-/

namespace Machine

universe u v

structure Logged (ε : Type u) (α : Type v) where
  log : List ε
  val : Option α

namespace Logged

variable {ε : Type u} {α β : Type v} {P : ε → Prop}

def andThen (x : Logged ε α) (f : α → Logged ε β) : Logged ε β :=
  x.val.elim ⟨x.log, none⟩ fun a => ⟨x.log ++ (f a).log, (f a).val⟩

instance : Monad (Logged ε) where
  pure a := ⟨[], some a⟩
  bind := andThen

def note (e : ε) : Logged ε PUnit.{v + 1} := ⟨[e], some ⟨⟩⟩

variable (x : Option α)

def silent : Logged ε α := ⟨[], x⟩

@[simp] lemma log_pure (a : α) : (pure a : Logged ε α).log = [] := rfl

@[simp] lemma val_pure (a : α) : (pure a : Logged ε α).val = some a := rfl

@[simp] lemma log_note (e : ε) : (note e : Logged ε PUnit.{v + 1}).log = [e] := rfl

@[simp] lemma val_note (e : ε) : (note e : Logged ε PUnit.{v + 1}).val = some ⟨⟩ := rfl

@[simp] lemma log_silent : (silent x : Logged ε α).log = [] := rfl

@[simp] lemma val_silent : (silent x : Logged ε α).val = x := rfl

@[simp] lemma val_bind (x : Logged ε α) (f : α → Logged ε β) :
    (x >>= f).val = x.val.bind fun a => (f a).val := by
  change (andThen x f).val = _
  rw [andThen]
  cases x.val with
  | none => rfl
  | some a => rfl

lemma mem_log_bind {x : Logged ε α} {f : α → Logged ε β} {e : ε} :
    e ∈ (x >>= f).log ↔ e ∈ x.log ∨ ∃ a, x.val = some a ∧ e ∈ (f a).log := by
  change e ∈ (andThen x f).log ↔ _
  rw [andThen]
  cases x.val with
  | none => simp
  | some a => simp

def All (P : ε → Prop) (x : Logged ε α) : Prop := ∀ e ∈ x.log, P e

lemma all_pure (a : α) : All P (pure a : Logged ε α) := fun _ he => absurd he List.not_mem_nil

lemma all_silent : All P (silent x : Logged ε α) :=
  fun _ he => absurd he List.not_mem_nil

lemma all_note {e : ε} : All P (note e : Logged ε PUnit.{v + 1}) ↔ P e := by
  simp [All]

lemma all_bind {x : Logged ε α} {f : α → Logged ε β} :
    All P (x >>= f) ↔ All P x ∧ ∀ a, x.val = some a → All P (f a) := by
  simp only [All, mem_log_bind]
  constructor
  · exact fun h => ⟨fun e he => h e (.inl he), fun a ha e he => h e (.inr ⟨a, ha, he⟩)⟩
  · rintro ⟨hx, hf⟩ e (he | ⟨a, ha, he⟩)
    · exact hx e he
    · exact hf a ha e he

end Logged

end Machine
