import Mathlib.Data.Int.ModEq

/-!
# Numbered tickets

Tickets are numbered in the order they are issued, and held by carriers. As long as no ticket is
held twice and none is older than `N` issues, the tickets held differ modulo `N`.
-/

namespace Machine

variable {κ κ' : Type*} {held : κ → Option ℕ} {held' : κ' → Option ℕ} {issued N : ℕ}

/-- What the carriers hold when `issued` tickets are out. -/
structure Tickets (held : κ → Option ℕ) (issued N : ℕ) : Prop where
  le : ∀ c n, held c = some n → n ≤ issued
  recent : ∀ c n, held c = some n → issued < n + N
  unique : ∀ c c' n, held c = some n → held c' = some n → c = c'

namespace Tickets

lemma mod_ne (h : Tickets held issued N) {c c' : κ} {n n' : ℕ} (hc : held c = some n)
    (hc' : held c' = some n') (hne : c ≠ c') : n % N ≠ n' % N := by
  have hle := h.le c n hc
  have hle' := h.le c' n' hc'
  have hrecent := h.recent c n hc
  have hrecent' := h.recent c' n' hc'
  have hn : n ≠ n' := by
    rintro rfl
    exact hne (h.unique c c' n hc hc')
  intro hmod
  -- the difference is a multiple of `N` below `N`
  rcases Nat.le_total n n' with hnn | hnn
  · have hdvd := (Nat.modEq_iff_dvd' hnn).mp hmod
    have := Nat.le_of_dvd (by omega) hdvd
    omega
  · have hdvd := (Nat.modEq_iff_dvd' hnn).mp hmod.symm
    have := Nat.le_of_dvd (by omega) hdvd
    omega

lemma comap (h : Tickets held issued N) (f : κ' → κ)
    (hf : ∀ c n, held' c = some n → held (f c) = some n)
    (hinj : ∀ c c' n, held' c = some n → held' c' = some n → f c = f c' → c = c') :
    Tickets held' issued N where
  le c n hc := h.le (f c) n (hf c n hc)
  recent c n hc := h.recent (f c) n (hf c n hc)
  unique c c' n hc hc' := hinj c c' n hc hc' (h.unique _ _ n (hf c n hc) (hf c' n hc'))

lemma sub {held' : κ → Option ℕ} (h : Tickets held issued N)
    (hf : ∀ c n, held' c = some n → held c = some n) : Tickets held' issued N :=
  h.comap id hf fun _ _ _ _ _ => id

lemma issue {held' : κ → Option ℕ} (h : Tickets held issued N) (hN : 0 < N) (c₀ : κ)
    (hrecent : ∀ c n, c ≠ c₀ → held' c = some n → issued + 1 < n + N)
    (hold : ∀ c n, c ≠ c₀ → held' c = some n → held c = some n)
    (hnew : ∀ n, held' c₀ = some n → n = issued + 1) : Tickets held' (issued + 1) N := by
  have hlt : ∀ c n, c ≠ c₀ → held' c = some n → n ≤ issued :=
    fun c n hne hc => h.le c n (hold c n hne hc)
  refine ⟨fun c n hc => ?_, fun c n hc => ?_, fun c c' n hc hc' => ?_⟩
  · by_cases hne : c = c₀
    · subst hne
      exact (hnew n hc).le
    · have := hlt c n hne hc
      omega
  · by_cases hne : c = c₀
    · subst hne
      have := hnew n hc
      omega
    · exact hrecent c n hne hc
  · by_cases hne : c = c₀ <;> by_cases hne' : c' = c₀
    · rw [hne, hne']
    · subst hne
      have := hlt c' n hne' hc'
      have := hnew n hc
      omega
    · subst hne'
      have := hlt c n hne hc
      have := hnew n hc'
      omega
    · exact h.unique c c' n (hold c n hne hc) (hold c' n hne' hc')

end Tickets

end Machine
