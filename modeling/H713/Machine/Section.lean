import H713.Machine.Threads

/-!
# A section that one thread is in at a time

While no thread is inside the section, the shared state is `free`; while one is, it is `busy` with
that thread, if a thread enters only while no other one is inside.
-/

namespace Machine

namespace System

variable {S T E X : Type*} {M : System S T E X} {p p' : Pool S T}
variable {inside : T → Prop} {free : S → Prop} {busy : S → T → Prop}

/-- At most one thread is inside, and the shared state is busy with it, or free. -/
structure Owned (inside : T → Prop) (free : S → Prop) (busy : S → T → Prop) (p : Pool S T) :
    Prop where
  unique : ∀ (i j : ℕ) (t u : T), p.threads[i]? = some t → p.threads[j]? = some u →
    inside t → inside u → i = j
  busy : ∀ (i : ℕ) (t : T), p.threads[i]? = some t → inside t → busy p.shared t
  free : (∀ (i : ℕ) (t : T), p.threads[i]? = some t → ¬inside t) → free p.shared

def Alone (inside : T → Prop) (p : Pool S T) (i : ℕ) : Prop :=
  ∀ u ∈ p.threads.eraseIdx i, ¬inside u

lemma Alone.eq_of_inside {i j : ℕ} {u : T} (h : Alone inside p i) (hj : p.threads[j]? = some u)
    (hu : inside u) : j = i := by
  by_contra hne
  exact h u (List.mem_eraseIdx_iff_getElem?.mpr ⟨j, hne, hj⟩) hu

lemma Owned.alone {i : ℕ} {t : T} (hp : Owned inside free busy p) (ht : p.threads[i]? = some t)
    (hin : inside t) : Alone inside p i := by
  intro u hu huin
  obtain ⟨j, hne, hj⟩ := List.mem_eraseIdx_iff_getElem?.mp hu
  exact hne (hp.unique j i u t hj ht huin hin)

lemma Owned.set {i : ℕ} {t t' : T} {s' : S} (halone : Alone inside p i)
    (ht : p.threads[i]? = some t) (hin : inside t' → busy s' t') (hout : ¬inside t' → free s') :
    Owned inside free busy ⟨s', p.threads.set i t'⟩ := by
  have honly : ∀ j u, (p.threads.set i t')[j]? = some u → inside u → j = i ∧ u = t' := by
    intro j u hu huin
    rcases getElem?_set_cases hu with h | ⟨hne, hu'⟩
    · exact h
    · exact absurd (halone.eq_of_inside hu' huin) hne
  refine ⟨fun j k u v hu hv huin hvin => ?_, fun j u hu huin => ?_, fun h => ?_⟩
  · rw [(honly j u hu huin).1, (honly k v hv hvin).1]
  · obtain ⟨-, rfl⟩ := honly j u hu huin
    exact hin huin
  · refine hout (h i t' ?_)
    simp [List.getElem?_set_self', ht]

lemma Owned.congr (hp : Owned inside free busy p)
    (hsub : ∀ (i : ℕ) t, p'.threads[i]? = some t → inside t → p.threads[i]? = some t)
    (hsup : ∀ (i : ℕ) t, p.threads[i]? = some t → inside t → p'.threads[i]? = some t)
    (hfree : free p.shared → free p'.shared) (hbusy : ∀ u, busy p.shared u → busy p'.shared u) :
    Owned inside free busy p' where
  unique i j t u ht hu htin huin :=
    hp.unique i j t u (hsub i t ht htin) (hsub j u hu huin) htin huin
  busy i t ht hin := hbusy t (hp.busy i t (hsub i t ht hin) hin)
  free h := hfree (hp.free fun i t ht hin => h i t (hsup i t ht hin) hin)

/-- The section stays owned under a step, by what the acting thread does at its border. -/
theorem owned_step {l : Label T E X}
    (hout : ∀ i t e s' t', l = .act i e → p.threads[i]? = some t →
      M.act p.shared i t e = some (s', t') → ¬inside t → ¬inside t' →
      (free p.shared → free s') ∧ ∀ u, busy p.shared u → busy s' u)
    (henter : ∀ i t e s' t', l = .act i e → p.threads[i]? = some t →
      M.act p.shared i t e = some (s', t') → ¬inside t → inside t' →
      Alone inside p i ∧ (free p.shared → busy s' t'))
    (hin : ∀ i t e s' t', l = .act i e → p.threads[i]? = some t →
      M.act p.shared i t e = some (s', t') → inside t → busy p.shared t →
      (inside t' → busy s' t') ∧ (¬inside t' → free s'))
    (henv : ∀ x s', l = .env x → M.env p.shared x = some s' →
      (free p.shared → free s') ∧ ∀ u, busy p.shared u → busy s' u)
    (hnew : ∀ t, M.start t = true → ¬inside t)
    (h : M.step p l = some p') (hp : Owned inside free busy p) : Owned inside free busy p' := by
  cases steps_of_step h with
  | @act i e t t' s' ht ha =>
    by_cases hti : inside t
    · obtain ⟨hstay, hleave⟩ := hin i t e s' t' rfl ht ha hti (hp.busy i t ht hti)
      exact Owned.set (hp.alone ht hti) ht hstay hleave
    by_cases hti' : inside t'
    · obtain ⟨halone, hbusy⟩ := henter i t e s' t' rfl ht ha hti hti'
      refine Owned.set halone ht (fun _ => hbusy (hp.free fun j u hu huin => ?_))
        fun h => absurd hti' h
      obtain rfl := halone.eq_of_inside hu huin
      exact hti (Option.some.inj (hu.symm.trans ht) ▸ huin)
    · obtain ⟨hfree, hbusy⟩ := hout i t e s' t' rfl ht ha hti hti'
      refine hp.congr (fun j u hu huin => ?_) (fun j u hu huin => ?_) hfree hbusy
      · rcases getElem?_set_cases hu with ⟨-, rfl⟩ | ⟨-, hu'⟩
        · exact absurd huin hti'
        · exact hu'
      · by_cases hij : i = j
        · subst hij
          exact absurd (Option.some.inj (hu.symm.trans ht) ▸ huin) hti
        · exact (List.getElem?_set_ne hij).trans hu
  | @env x s' hx =>
    obtain ⟨hfree, hbusy⟩ := henv x s' rfl hx
    exact hp.congr (fun _ _ h _ => h) (fun _ _ h _ => h) hfree hbusy
  | @spawn t ht =>
    refine hp.congr (fun j u hu huin => ?_) (fun j u hu _ => ?_) id fun _ => id
    · rcases getElem?_concat_cases hu with ⟨-, rfl⟩ | hu'
      · exact absurd huin (hnew _ ht)
      · exact hu'
    · exact (List.getElem?_append_left (List.getElem?_eq_some_iff.mp hu).1).trans hu

end System

end Machine
