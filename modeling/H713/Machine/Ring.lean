import Mathlib.Data.List.Nodup

/-!
# Doubly linked lists

`Linked next prev u l v` says that the cells of `l` are linked one behind the other from `u` to `v`,
in both directions. A ring with the sentinel `z` is `Linked next prev z l z`.
-/

namespace Machine

open List

variable {α : Type*} {next prev next' prev' : α → α}

def Linked (next prev : α → α) : α → List α → α → Prop
  | u, [], v     => next u = v ∧ prev v = u
  | u, w :: l, v => next u = w ∧ prev w = u ∧ Linked next prev w l v

namespace Linked

open Function

@[simp] lemma nil_iff {u v : α} : Linked next prev u [] v ↔ next u = v ∧ prev v = u := Iff.rfl

@[simp] lemma cons_iff {u w v : α} {l : List α} :
    Linked next prev u (w :: l) v ↔ next u = w ∧ prev w = u ∧ Linked next prev w l v := Iff.rfl

lemma append_cons {u w v : α} {l₁ l₂ : List α} :
    Linked next prev u (l₁ ++ w :: l₂) v ↔
      Linked next prev u l₁ w ∧ Linked next prev w l₂ v := by
  induction l₁ generalizing u with
  | nil => simp [and_assoc]
  | cons a l₁ ih => simp [ih, and_assoc]

lemma congr {u v : α} {l : List α} (h : Linked next prev u l v)
    (hn : ∀ x ∈ u :: l, next' x = next x) (hp : ∀ x ∈ l ++ [v], prev' x = prev x) :
    Linked next' prev' u l v := by
  induction l generalizing u with
  | nil =>
    exact ⟨(hn u mem_cons_self).trans h.1, (hp v (by simp)).trans h.2⟩
  | cons w l ih =>
    refine ⟨(hn u mem_cons_self).trans h.1, (hp w (by simp)).trans h.2.1, ih h.2.2 ?_ ?_⟩
    · exact fun x hx => hn x (mem_cons_of_mem u hx)
    · exact fun x hx => hp x (mem_cons_of_mem w hx)

lemma next_mem {u v x : α} {l : List α} (h : Linked next prev u l v) (hx : x ∈ u :: l) :
    next x ∈ l ++ [v] := by
  induction l generalizing u with
  | nil =>
    obtain rfl := mem_singleton.mp hx
    simp [h.1]
  | cons w l ih =>
    rcases mem_cons.mp hx with rfl | hx
    · simp [h.1]
    · exact mem_cons_of_mem w (ih h.2.2 hx)

lemma prev_mem {u v x : α} {l : List α} (h : Linked next prev u l v) (hx : x ∈ l ++ [v]) :
    prev x ∈ u :: l := by
  induction l generalizing u with
  | nil =>
    obtain rfl := mem_singleton.mp hx
    simp [h.2]
  | cons w l ih =>
    rcases mem_cons.mp hx with rfl | hx
    · simp [h.2.1]
    · exact mem_cons_of_mem u (ih h.2.2 hx)

lemma ne_prev {a u w : α} {l₁ l₂ : List α} (h : Linked next prev a l₁ w)
    (hu : u ∉ (a :: l₁) ++ w :: l₂) : u ≠ prev w := by
  rintro rfl
  exact hu (mem_append_left _ (h.prev_mem (by simp)))

lemma ne_next {a v w : α} {l₁ l₂ : List α} (h : Linked next prev w l₂ v)
    (ha : a ∉ l₁ ++ w :: (l₂ ++ [v])) : a ≠ next w := by
  rintro rfl
  exact ha (mem_append_right _ (mem_cons_of_mem w (h.next_mem (by simp))))

lemma prev_next {u v x : α} {l : List α} (h : Linked next prev u l v) (hx : x ∈ u :: l) :
    prev (next x) = x := by
  induction l generalizing u with
  | nil =>
    obtain rfl := mem_singleton.mp hx
    rw [h.1, h.2]
  | cons w l ih =>
    rcases mem_cons.mp hx with rfl | hx
    · rw [h.1, h.2.1]
    · exact ih h.2.2 hx

lemma next_prev {u v x : α} {l : List α} (h : Linked next prev u l v) (hx : x ∈ l ++ [v]) :
    next (prev x) = x := by
  induction l generalizing u with
  | nil =>
    obtain rfl := mem_singleton.mp hx
    rw [h.2, h.1]
  | cons w l ih =>
    rcases mem_cons.mp hx with rfl | hx
    · rw [h.2.1, h.1]
    · exact ih h.2.2 hx

lemma concat {u v w : α} {l : List α} (h : Linked next prev u l v) (hu : (u :: l).Nodup)
    (hlast : next' (prev v) = w) (hn : ∀ x ∈ u :: l, x ≠ prev v → next' x = next x)
    (hp : ∀ x ∈ l, prev' x = prev x) (hwn : next' w = v) (hwp : prev' w = prev v)
    (hv : prev' v = w) : Linked next' prev' u (l ++ [w]) v := by
  induction l generalizing u with
  | nil =>
    rw [h.2] at hlast hwp
    exact ⟨hlast, hwp, hwn, hv⟩
  | cons a l ih =>
    have hne : u ≠ prev v := by
      rintro rfl
      exact (nodup_cons.mp hu).1 (h.2.2.prev_mem (by simp))
    refine ⟨(hn u mem_cons_self hne).trans h.1, (hp a mem_cons_self).trans h.2.1, ?_⟩
    refine ih h.2.2 (nodup_cons.mp hu).2 (fun x hx => ?_) fun x hx => ?_
    · exact hn x (mem_cons_of_mem u hx)
    · exact hp x (mem_cons_of_mem a hx)

variable [DecidableEq α]

lemma remove {u v w : α} {l₁ l₂ : List α} (h : Linked next prev u (l₁ ++ w :: l₂) v)
    (hu : (u :: (l₁ ++ w :: l₂)).Nodup) (hv : ((l₁ ++ w :: l₂) ++ [v]).Nodup) :
    Linked (update next (prev w) (next w)) (update prev (next w) (prev w))
      u (l₁ ++ l₂) v := by
  induction l₁ generalizing u with
  | nil =>
    obtain ⟨-, hpw, hl⟩ := h
    rw [hpw]
    cases l₂ with
    | nil => simp [hl.1]
    | cons x l₂ =>
      obtain ⟨hnx, -, hl⟩ := hl
      rw [hnx]
      refine ⟨update_self .., update_self .., hl.congr ?_ ?_⟩
      · rintro y hy
        refine update_of_ne ?_ _ _
        rintro rfl
        exact (nodup_cons.mp hu).1 (by simpa using Or.inr hy)
      · rintro y hy
        refine update_of_ne ?_ _ _
        rintro rfl
        simp only [nil_append, cons_append, nodup_cons] at hv
        exact hv.2.1 hy
  | cons a l₁ ih =>
    obtain ⟨hna, hpa, hl⟩ := h
    have hl' := append_cons.mp hl
    have hua := hl'.1.ne_prev (nodup_cons.mp hu).1
    have haw := hl'.2.ne_next (nodup_cons.mp (by simpa using hv)).1
    refine ⟨(update_of_ne hua _ _).trans hna, (update_of_ne haw _ _).trans hpa,
      ih hl (nodup_cons.mp hu).2 ?_⟩
    simp only [cons_append, nodup_cons] at hv
    exact hv.2

lemma replace {u v w s : α} {l₁ l₂ : List α} (h : Linked next prev u (l₁ ++ w :: l₂) v)
    (hu : (u :: (l₁ ++ w :: l₂)).Nodup) (hv : ((l₁ ++ w :: l₂) ++ [v]).Nodup)
    (hsu : s ∉ u :: (l₁ ++ w :: l₂)) (hsv : s ≠ v) :
    Linked (update (update next s (next w)) (prev w) s)
      (update (update prev s (prev w)) (next w) s) u (l₁ ++ s :: l₂) v := by
  induction l₁ generalizing u with
  | nil =>
    obtain ⟨-, hpw, hl⟩ := h
    simp only [nil_append, mem_cons, not_or] at hsu
    obtain ⟨hsu, hsw, hs⟩ := hsu
    rw [hpw]
    cases l₂ with
    | nil => simp [hl.1, update_of_ne hsu, update_of_ne hsv]
    | cons x l₂ =>
      obtain ⟨hnx, -, hl⟩ := hl
      simp only [mem_cons, not_or] at hs
      rw [hnx]
      refine ⟨update_self .., ?_, ?_, update_self .., hl.congr ?_ ?_⟩
      · rw [update_of_ne hs.1, update_self]
      · rw [update_of_ne hsu, update_self]
      · intro y hy
        have hyu : y ≠ u := by
          rintro rfl
          exact (nodup_cons.mp hu).1 (by simpa using Or.inr hy)
        have hys : y ≠ s := by
          rintro rfl
          simp_all
        rw [update_of_ne hyu, update_of_ne hys]
      · intro y hy
        have hyx : y ≠ x := by
          rintro rfl
          simp only [nil_append, cons_append, nodup_cons] at hv
          exact hv.2.1 hy
        have hys : y ≠ s := by
          rintro rfl
          simp_all
        rw [update_of_ne hyx, update_of_ne hys]
  | cons a l₁ ih =>
    obtain ⟨hna, hpa, hl⟩ := h
    have hl' := append_cons.mp hl
    have hsu' : u ≠ s ∧ a ≠ s := by
      simp only [cons_append, mem_cons, not_or] at hsu
      exact ⟨Ne.symm hsu.1, Ne.symm hsu.2.1⟩
    have hua := hl'.1.ne_prev (nodup_cons.mp hu).1
    have haw := hl'.2.ne_next (nodup_cons.mp (by simpa using hv)).1
    refine ⟨?_, ?_, ih hl (nodup_cons.mp hu).2 ?_ ?_⟩
    · rw [update_of_ne hua, update_of_ne hsu'.1]
      exact hna
    · rw [update_of_ne haw, update_of_ne hsu'.2]
      exact hpa
    · exact (nodup_cons.mp (by simpa using hv)).2
    · exact fun hs => hsu (mem_cons_of_mem u hs)

end Linked

/-! ### Walks -/

def walk {β : Type*} [DecidableEq α] (next : α → α) (stop : α) (f : α → Option β) :
    ℕ → α → Option (Option β)
  | 0, x        => if x = stop then some none else none
  | fuel + 1, x =>
    if x = stop then some none
    else
      match f x with
      | some b => some (some b)
      | none   => walk next stop f fuel (next x)

lemma walk_stop {β : Type*} [DecidableEq α] {f : α → Option β} (stop : α) (fuel : ℕ) :
    walk next stop f fuel stop = some none := by
  cases fuel with
  | zero => exact if_pos rfl
  | succ fuel => exact if_pos rfl

lemma Linked.walk_eq {β : Type*} [DecidableEq α] {f : α → Option β} {u v : α} {l : List α}
    {fuel : ℕ} (h : Linked next prev u l v) (hv : v ∉ l) (hfuel : l.length ≤ fuel) :
    walk next v f fuel (next u) = some (l.findSome? f) := by
  induction l generalizing u fuel with
  | nil => rw [h.1, walk_stop, List.findSome?_nil]
  | cons w l ih =>
    obtain ⟨fuel, rfl⟩ : ∃ n, fuel = n + 1 := Nat.exists_eq_add_one.mpr (Nat.lt_of_lt_of_le
      (Nat.succ_pos _) hfuel)
    have hw : w ≠ v := fun e => hv (e ▸ mem_cons_self)
    rw [h.1, walk, if_neg hw, List.findSome?_cons]
    cases hf : f w with
    | some b => rfl
    | none =>
      exact ih h.2.2 (fun hm => hv (mem_cons_of_mem w hm)) (Nat.le_of_succ_le_succ hfuel)

lemma walk_eq_none {β : Type*} [DecidableEq α] {f : α → Option β} {stop x : α}
    (hx : next x = x) (hstop : x ≠ stop) (hf : f x = none) (fuel : ℕ) :
    walk next stop f fuel x = none := by
  induction fuel with
  | zero => rw [walk, if_neg hstop]
  | succ fuel ih =>
    rw [walk, if_neg hstop, hf]
    simpa only [hx] using ih

end Machine
