import H713.Machine.Search
import Mathlib.Data.List.TakeWhile

/-!
# Fields behind one another

Fields with the separator `z` between them end at the first double separator, or where the list
ends. `fields z l` are those that are not empty. What is before a field and what is after it are
read independently (`fields_around`).
-/

namespace Machine

open List Option

variable {α : Type*} {z : α} {a b e l p r u v : List α} {n N : ℕ}

/-! ### The pieces of a list -/

/-- There is no double separator. -/
def Single (z : α) (l : List α) : Prop := l.IsChain fun x y => x = z → y ≠ z

/-- A list before a field: no double separator, and a separator at its end. -/
structure Opens (z : α) (a : List α) : Prop where
  single : Single z a
  last : ∀ y ∈ a.getLast?, y = z

structure IsField (z : α) (e : List α) : Prop where
  ne_nil : e ≠ []
  notMem : z ∉ e

/-- A list after a field starts with a separator. -/
def Closes (z : α) (r : List α) : Prop := ∀ y ∈ r.head?, y = z

lemma single_append : Single z (a ++ b) ↔
    Single z a ∧ Single z b ∧ ∀ x ∈ a.getLast?, ∀ y ∈ b.head?, x = z → y ≠ z :=
  isChain_append

lemma IsField.single (h : IsField z e) : Single z e := by
  refine List.Pairwise.isChain (pairwise_of_forall_mem_list ?_)
  rintro x - y hy - rfl
  exact h.notMem hy

lemma IsField.head?_ne (h : IsField z e) (l : List α) : (e ++ l).head? ≠ some z := by
  rw [List.head?_append_of_ne_nil _ h.ne_nil]
  exact fun hz => h.notMem (mem_of_mem_head? hz)

lemma IsField.getLast?_ne (h : IsField z e) (l : List α) : ∀ x ∈ (l ++ e).getLast?, x ≠ z := by
  rw [List.getLast?_append_of_ne_nil _ h.ne_nil]
  rintro x hx rfl
  exact h.notMem (mem_of_mem_getLast? hx)

lemma Opens.insert (h : Opens z (a ++ b)) (hb : b ≠ []) (he : IsField z e) :
    Opens z (a ++ e ++ b) := by
  obtain ⟨ha, hb', -⟩ := single_append.mp h.single
  refine ⟨single_append.mpr ⟨single_append.mpr ⟨ha, he.single, ?_⟩, hb', ?_⟩, ?_⟩
  · rintro - - y hy - rfl
    exact he.head?_ne [] (by rwa [append_nil])
  · exact fun x hx _ _ hxz => absurd hxz (he.getLast?_ne a x hx)
  · have hlast := h.last
    rwa [List.getLast?_append_of_ne_nil _ hb] at hlast ⊢

lemma not_double {x : α} (h : x = z → l.head? ≠ some z) : ¬ [z, z] <+: x :: l := by
  rintro ⟨t, ht⟩
  obtain ⟨rfl, rfl⟩ := List.cons.inj ht
  exact h rfl rfl

/-! ### Reading the fields -/

variable [DecidableEq α]

/-- Up to the first double separator. -/
def cut (z : α) (l : List α) : List α := l.take ((findFrom [z, z] l 0).getD l.length)

def fields (z : α) (l : List α) : List (List α) := ((cut z l).splitOn z).filter (· ≠ [])

lemma findFrom_cons (pat : List α) (x : α) (l : List α) : findFrom pat (x :: l) 0 =
    if pat <+: x :: l then some 0 else (findFrom pat l 0).map (1 + ·) := by
  have hrange : List.range' 1 (l.length + 1) = (List.range' 0 (l.length + 1)).map (1 + ·) :=
    (map_add_range' 0 (l.length + 1) 1).symm
  rw [findFrom, findFrom, length_cons, Nat.sub_zero, Nat.sub_zero, List.range'_succ,
    List.find?_cons, hrange, List.find?_map, drop_zero]
  by_cases h : pat <+: x :: l
  · rw [if_pos h, isPrefixOf_iff_prefix.mpr h]
  · rw [if_neg h, Bool.eq_false_iff.mpr (mt isPrefixOf_iff_prefix.mp h)]
    simp only [Function.comp_def, Nat.add_comm 1, drop_succ_cons]

lemma cut_double (l : List α) : cut z (z :: z :: l) = [] := by
  rw [cut, findFrom_cons, if_pos ⟨l, rfl⟩]
  rfl

lemma cut_cons {x : α} (h : x = z → l.head? ≠ some z) : cut z (x :: l) = x :: cut z l := by
  rw [cut, findFrom_cons, if_neg (not_double h), cut]
  cases findFrom [z, z] l 0 with
  | none => rfl
  | some i =>
    rw [map_some, getD_some, getD_some, Nat.add_comm]
    rfl

lemma findFrom_double (h : Single z (a ++ [z])) (b : List α) :
    findFrom [z, z] (a ++ z :: z :: b) 0 = some a.length := by
  induction a with
  | nil => exact (findFrom_cons _ _ _).trans (if_pos ⟨b, rfl⟩)
  | cons x a ih =>
    obtain ⟨hx, ha⟩ := isChain_cons.mp h
    rw [cons_append, findFrom_cons, if_neg, ih ha, map_some, length_cons,
      Nat.add_comm]
    refine not_double fun hxz hz => hx z ?_ hxz rfl
    cases a with
    | nil => rfl
    | cons y a => exact hz

/-- One element after the other up to the end of `a`, where no double separator starts. -/
lemma cut_append (ha : Single z a) (h : ∀ x ∈ a.getLast?, x = z → b.head? ≠ some z) :
    cut z (a ++ b) = a ++ cut z b := by
  induction a with
  | nil => rfl
  | cons x a ih =>
    obtain ⟨hx, ha⟩ := isChain_cons.mp ha
    cases a with
    | nil => exact cut_cons (h x rfl)
    | cons y a =>
      rw [cons_append, cut_cons, ih ha (by rwa [List.getLast?_cons_cons] at h)]
      · rfl
      · exact fun hxz hy => hx y rfl hxz (Option.some.inj hy)

lemma fields_nil : fields z [] = [] := by
  simp [fields, cut]

lemma splitOn_append_cons (a b : List α) :
    (a ++ z :: b).splitOn z = a.splitOn z ++ b.splitOn z :=
  splitOnP_append_cons a b (beq_self_eq_true z)

lemma fields_double (l : List α) : fields z (z :: z :: l) = [] := by
  simp [fields, cut_double]

lemma fields_cons (h : l.head? ≠ some z) : fields z (z :: l) = fields z l := by
  rw [fields, cut_cons fun _ => h, fields]
  have hsplit := splitOn_append_cons (z := z) [] (cut z l)
  rw [nil_append] at hsplit
  simp [hsplit]

lemma Opens.fields_append (ha : Opens z a) (hb : b.head? ≠ some z) :
    fields z (a ++ b) = fields z a ++ fields z b := by
  have hcut := cut_append ha.single (b := []) (by simp)
  rw [append_nil] at hcut
  rcases eq_nil_or_concat' a with rfl | ⟨a, y, rfl⟩
  · rw [fields_nil, nil_append, nil_append]
  · obtain rfl := ha.last y (by simp)
    rw [fields, cut_append ha.single fun _ _ _ => hb, fields, hcut, fields]
    simp [splitOn_append_cons, cut]

lemma IsField.fields_append (he : IsField z e) (hr : Closes z r) :
    fields z (e ++ r) = e :: fields z r := by
  have hcut : cut z (e ++ r) = e ++ cut z r :=
    cut_append he.single fun x hx hxz => absurd hxz (he.getLast?_ne [] x hx)
  have hsplit : e.splitOn z = [e] := by
    rw [List.splitOn, splitOnP_eq_singleton]
    intro x hx
    rw [beq_eq_false_iff_ne]
    rintro rfl
    exact he.notMem hx
  have hrest : cut z r = [] ∨ ∃ c, cut z r = z :: c := by
    cases r with
    | nil => exact .inl rfl
    | cons y r =>
      obtain rfl := hr y rfl
      by_cases h : r.head? = some y
      · obtain ⟨r, rfl⟩ := List.head?_eq_some_iff.mp h
        exact .inl (cut_double r)
      · exact .inr ⟨_, cut_cons fun _ => h⟩
  rw [fields, hcut, fields]
  rcases hrest with h | ⟨c, h⟩
  · simp [h, hsplit, he.ne_nil]
  · have hsplit' := splitOn_append_cons (z := z) [] c
    rw [nil_append] at hsplit'
    simp [h, hsplit', splitOn_append_cons, hsplit, he.ne_nil]

theorem fields_around (ha : Opens z a) (he : IsField z e) (hr : Closes z r) :
    fields z (a ++ e ++ r) = fields z a ++ e :: fields z r := by
  rw [append_assoc, ha.fields_append (he.head?_ne r), he.fields_append hr]

/-- A field goes on to the next separator. -/
lemma IsField.extend (he : IsField z e) (l : List α) :
    ∃ t r, l = t ++ r ∧ IsField z (e ++ t) ∧ Closes z r := by
  refine ⟨l.takeWhile (· ≠ z), l.dropWhile (· ≠ z), takeWhile_append_dropWhile.symm,
    ⟨append_ne_nil_of_left_ne_nil he.ne_nil _, ?_⟩, ?_⟩
  · intro hmem
    rcases mem_append.mp hmem with hmem | hmem
    · exact he.notMem hmem
    · simpa using mem_takeWhile_imp hmem
  · intro y hy
    have hnot := List.head?_dropWhile_not (· ≠ z) l
    rw [mem_def.mp hy] at hnot
    simpa using hnot

lemma Opens.exists_mem_fields (ha : Opens z a) (he : IsField z e) (l : List α) :
    ∃ f ∈ fields z (a ++ e ++ l), e <+: f := by
  obtain ⟨t, r, rfl, hf, hr⟩ := he.extend l
  refine ⟨e ++ t, ?_, prefix_append e t⟩
  rw [← append_assoc, append_assoc a, fields_around ha hf hr]
  exact mem_append_right _ mem_cons_self

theorem exists_of_mem_fields (h : e ∈ fields z l) :
    ∃ a r, l = a ++ e ++ r ∧ Opens z a ∧ IsField z e ∧ Closes z r := by
  -- by the length of the list: its first field is `e`, or `e` is one of those behind it
  induction hn : l.length using Nat.strong_induction_on generalizing l with
  | _ n ih =>
    subst hn
    cases l with
    | nil => rw [fields_nil] at h; cases h
    | cons x l =>
      by_cases hx : x = z
      · subst hx
        by_cases hl : l.head? = some x
        · obtain ⟨l, rfl⟩ := List.head?_eq_some_iff.mp hl
          rw [fields_double] at h
          cases h
        · rw [fields_cons hl] at h
          obtain ⟨a, r, rfl, ha, he, hr⟩ := ih l.length (by simp) h rfl
          refine ⟨x :: a, r, rfl, ⟨isChain_cons.mpr ⟨?_, ha.single⟩, ?_⟩, he, hr⟩
          · rintro y hy - rfl
            rw [append_assoc, List.head?_append, mem_def.mp hy] at hl
            exact hl rfl
          · cases a with
            | nil => simp
            | cons y a => rw [List.getLast?_cons_cons]; exact ha.last
      · have hfield : IsField z [x] := ⟨cons_ne_nil x [], by simpa [eq_comm] using hx⟩
        obtain ⟨t, r, rfl, hf, hr⟩ := hfield.extend l
        rw [← singleton_append, ← append_assoc, hf.fields_append hr, mem_cons] at h
        rcases h with rfl | h
        · exact ⟨[], r, rfl, ⟨.nil, by simp⟩, hf, hr⟩
        · have hlt : r.length < (x :: (t ++ r)).length := by
            rw [length_cons, length_append]
            omega
          obtain ⟨a, r', rfl, ha, he, hr'⟩ := ih r.length hlt h rfl
          have hane : a ≠ [] := by
            rintro rfl
            obtain ⟨y, e, rfl⟩ := exists_cons_of_ne_nil he.ne_nil
            exact he.head?_ne r' (congrArg some (hr y rfl))
          refine ⟨[x] ++ t ++ a, r', by simp, ⟨single_append.mpr ⟨hf.single, ha.single, ?_⟩, ?_⟩,
            he, hr'⟩
          · exact fun y hy _ _ hyz => absurd hyz (hf.getLast?_ne [] y hy)
          · rw [List.getLast?_append_of_ne_nil _ hane]
            exact ha.last

lemma fields_concat (z : α) (l : List α) : fields z (l ++ [z]) = fields z l := by
  have hcut : cut z (l ++ [z]) = cut z l ∨ cut z (l ++ [z]) = cut z l ++ [z] ∨
      cut z l = cut z (l ++ [z]) ++ [z] := by
    induction l with
    | nil => exact .inr (.inl (cut_cons (by simp)))
    | cons x l ih =>
      by_cases h : x = z ∧ (l ++ [z]).head? = some z
      · obtain ⟨rfl, hl⟩ := h
        cases l with
        | nil =>
          right; right
          exact (cut_cons (by simp)).trans (congrArg (· ++ [x]) (cut_double []).symm)
        | cons y l =>
          obtain rfl := Option.some.inj hl
          exact .inl ((cut_double _).trans (cut_double _).symm)
      · have hl : x = z → l.head? ≠ some z := by
          intro hx hl
          refine h ⟨hx, ?_⟩
          rw [List.head?_append, hl, some_or]
        rw [cons_append, cut_cons fun hx hl => h ⟨hx, hl⟩, cut_cons hl]
        simpa using ih
  rw [fields, fields]
  rcases hcut with h | h | h <;> simp [h, splitOn_append_cons]

theorem fields_append_replicate (z : α) (l : List α) (n : ℕ) :
    fields z (l ++ List.replicate n z) = fields z l := by
  induction n with
  | zero => rw [replicate_zero, append_nil]
  | succ n ih => rw [replicate_succ', ← append_assoc, fields_concat, ih]

/-! ### A list put in before padding

`u` is put in between `p` and `v`, and as many separators behind `v` go. -/

omit [DecidableEq α]

lemma getLast_mem_drop (hne : l ≠ []) (hn : n < l.length) : l.getLast hne ∈ l.drop n := by
  have hdrop : l.drop n ≠ [] := by
    rw [Ne, drop_eq_nil_iff]
    omega
  rw [← getLast_drop hdrop]
  exact getLast_mem hdrop

lemma exists_padding (hn : n ≤ v.length) (h : ∀ y ∈ v.drop n, y = z) :
    ∃ w k, v = w ++ List.replicate k z ∧ w.length = n := by
  refine ⟨v.take n, v.length - n, ?_, by rw [length_take, Nat.min_eq_left hn]⟩
  rw [← eq_replicate_iff.mpr ⟨length_drop, h⟩, take_append_drop]

/-- What moves over `n` was padding, from the end of the list on. -/
lemma eq_of_shift (hu : u ≠ [])
    (h : (u ++ v).drop n = (v ++ List.replicate u.length z).drop n) :
    ∀ y ∈ (u ++ v).drop n, y = z := by
  have hstep (i : ℕ) (hi : n ≤ i) : ∀ y ∈ (u ++ v)[i]?, y = z := by
    induction hk : (u ++ v).length - i using Nat.strong_induction_on generalizing i with
    | _ k ih =>
      intro y hy
      have hlt := (List.getElem?_eq_some_iff.mp hy).1
      have hpos := length_pos_of_ne_nil hu
      have hget : (u ++ v)[i]? = (v ++ List.replicate u.length z)[i]? := by
        rw [← Nat.add_sub_cancel' hi, ← List.getElem?_drop, h, List.getElem?_drop]
      by_cases hv : i < v.length
      · refine ih _ ?_ (u.length + i) (by omega) rfl y ?_
        · omega
        · rw [List.getElem?_append_right (by omega), Nat.add_sub_cancel_left]
          rwa [hget, List.getElem?_append_left hv] at hy
      · rw [hget, List.getElem?_append_right (by omega)] at hy
        exact eq_of_mem_replicate (mem_of_getElem? hy)
  intro y hy
  obtain ⟨i, hi⟩ := mem_iff_getElem?.mp hy
  rw [List.getElem?_drop] at hi
  exact hstep (n + i) (Nat.le_add_right n i) y hi

lemma padding_iff (hne : p ≠ []) (hp : ∀ y ∈ p.getLast?, y ≠ z)
    (hN : N ≤ p.length + v.length + n) :
    (∀ y ∈ (p ++ v ++ List.replicate n z).drop (N - n), y = z) ↔
      ∃ w k, v = w ++ List.replicate k z ∧ p.length + w.length + n = N := by
  have hpos := length_pos_of_ne_nil hne
  constructor
  · intro h
    have hle : p.length ≤ N - n := by
      by_contra hlt
      refine hp _ (List.getLast?_eq_getLast_of_ne_nil hne) (h _ ?_)
      rw [append_assoc, drop_append_of_le_length (by omega)]
      exact mem_append_left _ (getLast_mem_drop hne (by omega))
    rw [append_assoc, drop_append, drop_eq_nil_of_le hle, nil_append,
      drop_append_of_le_length (by omega)] at h
    obtain ⟨w, k, hv, hw⟩ :=
      exists_padding (by omega) fun y hy => h y (mem_append_left _ hy)
    exact ⟨w, k, hv, by omega⟩
  · rintro ⟨w, k, rfl, rfl⟩ y hy
    rw [Nat.add_sub_cancel, ← append_assoc, append_assoc (p ++ w),
      drop_left' length_append, replicate_append_replicate] at hy
    exact eq_of_mem_replicate hy

/-- What lies behind `N` stays as it was exactly if all is padding from `u.length` before it on. -/
theorem drop_insert_eq_iff (hne : p ≠ []) (hp : ∀ y ∈ p.getLast?, y ≠ z) (hu : IsField z u)
    (hpN : p.length ≤ N) (hN : N ≤ p.length + v.length + u.length) :
    (p ++ u ++ v).drop N = (p ++ v ++ List.replicate u.length z).drop N ↔
      ∀ y ∈ (p ++ v ++ List.replicate u.length z).drop (N - u.length), y = z := by
  obtain ⟨n, rfl⟩ := Nat.exists_eq_add_of_le hpN
  rw [padding_iff hne hp hN, append_assoc, append_assoc, drop_append,
    @drop_append _ p, drop_eq_nil_of_le hpN, nil_append, nil_append,
    Nat.add_sub_cancel_left]
  constructor
  · intro h
    have hall := eq_of_shift hu.ne_nil h
    have hle : u.length ≤ n := by
      by_contra hlt
      rw [drop_append_of_le_length (by omega)] at hall
      refine hu.notMem (hall (u.getLast hu.ne_nil) ?_ ▸ getLast_mem hu.ne_nil)
      exact mem_append_left _ (getLast_mem_drop hu.ne_nil (by omega))
    rw [drop_append, drop_eq_nil_of_le hle, nil_append] at hall
    obtain ⟨w, k, hv, hw⟩ := exists_padding (by omega) hall
    exact ⟨w, k, hv, by omega⟩
  · rintro ⟨w, k, rfl, hw⟩
    have hpad : w ++ List.replicate k z ++ List.replicate u.length z =
        w ++ List.replicate u.length z ++ List.replicate k z := by
      simp [Nat.add_comm]
    rw [hpad, ← append_assoc, drop_left' (by simp; omega),
      drop_left' (by simp; omega)]

end Machine
