import H713.Machine.Bytes
import H713.Machine.Ring
import Mathlib.Data.Set.Insert

/-!
# Lists linked through memory

A head and nodes of two words each, with the head closing the ring. `Linked` only asks that the
links stay among the nodes. `ListAt head l` says that the list has the nodes of `l` in this order.
-/

namespace Machine.Bytes

open List

variable {m m' : Bytes} {head node a x lo hi : ℕ} {V : Set ℕ}

/-- The nodes that a walk from the head meets before it is back at the head. -/
inductive OnList (m : Bytes) (head : ℕ) : ℕ → Prop
  | first (h : m.rd32 head ≠ head) : OnList m head (m.rd32 head)
  | next {a : ℕ} (ha : OnList m head a) (h : m.rd32 a ≠ head) : OnList m head (m.rd32 a)

def listAddTail (m : Bytes) (head node : ℕ) : Bytes :=
  let prev := m.rd32 (head + 4)
  (((m.wr32 node head).wr32 (node + 4) prev).wr32 prev node).wr32 (head + 4) node

def listDel (m : Bytes) (node : ℕ) : Bytes :=
  let next := m.rd32 node
  let prev := m.rd32 (node + 4)
  (m.wr32 prev next).wr32 (next + 4) prev

/-- The head and the places of nodes are addresses and do not overlap. -/
structure Places (head : ℕ) (V : Set ℕ) : Prop where
  apart : ∀ a ∈ insert head V, ∀ b ∈ insert head V, a ≠ b → a + 8 ≤ b ∨ b + 8 ≤ a
  lt : ∀ a ∈ insert head V, a < 4294967296

/-- The links of the list stay among the head and the places `V`. -/
structure Linked (head : ℕ) (V : Set ℕ) (m : Bytes) : Prop where
  tail : m.rd32 (head + 4) ∈ insert head V
  node : ∀ a, OnList m head a → a ∈ V
  prev : ∀ a, OnList m head a → m.rd32 (a + 4) ∈ insert head V

lemma Linked.next (h : Linked head V m) (ha : OnList m head a) : m.rd32 a ∈ insert head V := by
  by_cases hne : m.rd32 a = head
  · exact .inl hne
  · exact .inr (h.node _ (ha.next hne))

/-! ### Memory that keeps the links -/

lemma OnList.congr (hhead : m'.rd32 head = m.rd32 head)
    (hnode : ∀ a, OnList m head a → m'.rd32 a = m.rd32 a) (ha : OnList m head a) :
    OnList m' head a := by
  induction ha with
  | first h =>
    rw [← hhead] at h ⊢
    exact .first h
  | next ha h ih =>
    rw [← hnode _ ha] at h ⊢
    exact .next ih h

lemma OnList.of_congr (hhead : m'.rd32 head = m.rd32 head)
    (hnode : ∀ a, OnList m head a → m'.rd32 a = m.rd32 a) (ha : OnList m' head a) :
    OnList m head a := by
  induction ha with
  | first h =>
    rw [hhead] at h ⊢
    exact .first h
  | next _ h ih =>
    rw [hnode _ ih] at h ⊢
    exact .next ih h

lemma onList_iff_of_keeps (hhead : Keeps head (head + 8) m m')
    (hnode : ∀ a, OnList m head a → Keeps a (a + 8) m m') :
    OnList m' head a ↔ OnList m head a := by
  have hfirst : m'.rd32 head = m.rd32 head := hhead.rd32 le_rfl (by omega)
  have hnext : ∀ a, OnList m head a → m'.rd32 a = m.rd32 a :=
    fun a ha => (hnode a ha).rd32 le_rfl (by omega)
  exact ⟨OnList.of_congr hfirst hnext, OnList.congr hfirst hnext⟩

lemma Linked.of_keeps (h : Linked head V m) (hhead : Keeps head (head + 8) m m')
    (hnode : ∀ a, OnList m head a → Keeps a (a + 8) m m') : Linked head V m' where
  tail := by
    rw [hhead.rd32 (by omega) (by omega)]
    exact h.tail
  node a ha := h.node a ((onList_iff_of_keeps hhead hnode).mp ha)
  prev a ha := by
    have ha := (onList_iff_of_keeps hhead hnode).mp ha
    rw [(hnode a ha).rd32 (by omega) (by omega)]
    exact h.prev a ha

lemma linked_empty (hnext : m.rd32 head = head) (hprev : m.rd32 (head + 4) = head) :
    Linked head V m := by
  have hnone : ∀ a, ¬OnList m head a := by
    intro a ha
    induction ha with
    | first h => exact h hnext
    | next _ _ ih => exact ih
  exact ⟨.inl hprev, fun a ha => (hnone a ha).elim, fun a ha => (hnone a ha).elim⟩

/-! ### Putting in and taking out -/

section AddTail

variable (hp : Places head V) (hn : node ∈ V) (ht : m.rd32 (head + 4) ∈ insert head V)
include hp hn ht

lemma rd32_listAddTail (hx : x ∈ insert head V) :
    (m.listAddTail head node).rd32 x
      = if x = m.rd32 (head + 4) then node else if x = node then head else m.rd32 x := by
  have hhead : head ∈ insert head V := .inl rfl
  have hnode : node ∈ insert head V := .inr hn
  have hxh := hp.apart x hx head hhead
  have hxn := hp.apart x hx node hnode
  have hxt := hp.apart x hx _ ht
  rw [listAddTail, rd32_wr32_of_ne (by omega)]
  split_ifs with hprev hself
  · rw [← hprev, rd32_wr32_self, u32_of_lt (hp.lt node hnode)]
  · rw [rd32_wr32_of_ne (by omega), rd32_wr32_of_ne (by omega), hself, rd32_wr32_self,
      u32_of_lt (hp.lt head hhead)]
  · rw [rd32_wr32_of_ne (by omega), rd32_wr32_of_ne (by omega), rd32_wr32_of_ne (by omega)]

lemma rd32_listAddTail_prev (hx : x ∈ insert head V) :
    (m.listAddTail head node).rd32 (x + 4)
      = if x = head then node else if x = node then m.rd32 (head + 4) else m.rd32 (x + 4) := by
  have hhead : head ∈ insert head V := .inl rfl
  have hnode : node ∈ insert head V := .inr hn
  have hxh := hp.apart x hx head hhead
  have hxn := hp.apart x hx node hnode
  have hxt := hp.apart x hx _ ht
  rw [listAddTail]
  split_ifs with hself hnew
  · rw [hself, rd32_wr32_self, u32_of_lt (hp.lt node hnode)]
  · rw [rd32_wr32_of_ne (by omega), rd32_wr32_of_ne (by omega), hnew, rd32_wr32_self,
      u32_of_lt (hp.lt _ ht)]
  · rw [rd32_wr32_of_ne (by omega), rd32_wr32_of_ne (by omega), rd32_wr32_of_ne (by omega),
      rd32_wr32_of_ne (by omega)]

omit hp in
lemma keeps_listAddTail (h : ∀ a ∈ insert head V, hi ≤ a ∨ a + 8 ≤ lo) :
    Keeps lo hi m (m.listAddTail head node) := by
  have hhead := h head (.inl rfl)
  have hnode := h node (.inr hn)
  have htail := h _ ht
  exact (((sameOff_wr32 m _ _).keeps (by omega)).trans ((sameOff_wr32 _ _ _).keeps
    (by omega))).trans
    (((sameOff_wr32 _ _ _).keeps (by omega)).trans ((sameOff_wr32 _ _ _).keeps (by omega)))

omit hn ht in
lemma Linked.onList_of_addTail (h : Linked head V m) (hn : node ∈ V)
    (ha : OnList (m.listAddTail head node) head a) : a = node ∨ OnList m head a := by
  induction ha with
  | first hne =>
    rw [rd32_listAddTail hp hn h.tail (.inl rfl)] at hne ⊢
    split_ifs at hne ⊢ with hprev hself
    · exact .inl rfl
    · exact absurd rfl hne
    · exact .inr (.first hne)
  | @next a _ hne ih =>
    have hav : a ∈ V := by
      rcases ih with rfl | ha
      exacts [hn, h.node a ha]
    rw [rd32_listAddTail hp hn h.tail (.inr hav)] at hne ⊢
    split_ifs at hne ⊢ with hprev hself
    · exact .inl rfl
    · exact absurd rfl hne
    · exact .inr (.next (ih.resolve_left hself) hne)

end AddTail

lemma Linked.addTail (hp : Places head V) (h : Linked head V m) (hn : node ∈ V) :
    Linked head V (m.listAddTail head node) where
  tail := by
    rw [rd32_listAddTail_prev hp hn h.tail (.inl rfl), if_pos rfl]
    exact .inr hn
  node a ha := by
    rcases h.onList_of_addTail hp hn ha with rfl | ha
    exacts [hn, h.node a ha]
  prev a ha := by
    have hav : a ∈ V := by
      rcases h.onList_of_addTail hp hn ha with rfl | ha
      exacts [hn, h.node a ha]
    rw [rd32_listAddTail_prev hp hn h.tail (.inr hav)]
    split_ifs with hhead hself
    · exact .inr hn
    · exact h.tail
    · exact h.prev a ((h.onList_of_addTail hp hn ha).resolve_left hself)

section Neighbours

variable (hnext : m.rd32 node ∈ insert head V) (hprev : m.rd32 (node + 4) ∈ insert head V)
include hnext hprev

lemma rd32_listDel (hp : Places head V) (hx : x ∈ insert head V) :
    (m.listDel node).rd32 x = if x = m.rd32 (node + 4) then m.rd32 node else m.rd32 x := by
  have hxn := hp.apart x hx _ hnext
  have hxp := hp.apart x hx _ hprev
  rw [listDel, rd32_wr32_of_ne (by omega)]
  split_ifs with hself
  · rw [← hself, rd32_wr32_self, u32_of_lt (rd32_lt m node)]
  · rw [rd32_wr32_of_ne (by omega)]

lemma rd32_listDel_prev (hp : Places head V) (hx : x ∈ insert head V) :
    (m.listDel node).rd32 (x + 4)
      = if x = m.rd32 node then m.rd32 (node + 4) else m.rd32 (x + 4) := by
  have hxn := hp.apart x hx _ hnext
  have hxp := hp.apart x hx _ hprev
  rw [listDel]
  split_ifs with hself
  · rw [hself, rd32_wr32_self, u32_of_lt (rd32_lt m _)]
  · rw [rd32_wr32_of_ne (by omega), rd32_wr32_of_ne (by omega)]

lemma keeps_listDel (hd : ∀ a ∈ insert head V, hi ≤ a ∨ a + 8 ≤ lo) :
    Keeps lo hi m (m.listDel node) := by
  have hn := hd _ hnext
  have hp := hd _ hprev
  exact ((sameOff_wr32 m _ _).keeps (by omega)).trans ((sameOff_wr32 _ _ _).keeps (by omega))

end Neighbours

section Del

variable (hp : Places head V) (h : Linked head V m) (hn : OnList m head node)
include hp h hn

lemma Linked.rd32_listDel (hx : x ∈ insert head V) :
    (m.listDel node).rd32 x = if x = m.rd32 (node + 4) then m.rd32 node else m.rd32 x :=
  Bytes.rd32_listDel (h.next hn) (h.prev node hn) hp hx

lemma Linked.rd32_listDel_prev (hx : x ∈ insert head V) :
    (m.listDel node).rd32 (x + 4)
      = if x = m.rd32 node then m.rd32 (node + 4) else m.rd32 (x + 4) :=
  Bytes.rd32_listDel_prev (h.next hn) (h.prev node hn) hp hx

omit hp in
lemma Linked.keeps_listDel (hd : ∀ a ∈ insert head V, hi ≤ a ∨ a + 8 ≤ lo) :
    Keeps lo hi m (m.listDel node) :=
  Bytes.keeps_listDel (h.next hn) (h.prev node hn) hd

lemma Linked.onList_of_del (ha : OnList (m.listDel node) head a) : OnList m head a := by
  induction ha with
  | first hne =>
    rw [h.rd32_listDel hp hn (.inl rfl)] at hne ⊢
    split_ifs at hne ⊢ with hprev
    · exact .next hn hne
    · exact .first hne
  | @next a _ hne ih =>
    rw [h.rd32_listDel hp hn (.inr (h.node a ih))] at hne ⊢
    split_ifs at hne ⊢ with hprev
    · exact .next hn hne
    · exact .next ih hne

lemma Linked.del : Linked head V (m.listDel node) where
  tail := by
    rw [h.rd32_listDel_prev hp hn (.inl rfl)]
    split_ifs
    exacts [h.prev node hn, h.tail]
  node a ha := h.node a (h.onList_of_del hp hn ha)
  prev a ha := by
    have ha := h.onList_of_del hp hn ha
    rw [h.rd32_listDel_prev hp hn (.inr (h.node a ha))]
    split_ifs
    exacts [h.prev node hn, h.prev a ha]

end Del

/-! ### Proper lists -/

def ListAt (head : ℕ) (l : List ℕ) (m : Bytes) : Prop :=
  Machine.Linked m.rd32 (fun a => m.rd32 (a + 4)) head l head

namespace ListAt

variable {l l₁ l₂ : List ℕ}

lemma mem_ring : x ∈ l ++ [head] ↔ x ∈ head :: l := by
  simp [or_comm]

lemma next_mem (h : ListAt head l m) (hx : x ∈ head :: l) : m.rd32 x ∈ head :: l :=
  mem_ring.mp (Machine.Linked.next_mem h hx)

lemma prev_mem (h : ListAt head l m) (hx : x ∈ head :: l) : m.rd32 (x + 4) ∈ head :: l := by
  have hx' := mem_ring.mpr hx
  exact @Machine.Linked.prev_mem ℕ m.rd32 (fun a => m.rd32 (a + 4)) head head x l h hx'

lemma inverse (h : ListAt head l m) (hx : x ∈ head :: l) :
    m.rd32 (m.rd32 x + 4) = x ∧ m.rd32 (m.rd32 (x + 4)) = x :=
  ⟨Machine.Linked.prev_next h hx, Machine.Linked.next_prev h (mem_ring.mpr hx)⟩

lemma of_keeps (h : ListAt head l m) (hk : ∀ a ∈ head :: l, Keeps a (a + 8) m m') :
    ListAt head l m' := by
  refine Machine.Linked.congr h (fun x hx => (hk x hx).rd32 le_rfl (by omega)) fun x hx => ?_
  exact (hk x (mem_ring.mp hx)).rd32 (by omega) (by omega)

variable (hp : Places head V) (hhead : head ∉ V)
include hp hhead

lemma addTail (h : ListAt head l m) (hl : ∀ a ∈ l, a ∈ V) (hnd : l.Nodup) (hn : node ∈ V)
    (hnot : node ∉ l) : ListAt head (l ++ [node]) (m.listAddTail head node) := by
  have hsub : ∀ x ∈ head :: l, x ∈ insert head V := by
    intro x hx
    exact (mem_cons.mp hx).imp id (hl x)
  have hhl : head ∉ l := fun hm => hhead (hl head hm)
  have hnh : node ≠ head := fun e => hhead (e ▸ hn)
  have htail := hsub _ (h.prev_mem mem_cons_self)
  have hnt : node ≠ m.rd32 (head + 4) := by
    intro e
    rcases mem_cons.mp (e ▸ h.prev_mem mem_cons_self) with hm | hm
    · exact hnh hm
    · exact hnot hm
  have hnode : node ∈ insert head V := .inr hn
  refine Machine.Linked.concat h (nodup_cons.mpr ⟨hhl, hnd⟩) ?_ ?_ ?_ ?_ ?_ ?_
  · rw [rd32_listAddTail hp hn htail htail, if_pos rfl]
  · intro x hx hne
    have hxn : x ≠ node := by
      rintro rfl
      exact (mem_cons.mp hx).elim hnh hnot
    rw [rd32_listAddTail hp hn htail (hsub x hx), if_neg hne, if_neg hxn]
  · intro x hx
    have hxh : x ≠ head := fun e => hhl (e ▸ hx)
    have hxn : x ≠ node := fun e => hnot (e ▸ hx)
    have hxv := hsub x (mem_cons_of_mem head hx)
    simp only [rd32_listAddTail_prev hp hn htail hxv, if_neg hxh, if_neg hxn]
  · rw [rd32_listAddTail hp hn htail hnode, if_neg hnt, if_pos rfl]
  · simp only [rd32_listAddTail_prev hp hn htail hnode, if_neg hnh, if_pos]
  · simp only [rd32_listAddTail_prev hp hn htail (.inl rfl : head ∈ insert head V), if_pos]

lemma del (h : ListAt head (l₁ ++ node :: l₂) m) (hl : ∀ a ∈ l₁ ++ node :: l₂, a ∈ V)
    (hnd : (l₁ ++ node :: l₂).Nodup) : ListAt head (l₁ ++ l₂) (m.listDel node) := by
  have hsub : ∀ x ∈ head :: (l₁ ++ node :: l₂), x ∈ insert head V := by
    intro x hx
    exact (mem_cons.mp hx).imp id (hl x)
  have hhl : head ∉ l₁ ++ node :: l₂ := fun hm => hhead (hl head hm)
  have hmem : node ∈ head :: (l₁ ++ node :: l₂) := by simp
  have hnext := hsub _ (h.next_mem hmem)
  have hprev := hsub _ (h.prev_mem hmem)
  have hrest : ∀ x ∈ head :: (l₁ ++ l₂), x ∈ insert head V := by
    intro x hx
    refine hsub x ?_
    simp only [mem_cons, mem_append] at hx ⊢
    tauto
  have hv : ((l₁ ++ node :: l₂) ++ [head]).Nodup := by
    rw [nodup_append]
    refine ⟨hnd, nodup_singleton head, fun a ha b hb e => ?_⟩
    exact hhl (mem_singleton.mp hb ▸ e ▸ ha)
  refine (Machine.Linked.remove h (nodup_cons.mpr ⟨hhl, hnd⟩) hv).congr ?_ ?_
  · intro x hx
    rw [rd32_listDel hnext hprev hp (hrest x hx), Function.update_apply]
  · intro x hx
    have hx' := hrest x (mem_ring.mp hx)
    simp only [rd32_listDel_prev hnext hprev hp hx', Function.update_apply]

end ListAt

end Machine.Bytes
