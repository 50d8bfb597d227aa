import H713.CpuComm.Socket.Lists

/-!
# The lists as sequences

A list of a socket keeps a sequence of entries, each of a session, and `Holds` relates the memory to
it. An entry that is not in the list can be put at its end, and one that is in it can be taken out.
-/

namespace CpuComm

open Machine Bytes List

/-- Where the entries of a list have their session and their node. -/
structure EntryKind where
  size : ℕ
  session : ℕ
  node : ℕ
  session_le : session + 4 ≤ node
  node_le : node + 8 ≤ size

def EntryKind.waitObject : EntryKind := ⟨32, 0, 24, by decide, by decide⟩

def EntryKind.message : EntryKind := ⟨104, 12, 84, by decide, by decide⟩

/-- The header of a list at `lb` and the entries `V` do not overlap. -/
structure Layout (K : EntryKind) (lb : ℕ) (V : Set ℕ) : Prop where
  pos : 0 < lb
  le : lb + 80 ≤ 4294967296
  entry_pos : ∀ e ∈ V, 0 < e
  entry_le : ∀ e ∈ V, e + K.size ≤ 4294967296
  off : ∀ e ∈ V, e + K.size ≤ lb ∨ lb + 80 ≤ e
  apart : ∀ e ∈ V, ∀ e' ∈ V, e ≠ e' → e + K.size ≤ e' ∨ e' + K.size ≤ e

/-- A sequence of entries. -/
structure MsgSeq where
  entries : List ℕ
  session : ℕ → ℕ

namespace MsgSeq

def add (s : MsgSeq) (e : ℕ) : MsgSeq := { s with entries := s.entries ++ [e] }

def find (s : MsgSeq) (id : ℕ) : Option ℕ := s.entries.find? fun e => s.session e = id

def remove (s : MsgSeq) (e : ℕ) : MsgSeq := { s with entries := s.entries.erase e }

def setSession (s : MsgSeq) (e id : ℕ) : MsgSeq :=
  { s with session := Function.update s.session e id }

/-- The sequence kept by the list at `lb`, whose semaphore has the count `k`. -/
structure Holds (K : EntryKind) (lb : ℕ) (V : Set ℕ) (k : ℕ) (s : MsgSeq) (m : Bytes) : Prop where
  list : ListAt (lb + 56) (s.entries.map (· + K.node)) m
  count : m.rd32 (lb + 52) = s.entries.length
  sem : m.rd32 (lb + 68) = k
  nodup : s.entries.Nodup
  mem : ∀ e ∈ s.entries, e ∈ V
  session : ∀ e ∈ V, m.rd32 (e + K.session) = s.session e

end MsgSeq

open MsgSeq MsgFifo

variable {K : EntryKind} {lb k e lo hi : ℕ} {V : Set ℕ} {s : MsgSeq} {m m' : Bytes}

namespace Layout

def nodes (K : EntryKind) (V : Set ℕ) : Set ℕ := {a | ∃ e ∈ V, a = e + K.node}

lemma places (h : Layout K lb V) : Places (lb + 56) (nodes K V) where
  apart := by
    have := K.node_le
    rintro a (rfl | ⟨e, he, rfl⟩) b (rfl | ⟨e', he', rfl⟩) hne
    · exact absurd rfl hne
    · have := h.off e' he'
      omega
    · have := h.off e he
      omega
    · have := h.apart e he e' he' fun hee => hne (by rw [hee])
      omega
  lt := by
    have := K.node_le
    rintro a (rfl | ⟨e, he, rfl⟩)
    · have := h.le
      omega
    · have := h.entry_le e he
      omega

lemma head_notMem (h : Layout K lb V) : lb + 56 ∉ nodes K V := by
  rintro ⟨e, he, heq⟩
  have := h.off e he
  have := K.node_le
  omega

lemma length_lt (h : Layout K lb V) {l : List ℕ} (hnd : l.Nodup) (hl : ∀ e ∈ l, e ∈ V) :
    l.length < 2147483648 := by
  have hsize := K.node_le
  have hinj : (l.map (· / 8)).Nodup := by
    refine (nodup_map_iff_inj_on hnd).mpr fun e he e' he' heq => ?_
    by_contra hne
    have := h.apart e (hl e he) e' (hl e' he') hne
    omega
  have hsub : (l.map (· / 8)).toFinset ⊆ Finset.range 536870912 := by
    intro a ha
    obtain ⟨e, he, rfl⟩ := mem_map.mp (mem_toFinset.mp ha)
    have := h.entry_le e (hl e he)
    exact Finset.mem_range.mpr (by omega)
  have hcard := Finset.card_le_card hsub
  rw [toFinset_card_of_nodup hinj, length_map, Finset.card_range] at hcard
  omega

end Layout

namespace MsgSeq.Holds

/-- What is read to find the sequence in memory. -/
structure Same (K : EntryKind) (lb : ℕ) (V : Set ℕ) (m m' : Bytes) : Prop where
  header : Keeps (lb + 52) (lb + 72) m m'
  session : ∀ e ∈ V, Keeps (e + K.session) (e + K.session + 4) m m'
  node : ∀ e ∈ V, Keeps (e + K.node) (e + K.node + 8) m m'

lemma mem_nodes (h : Holds K lb V k s m) {a : ℕ} (ha : a ∈ s.entries.map (· + K.node)) :
    a ∈ Layout.nodes K V := by
  obtain ⟨e, he, rfl⟩ := mem_map.mp ha
  exact ⟨e, h.mem e he, rfl⟩

lemma nodup_nodes (h : Holds K lb V k s m) : (s.entries.map (· + K.node)).Nodup :=
  h.nodup.map fun _ _ => Nat.add_right_cancel

lemma same (h : Holds K lb V k s m) (hs : Same K lb V m m') : Holds K lb V k s m' where
  list := by
    refine h.list.of_keeps fun a ha => ?_
    rcases mem_cons.mp ha with rfl | ha
    · exact fun x hx hx' => hs.header x (by omega) (by omega)
    · obtain ⟨e, he, rfl⟩ := h.mem_nodes ha
      exact hs.node e he
  count := by rw [hs.header.rd32 (by omega) (by omega), h.count]
  sem := by rw [hs.header.rd32 (by omega) (by omega), h.sem]
  nodup := h.nodup
  mem := h.mem
  session := fun e he => by rw [(hs.session e he).rd32 le_rfl (by omega), h.session e he]

/-! ### The semaphore -/

lemma withSem {k' : ℕ} (hL : Layout K lb V) (h : Holds K lb V k s m)
    (hoff : SameOff (lb + 68) (lb + 72) m m') (hk : m'.rd32 (lb + 68) = k') :
    Holds K lb V k' s m' where
  list := by
    refine h.list.of_keeps fun a ha => hoff.keeps ?_
    rcases mem_cons.mp ha with rfl | ha
    · omega
    · obtain ⟨e, he, rfl⟩ := h.mem_nodes ha
      have := hL.off e he
      have := K.node_le
      omega
  count := by rw [hoff.rd32 (by omega), h.count]
  sem := hk
  nodup := h.nodup
  mem := h.mem
  session := fun e he => by
    have := hL.off e he
    have := K.node_le
    have := K.session_le
    rw [hoff.rd32 (by omega), h.session e he]

lemma down (hL : Layout K lb V) (h : Holds K lb V (k + 1) s m) :
    ∃ m', semDown m (lb + 64) = some m' ∧ Holds K lb V k s m' ∧
      SameOff (lb + 68) (lb + 72) m m' := by
  have hsem : m.rd32 (lb + 64 + 4) = k + 1 := h.sem
  have hlt := m.rd32_lt (lb + 64 + 4)
  refine ⟨_, by rw [semDown, hsem, if_neg (Nat.succ_ne_zero k)], ?_, sameOff_wr32 _ _ _⟩
  have hoff := sameOff_wr32 m (lb + 68) (k + 1 - 1)
  exact h.withSem hL hoff (by rw [rd32_wr32_self, u32_of_lt (by omega), Nat.add_sub_cancel])

lemma up (hL : Layout K lb V) (h : Holds K lb V k s m) (hk : k + 1 < 4294967296) :
    Holds K lb V (k + 1) s (semUp m (lb + 64)) := by
  have hsem : m.rd32 (lb + 64 + 4) = k := h.sem
  refine h.withSem hL (sameOff_wr32 m (lb + 68) _) ?_
  rw [semUp, hsem]
  exact (rd32_wr32_self m (lb + 68) (k + 1)).trans (u32_of_lt hk)

/-! ### The ends of the list -/

lemma sameOff_countUp (m : Bytes) (lb : ℕ) : SameOff (lb + 48) (lb + 56) m (countUp m lb) := by
  have hcount := (sameOff_wr32 m (lb + 52) (u32 (m.rd32 (lb + 52) + 1))).mono
    (show lb + 48 ≤ lb + 52 by omega) (show lb + 52 + 4 ≤ lb + 56 by omega)
  rw [countUp]
  split_ifs
  · exact hcount.trans ((sameOff_wr8 _ (lb + 48) _).mono le_rfl (by omega))
  · exact hcount

lemma rd32_countUp (m : Bytes) (lb : ℕ) :
    (countUp m lb).rd32 (lb + 52) = u32 (m.rd32 (lb + 52) + 1) := by
  rw [countUp]
  split_ifs
  · rw [(sameOff_wr8 _ (lb + 48) _).rd32 (by omega), rd32_wr32_self, u32_of_lt (u32_lt _)]
  · rw [rd32_wr32_self, u32_of_lt (u32_lt _)]

/-- A piece of memory without links of the list. -/
structure Off (K : EntryKind) (lb : ℕ) (V : Set ℕ) (lo hi : ℕ) : Prop where
  head : hi ≤ lb + 56 ∨ lb + 64 ≤ lo
  node : ∀ e ∈ V, hi ≤ e + K.node ∨ e + K.node + 8 ≤ lo

lemma Off.le (h : Off K lb V lo hi) {a : ℕ} (ha : a ∈ insert (lb + 56) (Layout.nodes K V)) :
    hi ≤ a ∨ a + 8 ≤ lo := by
  rcases ha with rfl | ⟨e, he, rfl⟩
  · exact h.head
  · exact h.node e he

lemma off_header (hL : Layout K lb V) (hlo : lb ≤ lo) (hhi : hi ≤ lb + 80)
    (hhead : hi ≤ lb + 56 ∨ lb + 64 ≤ lo) : Off K lb V lo hi := by
  refine ⟨hhead, fun e he => ?_⟩
  have := hL.off e he
  have := K.node_le
  omega

lemma off_entry (hL : Layout K lb V) (he : e ∈ V) (hlo : e ≤ lo) (hhi : hi ≤ e + K.node) :
    Off K lb V lo hi := by
  have := K.node_le
  have := hL.off e he
  refine ⟨by omega, fun e' he' => ?_⟩
  by_cases hee : e = e'
  · subst hee
    exact .inl hhi
  · have := hL.apart e he e' he' hee
    omega

lemma neighbours (h : Holds K lb V k s m) {a : ℕ}
    (ha : a ∈ (lb + 56) :: s.entries.map (· + K.node)) :
    m.rd32 a ∈ insert (lb + 56) (Layout.nodes K V) ∧
      m.rd32 (a + 4) ∈ insert (lb + 56) (Layout.nodes K V) :=
  ⟨(mem_cons.mp (h.list.next_mem ha)).imp id h.mem_nodes,
    (mem_cons.mp (h.list.prev_mem ha)).imp id h.mem_nodes⟩

lemma keeps_linkTail (h : Holds K lb V k s m) (he : e ∈ V) (hoff : Off K lb V lo hi) :
    Keeps lo hi m (m.listAddTail (lb + 56) (e + K.node)) := by
  have hnode : e + K.node ∈ Layout.nodes K V := ⟨e, he, rfl⟩
  exact keeps_listAddTail hnode (h.neighbours mem_cons_self).2 fun _ ha => hoff.le ha

lemma relink {s' : MsgSeq} {m₁ : Bytes} (hL : Layout K lb V) (h : Holds K lb V k s m)
    (hkeeps : ∀ {lo hi : ℕ}, Off K lb V lo hi → Keeps lo hi m m₁)
    (hoff : SameOff (lb + 48) (lb + 56) m₁ m')
    (hlist : ListAt (lb + 56) (s'.entries.map (· + K.node)) m₁)
    (hcount : m'.rd32 (lb + 52) = s'.entries.length) (hnodup : s'.entries.Nodup)
    (hmem : ∀ e ∈ s'.entries, e ∈ V) (hsession : s'.session = s.session) :
    Holds K lb V k s' m' where
  list := by
    refine hlist.of_keeps fun a ha => hoff.keeps ?_
    rcases mem_cons.mp ha with rfl | ha
    · omega
    · obtain ⟨e, he, rfl⟩ := mem_map.mp ha
      have := hL.off e (hmem e he)
      have := K.node_le
      omega
  count := hcount
  sem := by
    have hkept := hkeeps (off_header hL (show lb ≤ lb + 68 by omega) (show lb + 72 ≤ _ by omega)
      (.inr (by omega)))
    rw [hoff.rd32 (by omega), hkept.rd32 le_rfl le_rfl, h.sem]
  nodup := hnodup
  mem := hmem
  session := fun e he => by
    have := hL.off e he
    have := K.node_le
    have := K.session_le
    have hkept := hkeeps (off_entry hL he (show e ≤ e + K.session by omega)
      (show e + K.session + 4 ≤ _ by omega))
    rw [hoff.rd32 (by omega), hkept.rd32 le_rfl le_rfl, h.session e he, hsession]

lemma count_of_keeps {m₁ : Bytes} (hL : Layout K lb V) (h : Holds K lb V k s m)
    (hkeeps : ∀ {lo hi : ℕ}, Off K lb V lo hi → Keeps lo hi m m₁) :
    m₁.rd32 (lb + 52) = s.entries.length := by
  have hkept := hkeeps (off_header hL (show lb ≤ lb + 52 by omega) (show lb + 56 ≤ _ by omega)
    (.inl (by omega)))
  rw [hkept.rd32 le_rfl le_rfl, h.count]

lemma linkTail (hL : Layout K lb V) (h : Holds K lb V k s m) (he : e ∈ V) (hnot : e ∉ s.entries) :
    Holds K lb V k (s.add e) (countUp (m.listAddTail (lb + 56) (e + K.node)) lb) := by
  have hlen := hL.length_lt h.nodup h.mem
  have hnode : e + K.node ∉ s.entries.map (· + K.node) := by
    simpa using hnot
  refine h.relink hL (h.keeps_linkTail he) (sameOff_countUp _ lb) ?_ ?_ ?_ ?_ rfl
  · rw [add, map_append, map_singleton]
    exact h.list.addTail hL.places hL.head_notMem (fun a ha => h.mem_nodes ha) h.nodup_nodes
      ⟨e, he, rfl⟩ hnode
  · rw [rd32_countUp, h.count_of_keeps hL (h.keeps_linkTail he), u32_of_lt (by omega), add,
      length_append, length_singleton]
  · exact h.nodup.append (nodup_singleton e) (by simpa using hnot)
  · intro e' he'
    rcases mem_append.mp he' with he' | he'
    · exact h.mem e' he'
    · exact mem_singleton.mp he' ▸ he

lemma keeps_unlink (h : Holds K lb V k s m) (he : e ∈ s.entries) (hoff : Off K lb V lo hi) :
    Keeps lo hi m (m.listDel (e + K.node)) := by
  have hnode : e + K.node ∈ (lb + 56) :: s.entries.map (· + K.node) :=
    mem_cons_of_mem _ (mem_map_of_mem he)
  exact keeps_listDel (h.neighbours hnode).1 (h.neighbours hnode).2 fun _ ha => hoff.le ha

lemma unlink (hL : Layout K lb V) (h : Holds K lb V k s m) (he : e ∈ s.entries) :
    Holds K lb V k (s.remove e) (countDown (m.listDel (e + K.node)) lb) := by
  have hcount : SameOff (lb + 48) (lb + 56) (m.listDel (e + K.node))
      (countDown (m.listDel (e + K.node)) lb) :=
    (sameOff_wr32 _ _ _).mono (by omega) le_rfl
  have hlen := hL.length_lt h.nodup h.mem
  have hpos := length_pos_of_mem he
  refine h.relink hL (h.keeps_unlink he) hcount ?_ ?_ (h.nodup.erase e)
    (fun e' he' => h.mem e' (mem_of_mem_erase he')) rfl
  · obtain ⟨l₁, l₂, hsplit⟩ := append_of_mem he
    have hnd := h.nodup
    rw [hsplit] at hnd
    have hl₁ : e ∉ l₁ := fun hm => (nodup_append.mp hnd).2.2 e hm e mem_cons_self rfl
    have herase : (s.remove e).entries = l₁ ++ l₂ := by
      rw [remove, hsplit, erase_append_right _ hl₁, erase_cons_head]
    have hlist := h.list
    have hnodes := h.nodup_nodes
    have hsub : ∀ a ∈ s.entries.map (· + K.node), a ∈ Layout.nodes K V := fun a ha => h.mem_nodes ha
    rw [hsplit, map_append, map_cons] at hlist hnodes hsub
    rw [herase, map_append]
    exact hlist.del hL.places hL.head_notMem hsub hnodes
  · rw [countDown, rd32_wr32_self, h.count_of_keeps hL (h.keeps_unlink he),
      sub32_of_le hpos (by omega), remove, length_erase_of_mem he, u32_of_lt (by omega)]

lemma walk_eq {β : Type} {f : ℕ → Option β} {fuel : ℕ} (hL : Layout K lb V)
    (h : Holds K lb V k s m) (hfuel : s.entries.length ≤ fuel) :
    walk m.rd32 (lb + 56) f fuel (m.rd32 (lb + 56)) =
      some (s.entries.findSome? fun e => f (e + K.node)) := by
  have hhead : lb + 56 ∉ s.entries.map (· + K.node) :=
    fun hm => hL.head_notMem (h.mem_nodes hm)
  rw [Machine.Linked.walk_eq h.list hhead (by rwa [length_map]), List.findSome?_map]
  rfl

end MsgSeq.Holds

end CpuComm
