import H713.CpuComm.Socket.Sequences

/-!
# The SendCmdWaitList refines a sequence

`InitMsgFIFO` sets up an empty list. The operations on a SendCmdWaitList do what the same ones do on
a sequence, and give the same replies.
-/

namespace CpuComm

open Machine Bytes MsgFifo MsgSeq List

variable {K : EntryKind} {lb k e id fuel : ℕ} {V : Set ℕ} {s : MsgSeq} {m m' : Bytes}

/-! ### The empty list -/

lemma sameOff_strlcat {a n : ℕ} {src : String} (h : strlcat m a src n = some m') :
    SameOff a (a + n) m m' := by
  simp only [strlcat, Option.ite_none_left_eq_some, Option.some.injEq] at h
  have hlen := length_take_le (n - strnlen m a n - 1) (src.toList.map Char.toNat)
  have hn := h.1
  rw [← h.2]
  exact ((sameOff_wrBytes m _ _).mono (by omega) (by omega)).wr8 (by omega)

lemma sameOff_initList (m : Bytes) (f : ℕ) : SameOff (f + 48) (f + 64) m (initList m f) :=
  ((((SameOff.refl _ _ m).wr8 (by omega)).wr32 (by omega)).wr32 (by omega)).wr32 (by omega)

lemma rd32_initList (m : Bytes) (f : ℕ) (hf : f + 56 < 4294967296) :
    (initList m f).rd32 (f + 52) = 0 ∧ (initList m f).rd32 (f + 56) = f + 56 ∧
      (initList m f).rd32 (f + 60) = f + 56 := by
  refine ⟨?_, ?_, ?_⟩
  · rw [initList, rd32_wr32_of_ne (by omega), rd32_wr32_of_ne (by omega), rd32_wr32_self]
    rfl
  · rw [initList, rd32_wr32_of_ne (by omega), rd32_wr32_self, u32_of_lt hf]
  · rw [initList, rd32_wr32_self, u32_of_lt hf]

lemma holds_init {pre suf : String} {mode : ℤ} (hL : Layout K lb V) (hmode : 0 < mode)
    (hlt : mode < 2147483648) (h : initMsgFIFO m lb pre suf mode = some m') :
    Holds K lb V mode.toNat ⟨[], fun e => m.rd32 (e + K.session)⟩ m' := by
  obtain ⟨m₁, hcat, h⟩ := Option.bind_eq_some_iff.mp h
  rw [if_pos hmode.le] at h
  cases h
  have hle := hL.le
  have hsem : SameOff (lb + 64) (lb + 80) (initList m₁ lb)
      ((semaInit (initList m₁ lb) (lb + 64) 1).wr32 (lb + 68) (ofInt32 mode)) :=
    ((sameOff_wrWords _ _ _).mono le_rfl (by simp)).wr32 (by omega)
  obtain ⟨hcount, hnext, hprev⟩ := rd32_initList m₁ lb (by omega)
  refine ⟨⟨?_, ?_⟩, ?_, ?_, nodup_nil, fun e he => absurd he not_mem_nil, fun e he => ?_⟩
  · rw [hsem.rd32 (by omega), hnext]
  · exact (hsem.rd32 (by omega)).trans hprev
  · rw [hsem.rd32 (by omega), hcount]
    rfl
  · rw [rd32_wr32_self, ofInt32, u32_of_lt (by omega)]
    congr 1
    omega
  · have := hL.off e he
    have := K.node_le
    have := K.session_le
    have hname := (sameOff_strncpy m lb pre 48).trans (sameOff_strlcat hcat)
    rw [hsem.rd32 (by omega), (sameOff_initList m₁ lb).rd32 (by omega), hname.rd32 (by omega)]

/-! ### The SendCmdWaitList -/

lemma linkWait_eq (hL : Layout .waitObject lb V) (h : Holds .waitObject lb V k s m) (he : e ∈ V) :
    linkWait m lb e = m.listAddTail (lb + 56) (e + 24) := by
  have hoff : e + 32 ≤ lb ∨ lb + 80 ≤ e := hL.off e he
  have htail : m.rd32 (lb + 60) ∈ insert (lb + 56) (Layout.nodes .waitObject V) :=
    (h.neighbours mem_cons_self).2
  have hhead := hL.places.apart _ htail (lb + 56) (.inl rfl)
  -- the store to the last node is apart from the one to the tail
  have hprev : m.rd32 (lb + 60) + 4 ≤ lb + 60 ∨ lb + 60 + 4 ≤ m.rd32 (lb + 60) := by
    by_cases hself : m.rd32 (lb + 60) = lb + 56
    · omega
    · have := hhead hself
      omega
  simp only [linkWait]
  rw [wr32_comm (b := lb + 60) (by omega), wr32_comm (b := lb + 60) (by omega),
    wr32_comm (b := lb + 60) (by omega)]
  rfl

lemma findSome?_eq_find? {α β : Type} {l : List α} {f : α → Option β} {p : α → Bool} {g : α → β}
    (h : ∀ a ∈ l, f a = if p a then some (g a) else none) :
    l.findSome? f = (l.find? p).map g := by
  induction l with
  | nil => rfl
  | cons a l ih =>
    rw [List.findSome?_cons, List.find?_cons, h a mem_cons_self]
    cases p a with
    | true => rfl
    | false => exact ih fun b hb => h b (mem_cons_of_mem a hb)

lemma Layout.sub_node (hL : Layout K lb V) (he : e ∈ V) : sub32 (e + K.node) K.node = e := by
  have := hL.entry_le e he
  have := K.node_le
  rw [sub32_of_le (by omega) (by omega), Nat.add_sub_cancel]

lemma walkWaits_eq (hL : Layout .waitObject lb V) (h : Holds .waitObject lb V k s m)
    (hfuel : s.entries.length ≤ fuel) :
    walkWaits m lb id fuel = some ((s.find id).map (· + 24)) := by
  rw [walkWaits, h.walk_eq hL hfuel, find]
  refine congrArg some (findSome?_eq_find? fun e he => ?_)
  have hsub := hL.sub_node (h.mem e he)
  have hsession : m.rd32 e = s.session e := h.session e (h.mem e he)
  simp only [EntryKind.waitObject] at hsub ⊢
  simp only [hsub, hsession, decide_eq_true_eq]

lemma mem_of_find (h : s.find id = some e) : e ∈ s.entries := mem_of_find?_eq_some h

def foundReply (s : MsgSeq) (id : ℕ) : Reply :=
  match s.find id with
  | some e => ⟨0, some e⟩
  | none   => ⟨1, some 0⟩

lemma findWait_eq (hL : Layout .waitObject lb V) (hk : k + 1 < 4294967296)
    (h : Holds .waitObject lb V (k + 1) s m) (hfuel : s.entries.length ≤ fuel) (id : ℕ) :
    ∃ m', findWaitBySessionId fuel m lb id true = some (m', foundReply s id) ∧
      Holds .waitObject lb V (k + 1) s m' ∧ SameOff (lb + 68) (lb + 72) m m' := by
  obtain ⟨m₁, hdown, h₁, hoff⟩ := h.down hL
  refine ⟨semUp m₁ (lb + 64), ?_, h₁.up hL hk, hoff.trans (sameOff_wr32 m₁ (lb + 68) _)⟩
  simp only [findWaitBySessionId, hL.pos.ne', reduceCtorEq, or_self, if_false, hdown]
  rw [Option.bind_eq_bind, Option.bind_some, walkWaits_eq hL h₁ hfuel, foundReply]
  cases hfind : s.find id with
  | none => rfl
  | some e =>
    have hsub : sub32 (e + 24) 24 = e := hL.sub_node (h.mem e (mem_of_find hfind))
    simp only [Option.map_some, Option.bind_eq_bind, Option.bind_some, hsub]

inductive WaitOp
  | add (e : ℕ)
  | get (id : ℕ)
  | find (id : ℕ)
  /-- the owner of an object writes its session -/
  | setSession (e id : ℕ)

def waitStep (lb fuel : ℕ) (st : Bytes × List Reply) : WaitOp → Option (Bytes × List Reply)
  | .add e => (addtoWaitComm st.1 lb e).map fun r => (r.1, st.2 ++ [r.2])
  | .get id => (getWaitbySessionId fuel st.1 lb id true).map fun r => (r.1, st.2 ++ [r.2])
  | .find id => (findWaitBySessionId fuel st.1 lb id true).map fun r => (r.1, st.2 ++ [r.2])
  | .setSession e id => some (st.1.wr32 e id, st.2)

def seqStep (st : MsgSeq × List Reply) : WaitOp → Option (MsgSeq × List Reply)
  | .add e => some (st.1.add e, st.2 ++ [⟨0, none⟩])
  | .get id =>
    match st.1.find id with
    | some e => some (st.1.remove e, st.2 ++ [⟨0, some e⟩])
    | none   => some (st.1, st.2 ++ [⟨1, none⟩])
  | .find id => some (st.1, st.2 ++ [foundReply st.1 id])
  | .setSession e id => some (st.1.setSession e id, st.2)

def WaitOp.Ok (V : Set ℕ) (st : MsgSeq × List Reply) : WaitOp → Prop
  | .add e           => e ∈ V ∧ e ∉ st.1.entries
  | .setSession e id => e ∈ V ∧ id < 4294967296
  | _                => True

lemma MsgSeq.Holds.setSession (hL : Layout K lb V) (h : Holds K lb V k s m) (he : e ∈ V)
    (hid : id < 4294967296) :
    Holds K lb V k (s.setSession e id) (m.wr32 (e + K.session) id) := by
  have hoff := sameOff_wr32 m (e + K.session) id
  have := hL.off e he
  have := K.node_le
  have := K.session_le
  refine ⟨?_, ?_, ?_, h.nodup, h.mem, fun e' he' => ?_⟩
  · refine h.list.of_keeps fun a ha => hoff.keeps ?_
    rcases mem_cons.mp ha with rfl | ha
    · omega
    · obtain ⟨e', he', rfl⟩ := h.mem_nodes ha
      by_cases hee : e = e'
      · omega
      · have := hL.apart e he e' he' hee
        omega
  · rw [hoff.rd32 (by omega), h.count, MsgSeq.setSession]
  · rw [hoff.rd32 (by omega), h.sem]
  · by_cases hee : e' = e
    · rw [hee, rd32_wr32_self, u32_of_lt hid]
      exact (Function.update_self e id s.session).symm
    · have := hL.apart e he e' he' (Ne.symm hee)
      rw [hoff.rd32 (by omega), h.session e' he']
      exact (Function.update_of_ne hee id s.session).symm

namespace WaitOp

variable {st : MsgSeq × List Reply} {op : WaitOp}

lemma simulate (hL : Layout .waitObject lb V) (hk : k + 1 < 4294967296) {replies : List Reply}
    (h : Holds .waitObject lb V (k + 1) s m) (hok : WaitOp.Ok V (s, replies) op)
    (hfuel : s.entries.length ≤ fuel) :
    ∃ s' m' replies', seqStep (s, replies) op = some (s', replies') ∧
      waitStep lb fuel (m, replies) op = some (m', replies') ∧
      Holds .waitObject lb V (k + 1) s' m' ∧ s'.entries.length ≤ s.entries.length + 1 := by
  obtain ⟨m₁, hdown, h₁, -⟩ := h.down hL
  have hlb : lb ≠ 0 := hL.pos.ne'
  cases op with
  | add e =>
    have he : e ≠ 0 := (hL.entry_pos e hok.1).ne'
    have hadd := (h₁.linkTail hL hok.1 hok.2).up hL hk
    refine ⟨_, _, _, rfl, ?_, hadd, by simp [MsgSeq.add]⟩
    simp only [waitStep, addtoWaitComm, hlb, he, or_self, if_false, hdown]
    rw [Option.bind_eq_bind, Option.bind_some, linkWait_eq hL h₁ hok.1]
    rfl
  | get id =>
    simp only [waitStep, getWaitbySessionId, hlb, reduceCtorEq, or_self, if_false, hdown]
    rw [Option.bind_eq_bind, Option.bind_some, walkWaits_eq hL h₁ hfuel]
    cases hfind : s.find id with
    | none =>
      refine ⟨s, _, _, by rw [seqStep, hfind], rfl, h₁.up hL hk, Nat.le_succ _⟩
    | some e =>
      have he := mem_of_find hfind
      have hle : (s.remove e).entries.length ≤ s.entries.length := length_erase_le
      refine ⟨s.remove e, _, _, by rw [seqStep, hfind], ?_, (h₁.unlink hL he).up hL hk, by omega⟩
      have hsub : sub32 (e + 24) 24 = e := hL.sub_node (h.mem e he)
      simp only [Option.map_some, Option.bind_eq_bind, Option.bind_some, hsub]
      rfl
  | find id =>
    obtain ⟨m', hfind, h', -⟩ := findWait_eq hL hk h hfuel id
    exact ⟨s, m', _, rfl, by rw [waitStep, hfind]; rfl, h', Nat.le_succ _⟩
  | setSession e id =>
    exact ⟨_, _, _, rfl, rfl, h.setSession hL hok.1 hok.2, Nat.le_succ _⟩

/-- What the operations on the list and on the sequence have in common, with `n` of them to go. -/
structure Matches (lb : ℕ) (V : Set ℕ) (k fuel n : ℕ) (t : MsgSeq × List Reply)
    (st : Bytes × List Reply) : Prop where
  replies : st.2 = t.2
  holds : Holds .waitObject lb V (k + 1) t.1 st.1
  fuel : t.1.entries.length + n ≤ fuel

lemma run_matches {t : MsgSeq × List Reply} {st : Bytes × List Reply} {ops : List WaitOp}
    (hL : Layout .waitObject lb V) (hk : k + 1 < 4294967296)
    (h : Matches lb V k fuel ops.length t st) (hg : Guarded seqStep (WaitOp.Ok V) t ops) :
    ∃ t' st', run seqStep t ops = some t' ∧ run (waitStep lb fuel) st ops = some st' ∧
      Matches lb V k fuel 0 t' st' := by
  refine hg.exists_simulation (fun n t st op h hok => ?_) h
  obtain ⟨m, replies⟩ := st
  obtain ⟨s, replies'⟩ := t
  obtain ⟨rfl, hm, hn⟩ := h
  have hn : s.entries.length + (n + 1) ≤ fuel := hn
  have hfuel : s.entries.length ≤ fuel := by omega
  obtain ⟨s', m', replies', hs', hm', h', hlen⟩ := simulate hL hk hm hok hfuel
  have hn' : s'.entries.length + n ≤ fuel := by omega
  exact ⟨(s', replies'), (m', replies'), hs', hm', rfl, h', hn'⟩

end WaitOp

end CpuComm
