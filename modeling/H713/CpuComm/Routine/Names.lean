import H713.CpuComm.Component.Basic
import H713.CpuComm.Routine.Shared
import H713.CpuComm.Smm.Slots

/-!
# Routines by name

`Comm_Name2ID` looks for a name in entries of 96 bytes from the component pool on. The routine table
ends where the component pool starts, so that what it finds does not depend on the routines that are
registered.
-/

namespace CpuComm

open Machine Machine.Bytes List Option

namespace ShMem

variable (E : ShMem)

def nameEntry (i : ℕ) : ℕ := E.componentPool + 8 + 96 * i

def nameMatches (m : Bytes) (name : ℕ → UInt8) (i : ℕ) : Bool :=
  m.rd32 (E.nameEntry i + 8) ≠ 0 ∧
    cstr (fun k => m.byte (E.nameEntry i + (12 + k))) 32 = cstr name 32

def scanNames (m : Bytes) (name : ℕ → UInt8) : Option ℕ :=
  (List.range 1224).find? (E.nameMatches m name)

def commName2ID (m : Bytes) (name : ℕ → UInt8) : ℤ :=
  match E.scanNames m name with
  | some i => i32 (m.rd32 (E.nameEntry i + 8))
  | none => -1

/-! ### Notifications -/

def hexDigits (w n : ℕ) : List UInt8 :=
  ((Nat.toDigits 16 n).map fun c => UInt8.ofNat c.toNat).leftpad w 48

def notifyName (name : List UInt8) (p : ℕ → ℤ) : List UInt8 :=
  (name ++ [95] ++ hexDigits 1 (ofInt32 (p 11)) ++ [95] ++
    hexDigits 3 (ofInt32 (p 12) % 4096)).take 63

def strBytes (s : List UInt8) : ℕ → UInt8 := fun k => s.getD k 0

def cpuCommNotify (m : Bytes) (name : List UInt8) (p : ℕ → ℤ) (tgid : ℕ) : Except ℤ Bytes :=
  if p 0 > 10 then .error (-22)
  else
    let compId := E.commName2ID m (strBytes (notifyName name p))
    let msg := ((⟨fun _ => 0⟩ : Bytes).wr32 40 (ofInt32 compId)).wr32 32 tgid
    let msg := (msg.wr16 8 (ofInt32 (p 0))).wr16 6 0
    let msg := Bytes.loop (fun i msg => msg.wr32 (44 + 4 * i) (ofInt32 (p (i + 1)))) (p 0).toNat msg
    -- `MSG_FLAG_NOTIFY`
    .ok (msg.wr16 6 (msg.rd16 6 ||| 1))

/-! ### What the names are for -/

def Named (m : Bytes) (name : ℕ → UInt8) (i : ℕ) : Prop :=
  i ≤ 1223 ∧ (E.tableAt m).compId i ≠ 0 ∧
    cstr (fun k => m.byte (E.rtEntry i + 12 + k)) 64 = cstr name 64

def AnswerOk (m : Bytes) (name : ℕ → UInt8) (r : ℤ) : Prop :=
  (∃ i, E.Named m name i ∧ r = i32 ((E.tableAt m).compId i)) ∨ (∀ i, ¬ E.Named m name i) ∧ r = -1

/-- What `Comm_Name2ID` takes for an entry with the name: the `i`-th 96 bytes behind the head of the
component pool. -/
structure EntryFor (m : Bytes) (name : ℕ → UInt8) (i : ℕ) : Prop where
  lt : i < 1224
  id : m.rd32 (E.shMemAddrBase + 147656 + 8 + 96 * i + 8) ≠ 0
  name : cstr (fun k => m.byte (E.shMemAddrBase + 147656 + 8 + 96 * i + (12 + k))) 32 =
    cstr name 32

/-- The answer `r` is the id of the first such entry, or `-1`. -/
def FirstEntry (m : Bytes) (name : ℕ → UInt8) (r : ℤ) : Prop :=
  (∃ i, E.EntryFor m name i ∧ (∀ j < i, ¬ E.EntryFor m name j) ∧
    r = i32 (m.rd32 (E.shMemAddrBase + 147656 + 8 + 96 * i + 8))) ∨
  (∀ i, ¬ E.EntryFor m name i) ∧ r = -1

def rtStart (m : Bytes) : Bytes :=
  ((E.initRoutineTable m).wr32 (E.shMemAddrBase + 144) 0xDEADBEEF).wr32
    (E.shMemAddrBase + 30136) 0xDEADBEEF

def rtStep (m : Bytes) : ByteTable.Op → Option Bytes
  | .add d => (E.addInRoutine m d).map Prod.fst
  | .remove d => (E.removeRoutine m d).map Prod.fst

variable {E} {m m' d : Bytes} {name : ℕ → UInt8}

/-! ### The scan -/

lemma nameMatches_iff {i : ℕ} (hi : i < 1224) : E.nameMatches m name i ↔ E.EntryFor m name i := by
  simp only [nameMatches, nameEntry, componentPool]
  exact ⟨fun h => ⟨hi, (of_decide_eq_true h).1, (of_decide_eq_true h).2⟩,
    fun h => decide_eq_true ⟨h.id, h.name⟩⟩

lemma commName2ID_first (E : ShMem) (m : Bytes) (name : ℕ → UInt8) :
    E.FirstEntry m name (E.commName2ID m name) := by
  unfold commName2ID
  cases hscan : E.scanNames m name with
  | none =>
    refine .inr ⟨fun i hi => ?_, rfl⟩
    have hnone := List.find?_eq_none.mp hscan i (mem_range.mpr hi.lt)
    exact hnone ((nameMatches_iff hi.lt).mpr hi)
  | some i =>
    obtain ⟨hmatch, hmem, hfirst⟩ := List.find?_range_eq_some.mp hscan
    have hlt := mem_range.mp hmem
    refine .inl ⟨i, (nameMatches_iff hlt).mp hmatch, fun j hj hentry => ?_, rfl⟩
    have hno := hfirst j hj
    rw [(nameMatches_iff (hj.trans hlt)).mpr hentry] at hno
    cases hno

lemma FirstEntry.unique {r r' : ℤ} (h : E.FirstEntry m name r) (h' : E.FirstEntry m name r') :
    r = r' := by
  obtain ⟨i, hi, hfirst, rfl⟩ | ⟨hnone, rfl⟩ := h <;>
    obtain ⟨j, hj, hfirst', rfl⟩ | ⟨hnone', rfl⟩ := h'
  · rcases Nat.lt_trichotomy i j with hij | rfl | hij
    · exact absurd hi (hfirst' i hij)
    · rfl
    · exact absurd hj (hfirst j hij)
  · exact absurd hi (hnone' i)
  · exact absurd hj (hnone j)
  · rfl

lemma commName2ID_eq_iff {r : ℤ} : E.commName2ID m name = r ↔ E.FirstEntry m name r :=
  ⟨fun h => h ▸ E.commName2ID_first m name, (E.commName2ID_first m name).unique⟩

lemma i32_ofInt32_commName2ID (E : ShMem) (m : Bytes) (name : ℕ → UInt8) :
    i32 (ofInt32 (E.commName2ID m name)) = E.commName2ID m name := by
  obtain ⟨i, -, -, h⟩ | ⟨-, h⟩ := E.commName2ID_first m name
  · have hlt := m.rd32_lt (E.shMemAddrBase + 147656 + 8 + 96 * i + 8)
    rw [h]
    simp only [i32, ofInt32, u32]
    omega
  · rw [h]
    decide

/-! ### The scan is outside the table -/

lemma commName2ID_of_keeps (h : ∀ x, E.shMemAddrBase + 147656 ≤ x → m'.byte x = m.byte x)
    (name : ℕ → UInt8) : E.commName2ID m' name = E.commName2ID m name := by
  have hbyte : ∀ i k, m'.byte (E.nameEntry i + k) = m.byte (E.nameEntry i + k) := by
    intro i k
    refine h _ ?_
    rw [nameEntry, componentPool]
    omega
  have hword : ∀ i, m'.rd32 (E.nameEntry i + 8) = m.rd32 (E.nameEntry i + 8) := by
    intro i
    have hkeeps : Keeps (E.nameEntry i + 8) (E.nameEntry i + 12) m m' := by
      intro x hx _
      obtain ⟨k, rfl⟩ := Nat.exists_eq_add_of_le (Nat.le_of_add_right_le hx)
      exact hbyte i k
    exact hkeeps.rd32 le_rfl (by omega)
  have hmatch : E.nameMatches m' name = E.nameMatches m name := by
    funext i
    simp only [nameMatches, hword, hbyte]
  have hscan : E.scanNames m' name = E.scanNames m name := by rw [scanNames, hmatch, scanNames]
  unfold commName2ID
  rw [hscan]
  cases E.scanNames m name with
  | none => rfl
  | some i => exact congrArg i32 (hword i)

lemma InTable.commName2ID (h : E.InTable m m') (name : ℕ → UInt8) :
    E.commName2ID m' name = E.commName2ID m name :=
  commName2ID_of_keeps (fun x hx => h x (.inr hx)) name

lemma commName2ID_rtStart (m : Bytes) (name : ℕ → UInt8) :
    E.commName2ID (E.rtStart m) name = E.commName2ID m name := by
  refine commName2ID_of_keeps (fun x hx => ?_) name
  rw [rtStart, sameOff_wr32 _ _ _ x (by omega), sameOff_wr32 _ _ _ x (by omega),
    E.sameOff_initRoutineTable m x (by omega)]

lemma inTable_rtStep {op : ByteTable.Op} (h : E.rtStep m op = some m') : E.InTable m m' := by
  cases op with
  | add d =>
    obtain ⟨⟨m₁, r⟩, hadd, rfl⟩ := map_eq_some_iff.mp h
    exact inTable_addInRoutine hadd
  | remove d =>
    obtain ⟨⟨m₁, r⟩, hremove, rfl⟩ := map_eq_some_iff.mp h
    exact inTable_removeRoutine hremove

lemma commName2ID_run {ops : List ByteTable.Op} (h : run E.rtStep m ops = some m')
    (name : ℕ → UInt8) : E.commName2ID m' name = E.commName2ID m name := by
  induction ops generalizing m with
  | nil =>
    cases h
    rfl
  | cons op ops ih =>
    obtain ⟨m₁, hstep, hrest⟩ := run_cons_eq_some.mp h
    exact (ih hrest).trans ((inTable_rtStep hstep).commName2ID name)

lemma rd32_cpuCommNotify {s : List UInt8} {p : ℕ → ℤ} {tgid : ℕ} {msg : Bytes}
    (h : E.cpuCommNotify m s p tgid = .ok msg) :
    msg.rd32 40 = ofInt32 (E.commName2ID m (strBytes (notifyName s p))) := by
  rw [cpuCommNotify] at h
  split_ifs at h
  obtain rfl := Except.ok.inj h
  have hloop (b : Bytes) : Keeps 40 44 b
      (Bytes.loop (fun i msg => msg.wr32 (44 + 4 * i) (ofInt32 (p (i + 1)))) (p 0).toNat b) :=
    keeps_loop (fun i b _ => (sameOff_wr32 b _ _).keeps (by omega)) b
  rw [(sameOff_wr16 _ _ _).rd32 (by omega), (hloop _).rd32 le_rfl le_rfl,
    (sameOff_wr16 _ _ _).rd32 (by omega), (sameOff_wr16 _ _ _).rd32 (by omega),
    (sameOff_wr32 _ _ _).rd32 (by omega), rd32_wr32_self]
  simp only [u32, ofInt32]
  omega

/-! ### A routine that is not found -/

lemma rtStart_words (m : Bytes) {i : ℕ} (hi : i ≤ 1223) :
    (E.rtStart m).rd32 (E.rtEntry i + 8) = 0 ∧
      (E.rtStart m).rd32 (E.rtEntry i + 92) = 4294967295 := by
  have hloop : (E.initRoutineTable m).rd32 (E.rtEntry i + 8) = 0 ∧
      (E.initRoutineTable m).rd32 (E.rtEntry i + 92) = 4294967295 := by
    rw [initRoutineTable, rtEntry]
    refine loop_establishes (n := 1224) (i := i)
      (P := fun m => m.rd32 (E.shMemAddrBase + 30152 + 96 * i + 8) = 0 ∧
        m.rd32 (E.shMemAddrBase + 30152 + 96 * i + 92) = 4294967295)
      (by omega) (fun m => ⟨?_, ?_⟩) (fun j m hj _ hm => ?_) _
    · rw [(sameOff_wr32 _ _ _).rd32 (by omega), rd32_wr32_self]
      rfl
    · rw [rd32_wr32_self]
      rfl
    · rwa [(sameOff_wr32 _ _ _).rd32 (by omega), (sameOff_wr32 _ _ _).rd32 (by omega),
        (sameOff_wr32 _ _ _).rd32 (by omega), (sameOff_wr32 _ _ _).rd32 (by omega)]
  have hmagic {b : ℕ} (hb : E.shMemAddrBase + 30140 ≤ b) :
      (E.rtStart m).rd32 b = (E.initRoutineTable m).rd32 b := by
    rw [rtStart, (sameOff_wr32 _ _ _).rd32 (by omega), (sameOff_wr32 _ _ _).rd32 (by omega)]
  rw [hmagic (by rw [rtEntry]; omega), hmagic (by rw [rtEntry]; omega)]
  exact hloop

lemma rtStart_free (m : Bytes) {i : ℕ} (hi : i ≤ 1223) :
    (E.tableAt (E.rtStart m)).compId i = 0 ∧ (E.tableAt (E.rtStart m)).next i = -1 := by
  obtain ⟨hid, hnext⟩ := rtStart_words (E := E) m hi
  rw [compId_tableAt, next_tableAt, hid, hnext]
  exact ⟨rfl, by decide⟩

lemma rtStart_count (m : Bytes) : (E.tableAt (E.rtStart m)).count = 0 := by
  have hloop : (E.initRoutineTable m).rd32 (E.shMemAddrBase + 30148) = 0 := by
    have hkeeps (b : Bytes) : Keeps (E.shMemAddrBase + 30148) (E.shMemAddrBase + 30152) b
        (Bytes.loop (fun i m => (m.wr32 (E.shMemAddrBase + 30152 + 96 * i + 8) 0).wr32
          (E.shMemAddrBase + 30152 + 96 * i + 92) sessionIdInvalid) 1224 b) :=
      keeps_loop (fun i b _ => ((sameOff_wr32 b _ _).keeps (by omega)).trans
        ((sameOff_wr32 _ _ _).keeps (by omega))) b
    rw [initRoutineTable, (hkeeps _).rd32 le_rfl (by omega), rd32_wr32_self]
    rfl
  have hcount : (E.rtStart m).rd32 (E.shMemAddrBase + 30148) = 0 := by
    rw [rtStart, (sameOff_wr32 _ _ _).rd32 (by omega), (sameOff_wr32 _ _ _).rd32 (by omega), hloop]
  rw [tableAt, hcount]
  rfl

lemma rtStart_magic (m : Bytes) : E.Magic (E.rtStart m) := by
  refine ⟨?_, rd32_wr32_self _ _ _⟩
  rw [rtStart, (sameOff_wr32 _ _ _).rd32 (by omega)]
  exact rd32_wr32_self _ _ _

lemma addInRoutine_of_free (hmagic : E.Magic m) (hcount : (E.tableAt m).count ≤ rtMaxIndex)
    (hid : d.rd32 8 ≠ 0) (hfree : (E.tableAt m).compId (Table.hashIdx (d.rd32 8)) = 0)
    (hnext : (E.tableAt m).next (Table.hashIdx (d.rd32 8)) = -1) :
    E.addInRoutine m d = some (E.rtBumpVersion (E.rtPlace (E.rtBumpVersion m)
      (Table.hashIdx (d.rd32 8)) d), 0) := by
  have hfind : (E.tableAt m).findRoutineEx (d.rd32 8) = some none := by
    have hne : (E.tableAt m).compId (Table.hashIdx (d.rd32 8)) ≠ d.rd32 8 := by
      rw [hfree]
      exact hid.symm
    have hneg : (E.tableAt m).next (Table.hashIdx (d.rd32 8)) < 0 := by
      rw [hnext]
      decide
    rw [Table.findRoutineEx, if_neg (not_lt.mpr hcount), Table.walkFuel, Table.walk, if_neg hne,
      if_pos hneg]
    rfl
  have hbump : (E.tableAt (E.rtBumpVersion m)).compId (Table.hashIdx (d.rd32 8)) = 0 ∧
      (E.tableAt (E.rtBumpVersion m)).next (Table.hashIdx (d.rd32 8)) = -1 := by
    rw [tableAt_rtBumpVersion]
    exact ⟨hfree, hnext⟩
  rw [addInRoutine, if_neg (not_not.mpr hmagic), if_neg (not_lt.mpr hcount), hfind,
    bind_some]
  rw [rtAddNew, if_pos hbump]

lemma byte_rtPlace (m d : Bytes) (i : ℕ) {k : ℕ} (hk : k < 92) :
    (E.rtBumpVersion (E.rtPlace m i d)).byte (E.rtEntry i + k) = d.byte k := by
  have hhead : E.shMemAddrBase + 30152 ≤ E.rtEntry i + k := by
    rw [rtEntry]
    omega
  have hmem : E.rtEntry i ≤ E.rtEntry i + k ∧ E.rtEntry i + k < E.rtEntry i + 96 := by omega
  rw [rtBumpVersion, sameOff_wr32 _ _ _ _ (by omega), rtPlace, rtIncCount,
    sameOff_wr32 _ _ _ _ (by omega), rtSetNext, sameOff_wr32 _ _ _ _ (by omega)]
  simp only [copy, if_pos hmem, Nat.add_sub_cancel_left, Nat.zero_add]

def descNamed (c : ℕ) (name : ℕ → UInt8) : Bytes :=
  (⟨fun x => name (x - 12)⟩ : Bytes).wr32 8 c

lemma byte_descNamed (c : ℕ) (name : ℕ → UInt8) (k : ℕ) :
    (descNamed c name).byte (12 + k) = name k := by
  rw [descNamed, sameOff_wr32 _ _ _ _ (by omega)]
  exact congrArg name (Nat.add_sub_cancel_left 12 k)

lemma exists_add_first (E : ShMem) (m : Bytes) (name : ℕ → UInt8) {c : ℕ} (hc : c ≠ 0)
    (hc' : c < 1024) :
    ∃ m', run E.rtStep (E.rtStart m) [.add (descNamed c name)] = some m' ∧
      E.Named m' name c ∧ (E.tableAt m').compId c = c ∧
      ∀ i, E.Named m' name i → i = c := by
  have hid : (descNamed c name).rd32 8 = c := by
    rw [descNamed, rd32_wr32_self, u32_of_lt (by omega)]
  have hhash : Table.hashIdx ((descNamed c name).rd32 8) = c := by
    rw [hid, Table.hashIdx, rtPrimarySlots, Nat.mod_eq_of_lt hc']
  have hfree := fun i (hi : i ≤ 1223) => rtStart_free (E := E) m hi
  have hcount := rtStart_count (E := E) m
  have hadd := addInRoutine_of_free (E := E) (rtStart_magic m) (by rw [hcount]; decide)
    (by rwa [hid]) (by rw [hhash]; exact (hfree c (by omega)).1)
    (by rw [hhash]; exact (hfree c (by omega)).2)
  rw [hhash] at hadd
  set m' := E.rtBumpVersion (E.rtPlace (E.rtBumpVersion (E.rtStart m)) c (descNamed c name))
    with hm'
  have hbump : (E.tableAt (E.rtBumpVersion (E.rtStart m))).count < 2147483647 := by
    rw [tableAt_rtBumpVersion, Table.bumpVersion, hcount]
    decide
  have htable : ∀ i ≤ 1223, (E.tableAt m').compId i = if i = c then c else 0 := by
    intro i hi
    rw [hm', tableAt_rtBumpVersion, tableAt_rtPlace _ _ hbump, tableAt_rtBumpVersion]
    simp only [Table.compId, Table.desc, Table.bumpVersion, Table.place, Table.setEntry]
    split_ifs with hic
    · rw [hic, Function.update_self]
      exact hid
    · rw [Function.update_of_ne hic]
      exact (hfree i hi).1
  have hname : ∀ k < 64, m'.byte (E.rtEntry c + 12 + k) = name k := by
    intro k hk
    rw [Nat.add_assoc, hm', byte_rtPlace _ _ _ (by omega), byte_descNamed]
  have hcompId : (E.tableAt m').compId c = c := (htable c (by omega)).trans (if_pos rfl)
  refine ⟨m', ?_, ⟨by omega, by rwa [hcompId], ?_⟩, hcompId, fun i hi => ?_⟩
  · rw [run_cons, rtStep, hadd]
    rfl
  · refine congrArg (List.takeWhile _) (map_congr_left fun k hk => ?_)
    exact hname k (mem_range.mp hk)
  · by_contra hic
    exact hi.2.1 ((htable i hi.1).trans (if_neg hic))

/-- After any calls the answer is read from the first entry with the name behind the table, as it
was before them. So it is right exactly if that entry is, and for every name there is a table with a
wrong answer. -/
theorem commName2ID_ok_iff (E : ShMem) (m₀ : Bytes) :
    (∀ ops m, run E.rtStep (E.rtStart m₀) ops = some m →
      (∀ name r, E.commName2ID m name = r ↔ E.FirstEntry m₀ name r) ∧
      (∀ name, E.AnswerOk m name (E.commName2ID m name) ↔
        ∃ r, E.FirstEntry m₀ name r ∧ E.AnswerOk m name r) ∧
      ∀ s p tgid msg, E.cpuCommNotify m s p tgid = .ok msg →
        E.FirstEntry m₀ (strBytes (notifyName s p)) (i32 (msg.rd32 40))) ∧
    ∀ name, ∃ ops m, run E.rtStep (E.rtStart m₀) ops = some m ∧
      ¬ E.AnswerOk m name (E.commName2ID m name) := by
  have hanswer : ∀ ops m, run E.rtStep (E.rtStart m₀) ops = some m → ∀ name,
      E.commName2ID m name = E.commName2ID m₀ name :=
    fun ops m hrun name => (commName2ID_run hrun name).trans (commName2ID_rtStart m₀ name)
  refine ⟨fun ops m hrun => ⟨fun name r => ?_, fun name => ?_, fun s p tgid msg hmsg => ?_⟩,
    fun name => ?_⟩
  · rw [hanswer ops m hrun, commName2ID_eq_iff]
  · have hfirst := E.commName2ID_first m₀ name
    rw [hanswer ops m hrun]
    exact ⟨fun h => ⟨_, hfirst, h⟩, fun ⟨r, hr, h⟩ => hfirst.unique hr ▸ h⟩
  · rw [rd32_cpuCommNotify hmsg, hanswer ops m hrun, i32_ofInt32_commName2ID]
    exact E.commName2ID_first m₀ _
  · -- one of two component ids is not the answer
    obtain ⟨c, hc, hc', hne⟩ : ∃ c : ℕ, c ≠ 0 ∧ c < 1024 ∧ E.commName2ID m₀ name ≠ (c : ℤ) := by
      by_cases h : E.commName2ID m₀ name = 1
      · exact ⟨2, by decide, by decide, by rw [h]; decide⟩
      · exact ⟨1, by decide, by decide, h⟩
    obtain ⟨m, hrun, hnamed, hid, hunique⟩ := exists_add_first E m₀ name hc hc'
    refine ⟨_, m, hrun, ?_⟩
    rw [hanswer _ m hrun]
    rintro (⟨i, hi, hr⟩ | ⟨hnone, -⟩)
    · rw [hunique i hi, hid, i32_of_lt (by omega)] at hr
      exact hne hr
    · exact hnone c hnamed

def poolNamed : Bytes :=
  ((⟨fun _ => 0⟩ : Bytes).wr32 (boardShMem.shMemAddrBase + 147672) 7).wr8
    (boardShMem.shMemAddrBase + 147676) 65

/-- The bytes of the component pool happen to have the name `A` and the id 7. The routine of that
name and id is found. -/
theorem boardName_ok_iff :
    ∃ m, run boardShMem.rtStep (boardShMem.rtStart poolNamed)
        [.add (descNamed 7 (strBytes [65]))] = some m ∧ boardShMem.Named m (strBytes [65]) 7 ∧
      boardShMem.FirstEntry poolNamed (strBytes [65]) 7 ∧
      boardShMem.AnswerOk m (strBytes [65]) (boardShMem.commName2ID m (strBytes [65])) := by
  obtain ⟨m, hrun, hnamed, hid, -⟩ :=
    exists_add_first boardShMem poolNamed (strBytes [65]) (c := 7) (by decide) (by decide)
  have hfirst : boardShMem.FirstEntry poolNamed (strBytes [65]) 7 :=
    .inl ⟨0, ⟨by decide, by decide +kernel, by decide +kernel⟩, nofun, by decide +kernel⟩
  refine ⟨m, hrun, hnamed, hfirst, ?_⟩
  refine (((commName2ID_ok_iff boardShMem poolNamed).1 _ m hrun).2.1 (strBytes [65])).mpr ?_
  exact ⟨7, hfirst, .inl ⟨7, hnamed, by rw [hid]; rfl⟩⟩

/-- The board has one routine, with the name `A` and component id 7. -/
theorem boardName_not_found :
    ∃ m, run boardShMem.rtStep (boardShMem.rtStart ⟨fun _ => 0⟩)
        [.add (descNamed 7 (strBytes [65]))] = some m ∧
      boardShMem.Named m (strBytes [65]) 7 ∧ (boardShMem.tableAt m).compId 7 = 7 ∧
      boardShMem.commName2ID m (strBytes [65]) = -1 := by
  obtain ⟨m, hrun, hnamed, hid, -⟩ :=
    exists_add_first boardShMem ⟨fun _ => 0⟩ (strBytes [65]) (c := 7) (by decide) (by decide)
  refine ⟨m, hrun, hnamed, hid, ?_⟩
  rw [commName2ID_run hrun, commName2ID_rtStart]
  decide +kernel

end ShMem

end CpuComm
