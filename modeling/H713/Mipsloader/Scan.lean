import H713.Machine.Search
import Mathlib.Data.List.GetD
import Mathlib.Data.List.TakeWhile

/-!
# The scan for watch patterns

`elog_scan_chunk` looks for the watch patterns in the bytes it is given, with the end of the bytes
of the call before in front of them. That end is at most what the call before was given.
-/

namespace Mipsloader

open Machine

/-! ### The lines that are printed -/

def bytes (s : String) : List UInt8 := s.toList.map fun c => UInt8.ofNat c.toNat

def elogScanWindow : ℕ := 64

def elogWatchPatterns : List (List UInt8) :=
  [bytes "Init Done", bytes "sunxi_cpu_comm_init return", bytes "End cpu_comm ini",
    bytes "msgbox hardware version", bytes "msgbox fifo garbage",
    bytes "CPUFlag[CPU_COMM_MASTER]", bytes "THal_Vp_Wce", bytes "magic code incorrect",
    bytes "ShStartAddr=0x0, size=0x0", bytes "ShStartAddr=0x4e", bytes "CPU is not master",
    bytes "InitFlag1", bytes "setCPUAppReady"]

def hashLoop : Bool → UInt32 → List UInt8 → UInt32
  | _, h, []              => h
  | inBracket, h, c :: s  =>
    if c = 0x5b then hashLoop true h s
    else if c = 0x5d then hashLoop false h s
    else if inBracket then hashLoop inBracket h s
    else if 0x30 ≤ c ∧ c ≤ 0x39 then hashLoop inBracket h s
    else hashLoop inBracket (((h <<< 5) + h) ^^^ c.toUInt32) s

def elogLineHash (s : List UInt8) : UInt32 :=
  let h := hashLoop false 5381 s
  if h ≠ 0 then h else 1

def elogDedupSize : ℕ := 32

/-- `elog_dedup_ring` and `elog_dedup_idx`. -/
structure Dedup where
  ring : Vector UInt32 elogDedupSize
  idx : ℕ
  idx_lt : idx < elogDedupSize

def elogDedupSeen (d : Dedup) (h : UInt32) : Bool × Dedup :=
  if h ∈ d.ring.toList then (true, d)
  else (false, ⟨d.ring.set d.idx h d.idx_lt, (d.idx + 1) % elogDedupSize,
    Nat.mod_lt _ (Nat.zero_lt_succ _)⟩)

/-- The values of `esc_state`. -/
inductive EscState where
  | normal
  | sawEsc
  | inCsi

def stripLoop : EscState → ℕ → List UInt8 → List UInt8
  | _, _, []                      => []
  | _, 0, _ :: _                  => []
  | .normal, room + 1, c :: line  =>
    if c = 0x1b then stripLoop .sawEsc (room + 1) line
    else if 0x20 ≤ c ∧ c < 0x7f then c :: stripLoop .normal room line
    else stripLoop .normal (room + 1) line
  | .sawEsc, room + 1, c :: line  =>
    stripLoop (if c = 0x5b then .inCsi else .normal) (room + 1) line
  | .inCsi, room + 1, c :: line   =>
    stripLoop (if (0x41 ≤ c ∧ c ≤ 0x5a) ∨ (0x61 ≤ c ∧ c ≤ 0x7a) then .normal else .inCsi)
      (room + 1) line

variable (buf : List UInt8)

def cleanLine (p : ℕ) : List UInt8 :=
  let ls := p - ((buf.take p).reverse.takeWhile (· ≠ 0x0a)).length
  let le := p + ((buf.drop p).takeWhile fun c => c ≠ 0x0a ∧ c ≠ 0).length
  stripLoop .normal 159 ((buf.drop ls).take (min (le - ls) 159))

/-! ### The scan -/

/-- The scan buffer of a call of `elog_scan_chunk` and the place in the stream it begins at. -/
structure Call where
  start : ℕ
  buf : List UInt8

/-- The first `elog_scan_tail_len` bytes of `elog_scan_tail`, the ring of lines shown lately and the
lines printed; `seen` and `calls` count the bytes and the calls so far. -/
structure Scanner where
  tail : List UInt8
  dedup : Dedup
  events : List (List UInt8)
  seen : ℕ
  calls : List Call

def Scanner.init : Scanner where
  tail := []
  dedup := ⟨Vector.replicate elogDedupSize 0, 0, Nat.zero_lt_succ _⟩
  events := []
  seen := 0
  calls := []

open List

def watchMatches : List (List UInt8 × ℕ) :=
  let str := buf.takeWhile (· ≠ 0)
  elogWatchPatterns.flatMap fun pat => (searchLoop pat str str.length 0).map (pat, ·)

variable (st : Scanner)

def Scanner.report (p : ℕ) : Scanner :=
  let clean := cleanLine buf p
  if clean = [] then st
  else
    let r := elogDedupSeen st.dedup (elogLineHash clean)
    { st with dedup := r.2, events := if r.1 then st.events else st.events ++ [clean] }

variable (data : List UInt8)

def savedTail : List UInt8 :=
  if data.length < elogScanWindow then data else data.drop (data.length - elogScanWindow)

def elogScanChunk : Scanner :=
  let room := elogScanWindow + 1024
  let copyLen := if room < st.tail.length + data.length then room - st.tail.length else data.length
  let buf := st.tail ++ data.take copyLen
  let st' := (watchMatches buf).foldl (fun st m => st.report buf m.2) st
  { st' with
    tail := savedTail data
    seen := st.seen + data.length
    calls := st.calls ++ [⟨st.seen - st.tail.length, buf⟩] }

def windows : ℕ → List UInt8 → List (List UInt8)
  | 0, _           => []
  | fuel + 1, data =>
    if data = [] then [] else data.take 1024 :: windows fuel (data.drop 1024)

def elogLiveScan : Scanner :=
  (windows data.length data).foldl elogScanChunk st

section

variable {data : List UInt8} {fuel : ℕ}

lemma flatten_windows (hfuel : data.length ≤ fuel) : (windows fuel data).flatten = data := by
  induction fuel generalizing data with
  | zero => rw [length_eq_zero_iff.mp (Nat.le_zero.mp hfuel), windows, flatten_nil]
  | succ fuel ih =>
    rw [windows]
    split_ifs with h
    · rw [h, flatten_nil]
    · have hpos := length_pos_of_ne_nil h
      rw [flatten_cons, ih (by rw [length_drop]; omega), take_append_drop]

lemma length_le_of_mem_windows {c : List UInt8} (h : c ∈ windows fuel data) : c.length ≤ 1024 := by
  induction fuel generalizing data with
  | zero => cases h
  | succ fuel ih =>
    rw [windows] at h
    split_ifs at h
    · cases h
    · rcases mem_cons.mp h with rfl | hrest
      · exact length_take_le _ _
      · exact ih hrest

end

variable (datas : List (List UInt8))

def chunks : List (List UInt8) :=
  datas.flatMap fun data => windows data.length data

lemma flatten_chunks : (chunks datas).flatten = datas.flatten := by
  induction datas with
  | nil => rfl
  | cons data datas ih =>
    rw [chunks, flatMap_cons, flatten_append, flatten_windows le_rfl, flatten_cons]
    exact congrArg _ ih

lemma foldl_elogLiveScan (datas : List (List UInt8)) :
    datas.foldl elogLiveScan st = (chunks datas).foldl elogScanChunk st := by
  rw [chunks, foldl_flatMap]
  rfl

lemma length_le_of_mem_chunks {datas : List (List UInt8)} {c : List UInt8} (h : c ∈ chunks datas) :
    c.length ≤ 1024 := by
  obtain ⟨data, _, hc⟩ := mem_flatMap.mp h
  exact length_le_of_mem_windows hc

/-! ### The buffers -/

section

variable {cs : List (List UInt8)} {k m s : ℕ}

lemma length_savedTail (data : List UInt8) :
    (savedTail data).length = min data.length elogScanWindow := by
  rw [savedTail]
  split_ifs
  · omega
  · rw [length_drop]
    omega

lemma savedTail_suffix (data : List UInt8) : savedTail data <:+ data := by
  rw [savedTail]
  split_ifs
  · exact suffix_rfl
  · exact drop_suffix _ _

def chunkStart (cs : List (List UInt8)) (k : ℕ) : ℕ := (cs.take k).flatten.length

def tailAt (cs : List (List UInt8)) : ℕ → List UInt8
  | 0     => []
  | k + 1 => savedTail (cs.getD k [])

def callAt (cs : List (List UInt8)) (k : ℕ) : Call :=
  ⟨chunkStart cs k - (tailAt cs k).length, tailAt cs k ++ cs.getD k []⟩

lemma flatten_take_succ (cs : List (List UInt8)) (k : ℕ) :
    (cs.take (k + 1)).flatten = (cs.take k).flatten ++ cs.getD k [] := by
  rw [take_add_one, flatten_append, getD_eq_getElem?_getD]
  cases cs[k]? with
  | none => rfl
  | some c => rw [Option.toList_some, flatten_singleton, Option.getD_some]

lemma chunkStart_succ (cs : List (List UInt8)) (k : ℕ) :
    chunkStart cs (k + 1) = chunkStart cs k + (cs.getD k []).length := by
  rw [chunkStart, flatten_take_succ, length_append, chunkStart]

lemma tailAt_suffix (cs : List (List UInt8)) (k : ℕ) : tailAt cs k <:+ (cs.take k).flatten := by
  cases k with
  | zero => exact suffix_rfl
  | succ k =>
    rw [flatten_take_succ]
    exact (savedTail_suffix _).trans (suffix_append _ _)

lemma callAt_end (cs : List (List UInt8)) (k : ℕ) :
    (callAt cs k).start + (callAt cs k).buf.length = chunkStart cs (k + 1) := by
  have hle : (tailAt cs k).length ≤ chunkStart cs k := (tailAt_suffix cs k).length_le
  simp only [callAt]
  rw [length_append, chunkStart_succ]
  omega

lemma exists_flatten_eq (cs : List (List UInt8)) (k : ℕ) :
    ∃ a b, a.length = (callAt cs k).start ∧ cs.flatten = a ++ (callAt cs k).buf ++ b := by
  obtain ⟨a, ha⟩ := tailAt_suffix cs k
  refine ⟨a, (cs.drop (k + 1)).flatten, ?_, ?_⟩
  · rw [callAt, chunkStart, ← ha, length_append, Nat.add_sub_cancel]
  · rw [callAt, ← append_assoc, ha, ← flatten_take_succ, ← flatten_append,
      take_append_drop]

/-! ### All calls -/

/-- What the scanner has after the pieces `cs`. -/
structure Scanned (cs : List (List UInt8)) (st : Scanner) : Prop where
  tail : st.tail = tailAt cs cs.length
  seen : st.seen = cs.flatten.length
  calls : st.calls = (List.range cs.length).map (callAt cs)

lemma callAt_append_of_lt (c : List UInt8) (hk : k < cs.length) :
    callAt (cs ++ [c]) k = callAt cs k := by
  have hpiece : ∀ j < cs.length, (cs ++ [c]).getD j [] = cs.getD j [] :=
    fun j hj => getD_append _ _ _ _ hj
  have htail : tailAt (cs ++ [c]) k = tailAt cs k := by
    cases k with
    | zero => rfl
    | succ k => rw [tailAt, hpiece k (by omega), tailAt]
  rw [callAt, callAt, chunkStart, take_append_of_le_length hk.le, htail, hpiece k hk,
    chunkStart]

lemma callAt_append_length (cs : List (List UInt8)) (c : List UInt8) :
    callAt (cs ++ [c]) cs.length =
      ⟨cs.flatten.length - (tailAt cs cs.length).length, tailAt cs cs.length ++ c⟩ := by
  have hpiece : (cs ++ [c]).getD cs.length [] = c := by
    rw [getD_append_right _ _ _ _ le_rfl, Nat.sub_self]
    rfl
  have htail : tailAt (cs ++ [c]) cs.length = tailAt cs cs.length := by
    cases hk : cs.length with
    | zero => rfl
    | succ k => rw [tailAt, getD_append _ _ _ _ (by omega), tailAt]
  rw [callAt, chunkStart, take_left, htail, hpiece]

lemma tailAt_length_le (cs : List (List UInt8)) (k : ℕ) :
    (tailAt cs k).length ≤ elogScanWindow := by
  cases k with
  | zero => exact Nat.zero_le _
  | succ k =>
    rw [tailAt, length_savedTail]
    exact Nat.min_le_right _ _

lemma Scanned.step {st : Scanner} (h : Scanned cs st) {c : List UInt8} (hc : c.length ≤ 1024) :
    Scanned (cs ++ [c]) (elogScanChunk st c) where
  tail := by
    rw [length_append, length_singleton, tailAt, getD_append_right _ _ _ _ le_rfl,
      Nat.sub_self]
    rfl
  seen := by
    rw [flatten_append, flatten_singleton, length_append, ← h.seen]
    rfl
  calls := by
    have hfits : ¬ elogScanWindow + 1024 < st.tail.length + c.length := by
      have htail := tailAt_length_le cs cs.length
      rw [← h.tail] at htail
      omega
    have hold : (List.range cs.length).map (callAt (cs ++ [c])) =
        (List.range cs.length).map (callAt cs) :=
      map_congr_left fun k hk => callAt_append_of_lt c (mem_range.mp hk)
    dsimp only [elogScanChunk]
    rw [if_neg hfits, take_length, length_append, length_singleton,
      range_succ, map_append, map_singleton, hold, callAt_append_length, h.calls,
      h.tail, h.seen]

lemma scanned_foldl (hcs : ∀ c ∈ cs, c.length ≤ 1024) :
    Scanned cs (cs.foldl elogScanChunk .init) := by
  induction cs using List.reverseRecOn with
  | nil => exact ⟨rfl, rfl, rfl⟩
  | append_singleton cs c ih =>
    rw [foldl_append]
    refine (ih fun d hd => hcs d (mem_append_left _ hd)).step (hcs c ?_)
    exact mem_append_right _ (mem_singleton_self c)

/-! ### What a buffer contains -/

def Call.Covers (call : Call) (s m : ℕ) : Prop :=
  call.start ≤ s ∧ s + m ≤ call.start + call.buf.length

instance (call : Call) (s m : ℕ) : Decidable (call.Covers s m) :=
  inferInstanceAs (Decidable (call.start ≤ s ∧ s + m ≤ call.start + call.buf.length))

def WithinTwo (cs : List (List UInt8)) (s m : ℕ) : Prop :=
  ∃ k < cs.length, chunkStart cs (k - 1) ≤ s ∧ s + m ≤ chunkStart cs (k + 1)

lemma covers_callAt_iff : (callAt cs k).Covers s m ↔
    chunkStart cs k ≤ s + (tailAt cs k).length ∧ s + m ≤ chunkStart cs (k + 1) := by
  rw [Call.Covers, callAt_end]
  exact and_congr_left' Nat.sub_le_iff_le_add

lemma exists_covers_iff (hm : m ≤ elogScanWindow) :
    (∃ k < cs.length, (callAt cs k).Covers s m) ↔ WithinTwo cs s m := by
  constructor
  · rintro ⟨k, hk, hcovers⟩
    rw [covers_callAt_iff] at hcovers
    refine ⟨k, hk, ?_, hcovers.2⟩
    cases k with
    | zero => exact Nat.zero_le _
    | succ k =>
      -- the tail is not longer than the piece before
      rw [tailAt, length_savedTail, chunkStart_succ] at hcovers
      rw [Nat.add_sub_cancel]
      omega
  · rintro ⟨k, hk, hstart, hend⟩
    cases k with
    | zero =>
      refine ⟨0, hk, covers_callAt_iff.mpr ⟨?_, hend⟩⟩
      exact Nat.zero_le _
    | succ k =>
      rw [Nat.add_sub_cancel] at hstart
      by_cases hin : s + m ≤ chunkStart cs (k + 1)
      · -- it ends in the first of the two pieces
        exact ⟨k, by omega, covers_callAt_iff.mpr ⟨by omega, hin⟩⟩
      · refine ⟨k + 1, hk, covers_callAt_iff.mpr ⟨?_, hend⟩⟩
        rw [tailAt, length_savedTail]
        rw [chunkStart_succ] at hin ⊢
        omega

end

/-! ### Matches -/

section

variable {pat buf : List UInt8} {q : ℕ}

lemma watchPattern_spec (h : pat ∈ elogWatchPatterns) :
    pat ≠ [] ∧ pat.length ≤ elogScanWindow ∧ Borderless pat := by
  have hall : ∀ pat ∈ elogWatchPatterns,
      pat ≠ [] ∧ pat.length ≤ elogScanWindow ∧ Borderless pat := by decide
  exact hall pat h

lemma mem_watchMatches (hpat : pat ∈ elogWatchPatterns) (hnul : 0 ∉ buf) :
    (pat, q) ∈ watchMatches buf ↔ pat <+: buf.drop q := by
  obtain ⟨hne, _, hb⟩ := watchPattern_spec hpat
  have hstr : buf.takeWhile (· ≠ 0) = buf := by
    rw [takeWhile_eq_self_iff]
    intro c hc
    exact decide_eq_true (ne_of_mem_of_not_mem hc hnul)
  have hloop := mem_searchLoop hne hb (Nat.zero_add buf.length).ge (j := q)
  rw [watchMatches, hstr, mem_flatMap]
  constructor
  · rintro ⟨pat', _, hmem⟩
    obtain ⟨j, hj, heq⟩ := mem_map.mp hmem
    cases heq
    exact (hloop.mp hj).2
  · intro hocc
    exact ⟨pat, hpat, mem_map_of_mem (hloop.mpr ⟨Nat.zero_le _, hocc⟩)⟩

lemma matched_iff_covers {cs : List (List UInt8)} {k s : ℕ} (hnul : 0 ∉ cs.flatten)
    (hpat : pat ∈ elogWatchPatterns) (hocc : pat <+: cs.flatten.drop s) :
    (callAt cs k).start ≤ s ∧ (pat, s - (callAt cs k).start) ∈ watchMatches (callAt cs k).buf ↔
      (callAt cs k).Covers s pat.length := by
  obtain ⟨a, b, hlen, hflat⟩ := exists_flatten_eq cs k
  have hbuf : 0 ∉ (callAt cs k).buf := by
    intro hmem
    rw [hflat] at hnul
    exact hnul (mem_append_left _ (mem_append_right _ hmem))
  rw [mem_watchMatches hpat hbuf, Call.Covers]
  refine and_congr_right fun hstart => ?_
  constructor
  · intro hpre
    have hlt := lt_length_of_prefix_drop (watchPattern_spec hpat).1 hpre
    have hle := hpre.length_le
    rw [length_drop] at hle
    omega
  · intro hend
    rw [hflat] at hocc
    rw [← hlen] at hstart hend ⊢
    exact (prefix_drop_append_iff hstart hend).mp hocc

end

lemma exists_call_iff (P : Call → Prop) :
    (∃ call ∈ (datas.foldl elogLiveScan .init).calls, P call) ↔
      ∃ k < (chunks datas).length, P (callAt (chunks datas) k) := by
  have hcs : ∀ c ∈ chunks datas, c.length ≤ 1024 := fun c hc => length_le_of_mem_chunks hc
  rw [foldl_elogLiveScan, (scanned_foldl hcs).calls]
  simp only [mem_map, mem_range, exists_exists_and_eq_and]

/-- In a stream without zeros, an occurrence of a watch pattern is matched in the scan buffer of
some call exactly if it lies in at most two successive pieces. -/
theorem occurrence_matched_iff (datas : List (List UInt8)) (hnul : 0 ∉ datas.flatten)
    {pat : List UInt8} (hpat : pat ∈ elogWatchPatterns) {s : ℕ}
    (hocc : pat <+: datas.flatten.drop s) :
    ((∃ call ∈ (datas.foldl elogLiveScan .init).calls, call.Covers s pat.length) ↔
      WithinTwo (chunks datas) s pat.length) ∧
    ((∃ call ∈ (datas.foldl elogLiveScan .init).calls, call.start ≤ s ∧
      (pat, s - call.start) ∈ watchMatches call.buf) ↔
      WithinTwo (chunks datas) s pat.length) := by
  rw [← flatten_chunks] at hnul hocc
  rw [exists_call_iff, exists_call_iff, ← exists_covers_iff (watchPattern_spec hpat).2.1]
  simp only [matched_iff_covers hnul hpat hocc, and_self]

/-- A match over the border of two pieces. -/
theorem occurrence_matched_iff_two :
    WithinTwo (chunks [bytes "In", bytes "it Done"]) 0 9 ∧
    ∃ call ∈ ([bytes "In", bytes "it Done"].foldl elogLiveScan .init).calls, call.start ≤ 0 ∧
      (bytes "Init Done", 0 - call.start) ∈ watchMatches call.buf :=
  have h : WithinTwo (chunks [bytes "In", bytes "it Done"]) 0 9 := ⟨1, by decide⟩
  ⟨h, (occurrence_matched_iff [bytes "In", bytes "it Done"] (by decide) (by decide)
    (by decide)).2.mpr h⟩

/-- Three short pieces: no buffer has the pattern and nothing is printed. -/
theorem occurrence_missed :
    bytes "Init Done" ∈ elogWatchPatterns ∧
    [bytes "In", bytes "it", bytes " Done"].flatten = bytes "Init Done" ∧
    (∀ call ∈ ([bytes "In", bytes "it", bytes " Done"].foldl elogLiveScan .init).calls,
      ¬ call.Covers 0 9) ∧
    ([bytes "In", bytes "it", bytes " Done"].foldl elogLiveScan .init).events = [] ∧
    ([bytes "Init Done"].foldl elogLiveScan .init).events = [bytes "Init Done"] := by
  decide

end Mipsloader
