import H713.Machine.Crc
import H713.Machine.Fields

/-!
# Putting `usb start` into the boot command

`patch_env_usb.py` puts `usb start;` in front of the value of `bootcmd` in an image of the boot
environment. The result is the one meant only if the first occurrence of the entry's bytes is the
entry itself and there is only padding at the end.
-/

namespace PatchEnv

open Machine List

/-! ### The image -/

def envSize : ℕ := 0x20000

def envStart : ℕ := 5

def ascii (s : String) : List UInt8 := s.toList.map Char.toUInt8

/-- `zlib.crc32`. -/
def crc32 (bs : List UInt8) : BitVec 32 :=
  ~~~ bs.foldl (fun c b => (crcBit 0xEDB88320)^[8] (c ^^^ b.toBitVec.setWidth 32)) 0xFFFFFFFF

/-- `struct.unpack_from("<I", data, 0)`, which raises an error if there are not four bytes. -/
def unpack : List UInt8 → Option ℕ
  | b₀ :: b₁ :: b₂ :: b₃ :: _ =>
    some (b₀.toNat + 2 ^ 8 * b₁.toNat + 2 ^ 16 * b₂.toNat + 2 ^ 24 * b₃.toNat)
  | _ => none

/-- `struct.pack_into("<I", data, 0, n)`. -/
def packInto (n : ℕ) (data : List UInt8) : List UInt8 :=
  [UInt8.ofNat n, UInt8.ofNat (n / 2 ^ 8), UInt8.ofNat (n / 2 ^ 16), UInt8.ofNat (n / 2 ^ 24)] ++
    data.drop 4

/-- `data[start:ENV_SIZE]`. -/
def region (start : ℕ) (data : List UInt8) : List UInt8 := (data.take envSize).drop start

def calcCrc (data : List UInt8) : ℕ := (crc32 (region 4 data)).toNat

def entries (data : List UInt8) : List (List UInt8) := fields 0 (region envStart data)

def CrcValid (data : List UInt8) : Prop := unpack data = some (calcCrc data)

/-! ### The script -/

/-- How the script ends without an image. -/
inductive Stop where
  | exit (code : ℕ) (message : String)
  | raised

def bootcmdName : List UInt8 := ascii "bootcmd="

def usbStart : List UInt8 := ascii "usb start;"

-- A byte that is not ASCII is read as the replacement character, which is in none of the texts
-- that are looked for.
def isBootcmd (e : List UInt8) : Bool := bootcmdName.isPrefixOf e

def isAscii (e : List UInt8) : Bool := e.all fun b => b.toNat < 0x80

/-- The entry that is patched: the last one that sets `bootcmd`, unless it starts USB already. -/
def readBootcmd (data : List UInt8) : Except Stop (List UInt8) :=
  match unpack data with
  | none => .error .raised
  | some stored =>
    if stored ≠ calcCrc data then .error (.exit 1 "CRC MISMATCH - aborting!")
    else match ((entries data).filter isBootcmd).getLast? with
      | none => .error (.exit 1 "\nERROR: No bootcmd found!")
      | some e =>
        if ascii "usb start" <:+: e then
          .error (.exit 0 "\n'usb start' already present. Nothing to do.")
        -- `bootcmd.encode("ascii")`
        else if isAscii e then .ok e
        else .error .raised

def newBytes (e : List UInt8) : List UInt8 := bootcmdName ++ usbStart ++ e.drop bootcmdName.length

/-- The bytes at the end that are too many must be zero; bytes that are missing are added. -/
def fit (size : ℕ) (patched : List UInt8) : Except Stop (List UInt8) :=
  if size < patched.length then
    if (patched.drop size).all (· = 0) then .ok (patched.take size)
    else .error (.exit 1 "ERROR: Would overwrite non-zero data at end!")
  else .ok (patched ++ List.replicate (size - patched.length) 0)

def replaceBootcmd (data e : List UInt8) : Except Stop (List UInt8) :=
  match findFrom e data 0 with
  | none => .error (.exit 1 "ERROR: bootcmd bytes not found in binary!")
  | some idx => fit data.length (data.take idx ++ newBytes e ++ data.drop (idx + e.length))

/-- The entries that are shown before the image is written. Without a double zero `find` returns
`-1`, and the slice leaves out the last byte. -/
def shownEntries (image : List UInt8) : List (List UInt8) :=
  let env := region envStart image
  let upto := match findFrom [0, 0] env 0 with
    | none => env.dropLast
    | some i => env.take i
  (upto.splitOn 0).filter fun e => e ≠ [] ∧ bootcmdName <:+: e

def finish (patched : List UInt8) : Except Stop (List UInt8) :=
  let image := packInto (calcCrc patched) patched
  -- `e.decode()` raises an error on bytes that are not UTF-8
  if (shownEntries image).all fun e => e.toByteArray.validateUTF8 then .ok image
  else .error .raised

def patchEnvUsb (data : List UInt8) : Except Stop (List UInt8) := do
  let e ← readBootcmd data
  let patched ← replaceBootcmd data e
  finish patched

/-! ### What is written -/

variable {data e out patched d v w p u r t : List UInt8} {i k n : ℕ}

lemma unpack_packInto (hn : n < 2 ^ 32) (data : List UInt8) :
    unpack (packInto n data) = some n := by
  simp only [unpack, packInto, cons_append, UInt8.toNat_ofNat']
  congr 1
  omega

lemma drop_packInto (n : ℕ) (hk : 4 ≤ k) (data : List UInt8) :
    (packInto n data).drop k = data.drop k := by
  rw [packInto, drop_append, drop_eq_nil_of_le hk, nil_append, drop_drop]
  congr 1
  exact Nat.add_sub_cancel' hk

lemma region_packInto (n : ℕ) (hk : 4 ≤ k) (data : List UInt8) :
    region k (packInto n data) = region k data := by
  rw [region, region, drop_take, drop_take, drop_packInto n hk]

lemma crcValid_packInto (data : List UInt8) : CrcValid (packInto (calcCrc data) data) := by
  have hlt : calcCrc data < 2 ^ 32 := BitVec.isLt _
  rw [CrcValid, unpack_packInto hlt, calcCrc, calcCrc, region_packInto _ le_rfl]

lemma length_packInto (n : ℕ) (h : 4 ≤ data.length) : (packInto n data).length = data.length := by
  simp only [packInto, length_append, length_drop, length_cons, length_nil]
  omega

lemma readBootcmd_eq (hcrc : CrcValid data) (hone : (entries data).filter isBootcmd = [e])
    (hascii : isAscii e) (husb : ¬ ascii "usb start" <:+: e) :
    readBootcmd data = .ok e := by
  rw [CrcValid] at hcrc
  simp only [readBootcmd, hcrc, hone, ne_eq, not_true_eq_false, ↓reduceIte,
    List.getLast?_singleton, if_neg husb, if_pos hascii]

lemma exists_patched (he : readBootcmd data = .ok e) (h : patchEnvUsb data = .ok out) :
    ∃ patched, replaceBootcmd data e = .ok patched ∧
      out = packInto (calcCrc patched) patched := by
  cases hrep : replaceBootcmd data e with
  | error stop =>
    simp only [patchEnvUsb, he, bind, Except.bind, hrep] at h
    cases h
  | ok patched =>
    simp only [patchEnvUsb, he, bind, Except.bind, hrep, finish] at h
    refine ⟨patched, rfl, ?_⟩
    split at h
    · exact (Except.ok.inj h).symm
    · cases h

lemma isField_usbStart : IsField 0 usbStart := ⟨by decide, by decide⟩

lemma isField_bootcmdName : IsField 0 bootcmdName := ⟨by decide, by decide⟩

/-- What is put in moves zero bytes out at the end. -/
lemma fit_insert (hu : IsField 0 u) : fit (p ++ w).length (p ++ u ++ w) = .ok patched ↔
    ∃ v, w = v ++ List.replicate u.length 0 ∧ patched = p ++ u ++ v := by
  have hpos := length_pos_of_ne_nil hu.ne_nil
  have hdrop : (p ++ u ++ w).drop (p ++ w).length = (u ++ w).drop w.length := by
    rw [length_append, append_assoc, drop_append, drop_eq_nil_of_le (by simp)]
    simp
  have htake (v : List UInt8) : (p ++ u ++ (v ++ List.replicate u.length 0)).take
      (p ++ (v ++ List.replicate u.length 0)).length = p ++ u ++ v := by
    rw [← append_assoc (p ++ u), take_left' (by simp; omega)]
  rw [fit, if_pos (by simp; omega), hdrop]
  simp only [all_eq_true, decide_eq_true_eq]
  constructor
  · intro h
    split at h
    case isFalse => cases h
    case isTrue hzero =>
      have hle : u.length ≤ w.length := by
        by_contra hlt
        refine hu.notMem (hzero (u.getLast hu.ne_nil) ?_ ▸ getLast_mem hu.ne_nil)
        rw [drop_append_of_le_length (by omega)]
        exact mem_append_left _ (getLast_mem_drop hu.ne_nil (by omega))
      rw [drop_append, drop_eq_nil_of_le hle, nil_append] at hzero
      have hpad : w.drop (w.length - u.length) = List.replicate u.length 0 := by
        refine eq_replicate_iff.mpr ⟨?_, hzero⟩
        rw [length_drop]
        omega
      have hw := (take_append_drop (w.length - u.length) w).symm
      rw [hpad] at hw
      refine ⟨_, hw, ?_⟩
      rw [hw, htake] at h
      exact (Except.ok.inj h).symm
  · rintro ⟨v, rfl, rfl⟩
    rw [if_pos, htake]
    rw [length_append, ← append_assoc, drop_left' (by simp; omega)]
    exact fun b hb => eq_of_mem_replicate hb

lemma replaceBootcmd_eq (x t : List UInt8) (hd : findFrom (bootcmdName ++ x) data 0 = some d.length)
    (hdata : data = d ++ bootcmdName ++ (x ++ t)) :
    replaceBootcmd data (bootcmdName ++ x) =
      fit (d ++ bootcmdName ++ (x ++ t)).length (d ++ bootcmdName ++ usbStart ++ (x ++ t)) := by
  have happ : d ++ bootcmdName ++ (x ++ t) = d ++ (bootcmdName ++ x) ++ t := by simp
  have hrest : data.drop (d.length + (bootcmdName ++ x).length) = t := by
    rw [hdata, happ, drop_left' length_append]
  have hbefore : data.take d.length = d := by
    rw [hdata, append_assoc, take_left]
  simp only [replaceBootcmd, hd, hrest, hbefore, newBytes, drop_left]
  rw [hdata]
  simp only [append_assoc]

lemma exists_insert (he : isBootcmd e) (h : replaceBootcmd data e = .ok patched) :
    ∃ d v, findFrom e data 0 = some d.length ∧
      data = d ++ bootcmdName ++ v ++ List.replicate usbStart.length 0 ∧
      patched = d ++ bootcmdName ++ usbStart ++ v := by
  obtain ⟨x, rfl⟩ := isPrefixOf_iff_prefix.mp he
  cases hfind : findFrom (bootcmdName ++ x) data 0 with
  | none =>
    rw [replaceBootcmd, hfind] at h
    cases h
  | some i =>
    obtain ⟨-, ⟨t, ht⟩, -⟩ := findFrom_eq_some hfind
    have hlen : (data.take i).length = i := by
      rw [length_take, Nat.min_eq_left]
      exact (lt_length_of_prefix_drop (by simp [isField_bootcmdName.ne_nil]) ⟨t, ht⟩).le
    have hdata : data = data.take i ++ bootcmdName ++ (x ++ t) := by
      conv_lhs => rw [← take_append_drop i data, ← ht]
      simp
    rw [replaceBootcmd_eq x t (by rw [hfind, hlen]) hdata, fit_insert isField_usbStart] at h
    obtain ⟨v, hv, hpatched⟩ := h
    refine ⟨data.take i, v, by rw [hlen], ?_, hpatched⟩
    rw [append_assoc (data.take i ++ bootcmdName), ← hv]
    exact hdata

/-! ### Whether it is the image meant -/

def patchEntry (e : List UInt8) : List UInt8 := if isBootcmd e then newBytes e else e

/-- `out` is `data` with `usb start;` in front of the value of `bootcmd`. -/
structure Patched (data out : List UInt8) : Prop where
  length_eq : out.length = data.length
  crcValid : CrcValid out
  entries_eq : entries out = (entries data).map patchEntry
  tail_eq : out.drop envSize = data.drop envSize

def EntryStart (data : List UInt8) (i : ℕ) : Prop :=
  i = envStart ∨ envStart < i ∧ data[i - 1]? = some 0

/-- The bytes of the entry are found first where an entry starts, and only zeros reach the end. -/
structure Safe (data e : List UInt8) : Prop where
  first : ∃ i, findFrom e data 0 = some i ∧ EntryStart data i
  padding : ∀ b ∈ data.drop (envSize - usbStart.length), b = 0

lemma entryStart_iff : EntryStart (d ++ t) d.length ↔
    envStart ≤ d.length ∧ ∀ y ∈ (d.drop envStart).getLast?, y = 0 := by
  rw [EntryStart, List.getLast?_drop]
  rcases Nat.lt_trichotomy d.length envStart with h | h | h
  · refine ⟨fun h' => ?_, fun h' => ?_⟩ <;> omega
  · simp [h]
  · have hget : (d ++ t)[d.length - 1]? = d.getLast? := by
      rw [List.getElem?_append_left (by omega), List.getLast?_eq_getElem?]
    have hne : d ≠ [] := by
      rintro rfl
      exact absurd h (by decide)
    rw [hget, if_neg (by omega), List.getLast?_eq_getLast_of_ne_nil hne]
    simp [h, h.ne', h.le]

lemma region_append (h : p.length = envSize) (t : List UInt8) : region k (p ++ t) = p.drop k := by
  rw [region, take_left' h]

lemma getLast?_name (d : List UInt8) : (d ++ bootcmdName).getLast? = some 0x3d := by
  rw [List.getLast?_append_of_ne_nil _ isField_bootcmdName.ne_nil]
  rfl

lemma occurs_of_region {a : List UInt8} (hne : e ≠ [])
    (h : region envStart data = a ++ e ++ r) :
    e <+: data.drop (envStart + a.length) ∧ envStart + a.length + e.length ≤ envSize := by
  have hlen := congrArg List.length h
  have hpos := length_pos_of_ne_nil hne
  rw [region, length_drop, length_take, length_append, length_append] at hlen
  refine ⟨?_, by omega⟩
  have hdrop : (data.take envSize).drop (envStart + a.length) = e ++ r := by
    rw [← drop_drop]
    change (region envStart data).drop a.length = e ++ r
    rw [h, append_assoc, drop_left]
  rw [drop_take] at hdrop
  exact (hdrop ▸ prefix_append e r).trans ( take_prefix _ _)

/-- The occurrence that is found is the entry, or it ends in front of the entry's place. -/
lemma found_cases (hd : findFrom e data 0 = some d.length)
    (hreg : region envStart data = (d ++ bootcmdName).drop envStart ++ w) (he : isBootcmd e)
    (hmem : e ∈ entries data) :
    (∃ x r, e = bootcmdName ++ x ∧ w = x ++ r ∧ Closes 0 r ∧ envStart ≤ d.length ∧
      Opens 0 (d.drop envStart)) ∨
    ∃ b r, w = b ++ e ++ r ∧ Opens 0 ((d ++ bootcmdName).drop envStart ++ b) ∧ b ≠ [] ∧
      Closes 0 r := by
  obtain ⟨x, hx⟩ := isPrefixOf_iff_prefix.mp he
  obtain ⟨a, r, heq, ha, hfield, hr⟩ := exists_of_mem_fields hmem
  obtain ⟨-, hocc, hfirst⟩ := findFrom_eq_some hd
  have hname : bootcmdName.length = 8 := rfl
  have hstart : envStart = 5 := rfl
  have hat := (occurs_of_region hfield.ne_nil heq).1
  have hle : d.length ≤ envStart + a.length := by
    by_contra hlt
    exact hfirst _ (Nat.zero_le _) (by omega) hat
  rw [hreg] at heq
  rcases hle.eq_or_lt with heq' | hlt
  · left
    have hsplit : (d ++ bootcmdName).drop envStart = d.drop envStart ++ bootcmdName :=
      drop_append_of_le_length (by omega)
    rw [hsplit, ← hx, ← append_assoc, append_assoc (a ++ bootcmdName)] at heq
    obtain ⟨hpre, hw⟩ := append_inj heq (by simp; omega)
    exact ⟨x, r, hx.symm, hw, hr, by omega, append_cancel_right hpre ▸ ha⟩
  · right
    have hborder : Borderless bootcmdName := by decide
    have hpre : bootcmdName <+: e := ⟨x, hx⟩
    have hapart := hborder.apart (hpre.trans hocc) (hpre.trans hat) hlt
    obtain ⟨b, rfl⟩ : (d ++ bootcmdName).drop envStart <+: a := by
      refine prefix_of_prefix_length_le (prefix_append _ w) ?_ (by simp; omega)
      rw [heq, append_assoc]
      exact prefix_append _ _
    rw [append_assoc, append_assoc, append_cancel_left_eq,
      ← append_assoc] at heq
    refine ⟨b, r, heq, ha, ?_, hr⟩
    -- the name does not end with a zero byte
    rintro rfl
    have hlast := ha.last 0x3d (by
      rw [append_nil, List.getLast?_drop, if_neg (by simp; omega), getLast?_name]
      rfl)
    cases hlast

lemma map_patchEntry {l : List (List UInt8)} (h : l.filter isBootcmd = []) :
    l.map patchEntry = l := by
  refine (map_congr_left fun e he => ?_).trans (map_id l)
  rw [patchEntry, if_neg (filter_eq_nil_iff.mp h e he)]
  rfl

/-- Beside the one entry there is none that sets `bootcmd`. -/
lemma filter_around {l₁ l₂ : List (List UInt8)} (he : isBootcmd e)
    (h : (l₁ ++ e :: l₂).filter isBootcmd = [e]) :
    l₁.filter isBootcmd = [] ∧ l₂.filter isBootcmd = [] := by
  rw [filter_append, filter_cons_of_pos he] at h
  have hlen := congrArg List.length h
  simp only [length_append, length_cons, length_nil] at hlen
  exact ⟨eq_nil_of_length_eq_zero (by omega), eq_nil_of_length_eq_zero (by omega)⟩

lemma fields_insert_eq_iff (hd : findFrom e data 0 = some d.length) (hpre : d <+: data)
    (hreg : region envStart data = (d ++ bootcmdName).drop envStart ++ w)
    (hone : (entries data).filter isBootcmd = [e]) :
    fields 0 ((d ++ bootcmdName).drop envStart ++ usbStart ++ w) = (entries data).map patchEntry ↔
      EntryStart data d.length := by
  obtain ⟨hmem, he⟩ := mem_filter.mp (hone ▸ mem_singleton_self e)
  have hentry : EntryStart data d.length ↔
      envStart ≤ d.length ∧ ∀ y ∈ (d.drop envStart).getLast?, y = 0 := by
    obtain ⟨t, rfl⟩ := hpre
    exact entryStart_iff
  obtain ⟨-, -, -, -, hfield, -⟩ := exists_of_mem_fields hmem
  rcases found_cases hd hreg he hmem with ⟨x, r, rfl, rfl, hr, hstart, ha⟩ |
    ⟨b, r, rfl, ha, hb, hr⟩
  · refine iff_of_true ?_ (hentry.mpr ⟨hstart, ha.last⟩)
    rw [entries, hreg, drop_append_of_le_length hstart] at hone ⊢
    have hnew : IsField 0 (bootcmdName ++ usbStart ++ x) := by
      have hno := hfield.notMem
      refine ⟨by simp [isField_usbStart.ne_nil], ?_⟩
      simp only [mem_append, not_or] at hno ⊢
      exact ⟨⟨hno.1, isField_usbStart.notMem⟩, hno.2⟩
    have hold : d.drop envStart ++ bootcmdName ++ (x ++ r) =
        d.drop envStart ++ (bootcmdName ++ x) ++ r := by simp
    have hput : d.drop envStart ++ bootcmdName ++ usbStart ++ (x ++ r) =
        d.drop envStart ++ (bootcmdName ++ usbStart ++ x) ++ r := by simp
    rw [hold, fields_around ha hfield hr] at hone ⊢
    obtain ⟨hbefore, hbehind⟩ := filter_around he hone
    rw [hput, fields_around ha hnew hr, map_append, map_cons, map_patchEntry hbefore,
      map_patchEntry hbehind, patchEntry, if_pos he, newBytes, drop_left]
  · have hold : (d ++ bootcmdName).drop envStart ++ (b ++ e ++ r) =
        (d ++ bootcmdName).drop envStart ++ b ++ e ++ r := by simp
    have hput : (d ++ bootcmdName).drop envStart ++ usbStart ++ (b ++ e ++ r) =
        (d ++ bootcmdName).drop envStart ++ usbStart ++ b ++ e ++ r := by simp
    refine iff_of_false (fun h => ?_) fun h => ?_
    · -- the entry is still there as it was
      rw [hput, fields_around (ha.insert hb isField_usbStart) hfield hr] at h
      obtain ⟨y, hy, hye⟩ := mem_map.mp (h ▸ mem_append_right _ mem_cons_self)
      rw [patchEntry] at hye
      split at hye
      case isTrue hboot =>
        obtain rfl := mem_singleton.mp (hone ▸ mem_filter.mpr ⟨hy, hboot⟩)
        obtain ⟨x, rfl⟩ := isPrefixOf_iff_prefix.mp he
        rw [newBytes, drop_left, append_assoc, append_cancel_left_eq] at hye
        exact isField_usbStart.ne_nil (append_left_eq_self.mp hye)
      case isFalse hboot =>
        exact hboot (hye ▸ he)
    · -- there would be another entry that sets `bootcmd`
      obtain ⟨hstart, hlast⟩ := hentry.mp h
      rw [entries, hreg, hold, fields_around ha hfield hr] at hone
      rw [drop_append_of_le_length hstart] at ha hone
      have hopens : Opens 0 (d.drop envStart) :=
        ⟨(single_append.mp (single_append.mp ha.single).1).1, hlast⟩
      obtain ⟨f, hf, hpre⟩ := hopens.exists_mem_fields isField_bootcmdName b
      have hno := filter_eq_nil_iff.mp (filter_around he hone).1 f hf
      exact hno ( isPrefixOf_iff_prefix.mpr hpre)

lemma found_le (hd : findFrom e data 0 = some i) (hmem : e ∈ entries data) :
    i + e.length ≤ envSize := by
  obtain ⟨a, r, heq, -, hfield, -⟩ := exists_of_mem_fields hmem
  obtain ⟨-, -, hfirst⟩ := findFrom_eq_some hd
  obtain ⟨hat, hle⟩ := occurs_of_region hfield.ne_nil heq
  by_contra hlt
  exact hfirst _ (Nat.zero_le _) (by omega) hat

lemma entries_patched_eq_iff (hd : findFrom e data 0 = some d.length)
    (hone : (entries data).filter isBootcmd = [e])
    (hdata : data = d ++ bootcmdName ++ (w ++ List.replicate k 0) ++
      List.replicate usbStart.length 0)
    (hlen : (d ++ bootcmdName).length + w.length + usbStart.length = envSize) (n : ℕ) :
    entries (packInto n (d ++ bootcmdName ++ usbStart ++ (w ++ List.replicate k 0))) =
        (entries data).map patchEntry ↔
      EntryStart data d.length := by
  have hpre : d <+: data := by
    rw [hdata, append_assoc, append_assoc]
    exact prefix_append _ _
  have hstart : envStart ≤ (d ++ bootcmdName).length := by
    rw [length_append]
    exact Nat.le_add_left_of_le (by decide)
  have hread : region envStart data =
      (d ++ bootcmdName).drop envStart ++ (w ++ List.replicate usbStart.length 0) := by
    have hsplit : data = d ++ bootcmdName ++ (w ++ List.replicate usbStart.length 0) ++
        List.replicate k 0 := by
      rw [hdata]
      simp [Nat.add_comm]
    rw [hsplit, region_append (by simp at hlen ⊢; omega), drop_append_of_le_length hstart]
  have hwritten : region envStart (d ++ bootcmdName ++ usbStart ++ (w ++ List.replicate k 0)) =
      (d ++ bootcmdName).drop envStart ++ usbStart ++ w := by
    rw [← append_assoc, region_append (by simp at hlen ⊢; omega), append_assoc,
      drop_append_of_le_length hstart, append_assoc]
  rw [← fields_insert_eq_iff hd hpre hread hone, entries, region_packInto n (by decide), hwritten,
    ← append_assoc, fields_append_replicate]

/-- The written image always has the size and a valid checksum; it is the one meant exactly if the
image that was read is `Safe`. -/
theorem patchEnvUsb_patched_iff (hsize : envSize ≤ data.length) (hcrc : CrcValid data)
    (hone : (entries data).filter isBootcmd = [e]) (hascii : isAscii e)
    (husb : ¬ ascii "usb start" <:+: e) (hout : patchEnvUsb data = .ok out) :
    Patched data out ↔ Safe data e := by
  obtain ⟨hmem, he⟩ := mem_filter.mp (hone ▸ mem_singleton_self e)
  obtain ⟨patched, hrep, rfl⟩ := exists_patched (readBootcmd_eq hcrc hone hascii husb) hout
  obtain ⟨d, v, hd, hdata, rfl⟩ := exists_insert he hrep
  have hlen : data.length = (d ++ bootcmdName).length + v.length + usbStart.length := by
    rw [hdata, length_append, length_append, length_replicate]
  have hle : (d ++ bootcmdName).length ≤ envSize := by
    have hname := ( isPrefixOf_iff_prefix.mp he).length_le
    have hfound := found_le hd hmem
    rw [length_append]
    omega
  have hne : d ++ bootcmdName ≠ [] :=
    append_ne_nil_of_right_ne_nil d isField_bootcmdName.ne_nil
  have htail (n : ℕ) : (packInto n (d ++ bootcmdName ++ usbStart ++ v)).drop envSize =
      data.drop envSize ↔ ∀ b ∈ data.drop (envSize - usbStart.length), b = 0 := by
    rw [drop_packInto n (by decide), hdata]
    exact drop_insert_eq_iff hne (isField_bootcmdName.getLast?_ne d) isField_usbStart hle
      (hlen ▸ hsize)
  have hentries (hzero : ∀ b ∈ data.drop (envSize - usbStart.length), b = 0) (n : ℕ) :
      entries (packInto n (d ++ bootcmdName ++ usbStart ++ v)) = (entries data).map patchEntry ↔
        EntryStart data d.length := by
    rw [hdata] at hzero
    obtain ⟨w, k, rfl, hw⟩ :=
      (padding_iff hne (isField_bootcmdName.getLast?_ne d) (hlen ▸ hsize)).mp hzero
    exact entries_patched_eq_iff hd hone hdata hw n
  constructor
  · intro h
    have hzero := (htail _).mp h.tail_eq
    exact ⟨⟨d.length, hd, (hentries hzero _).mp h.entries_eq⟩, hzero⟩
  · rintro ⟨⟨i, hi, hstart⟩, hzero⟩
    obtain rfl : d.length = i := Option.some.inj (hd.symm.trans hi)
    refine ⟨?_, crcValid_packInto _, (hentries hzero _).mpr hstart, (htail _).mpr hzero⟩
    have hout : (d ++ bootcmdName ++ usbStart ++ v).length = data.length := by
      simp only [length_append] at hlen ⊢
      omega
    rw [length_packInto _ (hout ▸ (by decide : 4 ≤ envSize).trans hsize), hout]

/-! ### Two images -/

/-- The header `h` and the strings `s`, padded to the end of the environment. -/
def padded (h s : List UInt8) : List UInt8 :=
  h ++ s ++ List.replicate (envSize - envStart - s.length) 0

def image (s : List UInt8) : List UInt8 :=
  let raw := padded (List.replicate envStart 0) s
  packInto (calcCrc raw) raw

lemma findFrom_name (he : isBootcmd e) (hat : e <+: data.drop i) (hi : i < 8) :
    findFrom e data 0 = some i := by
  have hname := isPrefixOf_iff_prefix.mp he
  have hborder : Borderless bootcmdName := by decide
  cases hfind : findFrom e data 0 with
  | none => exact absurd hat (findFrom_eq_none (by rintro rfl; cases he) hfind (Nat.zero_le i))
  | some j =>
    obtain ⟨-, hj, hfirst⟩ := findFrom_eq_some hfind
    rcases Nat.lt_trichotomy j i with hlt | rfl | hgt
    · have hapart := hborder.apart (hname.trans hj) (hname.trans hat) hlt
      have hlen : bootcmdName.length = 8 := rfl
      omega
    · rfl
    · exact absurd hat (hfirst i (Nat.zero_le i) hgt)

section

variable {h s x : List UInt8} (hh : h.length = envStart)

include hh

lemma length_padded (hs : envStart + s.length ≤ envSize) : (padded h s).length = envSize := by
  simp [padded]
  omega

lemma region_padded (hs : envStart + s.length ≤ envSize) :
    region envStart (padded h s) = s ++ List.replicate (envSize - envStart - s.length) 0 := by
  rw [← append_nil (padded h s), region_append (length_padded hh hs), padded,
    append_assoc, drop_left' hh]

lemma entries_padded (hs : envStart + s.length ≤ envSize) :
    entries (padded h s) = fields 0 s := by
  rw [entries, region_padded hh hs, fields_append_replicate]

lemma finish_padded (hs : envStart + s.length + 2 ≤ envSize) (hsingle : Single 0 (s ++ [0]))
    (hutf : ∀ e ∈ s.splitOn 0, e.toByteArray.validateUTF8) :
    finish (padded h s) = .ok (packInto (calcCrc (padded h s)) (padded h s)) := by
  obtain ⟨k, hk⟩ := Nat.exists_eq_add_of_le hs
  have hzeros : envSize - envStart - s.length = k + 2 := by omega
  have hfind := findFrom_double hsingle (List.replicate k 0)
  rw [finish, if_pos]
  simp only [shownEntries, region_packInto _ (by decide : 4 ≤ envStart),
    region_padded hh (by omega : envStart + s.length ≤ envSize), hzeros, replicate_succ, hfind,
    take_left, all_eq_true]
  exact fun e he => hutf e (mem_of_mem_filter he)

lemma replaceBootcmd_padded (a x s : List UInt8) (ha : a.length < 3)
    (hs : envStart + (a ++ newBytes (bootcmdName ++ x) ++ s).length ≤ envSize) :
    findFrom (bootcmdName ++ x) (padded h (a ++ (bootcmdName ++ x) ++ s)) 0 =
        some (envStart + a.length) ∧
      replaceBootcmd (padded h (a ++ (bootcmdName ++ x) ++ s)) (bootcmdName ++ x) =
        .ok (padded h (a ++ newBytes (bootcmdName ++ x) ++ s)) := by
  have hnew : newBytes (bootcmdName ++ x) = bootcmdName ++ usbStart ++ x := by
    rw [newBytes, drop_left]
  have hdata : padded h (a ++ (bootcmdName ++ x) ++ s) = h ++ a ++ bootcmdName ++ (x ++ (s ++
      List.replicate (envSize - envStart - (a ++ (bootcmdName ++ x) ++ s).length) 0)) := by
    simp [padded]
  have hlen : (h ++ a).length = envStart + a.length := by
    rw [length_append, hh]
  have hfind : findFrom (bootcmdName ++ x) (padded h (a ++ (bootcmdName ++ x) ++ s)) 0 =
      some (h ++ a).length := by
    refine findFrom_name ( isPrefixOf_iff_prefix.mpr (prefix_append _ _)) ?_ ?_
    · rw [hdata, append_assoc, drop_left, ← append_assoc]
      exact prefix_append _ _
    · rw [hlen]
      exact Nat.add_lt_add_left ha 5
  rw [hnew] at hs ⊢
  refine ⟨hlen ▸ hfind, ?_⟩
  rw [replaceBootcmd_eq _ _ hfind hdata, fit_insert isField_usbStart]
  refine ⟨x ++ (s ++ List.replicate (envSize - envStart -
    (a ++ (bootcmdName ++ usbStart ++ x) ++ s).length) 0), ?_, by simp [padded]⟩
  simp only [append_assoc, replicate_append_replicate, append_cancel_left_eq,
    length_append] at hs ⊢
  congr 1
  omega

end

lemma image_eq (s : List UInt8) : ∃ h, h.length = envStart ∧ image s = padded h s :=
  ⟨packInto _ (List.replicate envStart 0), length_packInto _ (by decide), rfl⟩

lemma image_props {s : List UInt8} (hs : envStart + s.length ≤ envSize) :
    envSize ≤ (image s).length ∧ CrcValid (image s) ∧ entries (image s) = fields 0 s := by
  obtain ⟨h, hh, himage⟩ := image_eq s
  refine ⟨?_, crcValid_packInto _, ?_⟩
  · rw [himage, length_padded hh hs]
  · rw [himage, entries_padded hh hs]

lemma exists_written (a x s : List UInt8) (ha : a.length < 3)
    (hs : envStart + (a ++ newBytes (bootcmdName ++ x) ++ s).length + 2 ≤ envSize)
    (hread : readBootcmd (image (a ++ (bootcmdName ++ x) ++ s)) = .ok (bootcmdName ++ x))
    (hsingle : Single 0 (a ++ newBytes (bootcmdName ++ x) ++ s ++ [0]))
    (hutf : ∀ e ∈ (a ++ newBytes (bootcmdName ++ x) ++ s).splitOn 0, e.toByteArray.validateUTF8) :
    ∃ out, patchEnvUsb (image (a ++ (bootcmdName ++ x) ++ s)) = .ok out ∧
      entries out = fields 0 (a ++ newBytes (bootcmdName ++ x) ++ s) := by
  obtain ⟨h, hh, himage⟩ := image_eq (a ++ (bootcmdName ++ x) ++ s)
  obtain ⟨-, hreplace⟩ := replaceBootcmd_padded hh a x s ha (by omega)
  have hrun : patchEnvUsb (image (a ++ (bootcmdName ++ x) ++ s)) =
      finish (padded h (a ++ newBytes (bootcmdName ++ x) ++ s)) := by
    rw [himage] at hread ⊢
    simp only [patchEnvUsb, hread, bind, Except.bind, hreplace]
  refine ⟨_, hrun.trans (finish_padded hh hs hsingle hutf), ?_⟩
  rw [entries, region_packInto _ (by decide)]
  exact entries_padded hh (by omega)

theorem patchEnvUsb_patched_bootcmd : ∃ out, patchEnvUsb (image (ascii "bootcmd=x")) = .ok out ∧
    Patched (image (ascii "bootcmd=x")) out := by
  obtain ⟨hsize, hcrc, hentries⟩ := image_props (s := ascii "bootcmd=x") (by decide)
  have hone : (entries (image (ascii "bootcmd=x"))).filter isBootcmd = [ascii "bootcmd=x"] := by
    rw [hentries]
    decide
  obtain ⟨out, hout, -⟩ := exists_written [] [120] [] (by decide) (by decide)
    (readBootcmd_eq hcrc hone (by decide) (by decide)) (by unfold Single; decide) (by decide)
  obtain ⟨h, hh, himage⟩ := image_eq (ascii "bootcmd=x")
  refine ⟨out, hout,
    (patchEnvUsb_patched_iff hsize hcrc hone (by decide) (by decide) hout).mpr ⟨?_, ?_⟩⟩
  · obtain ⟨hfind, -⟩ := replaceBootcmd_padded hh [] [120] [] (by decide) (by decide)
    exact ⟨envStart, himage ▸ hfind, .inl rfl⟩
  · have hnil : (h ++ ascii "bootcmd=x").drop (envSize - usbStart.length) = [] := by
      refine drop_eq_nil_of_le ?_
      rw [length_append, hh]
      decide
    intro b hb
    rw [himage, padded, drop_append, hnil, nil_append] at hb
    exact eq_of_mem_replicate (mem_of_mem_drop hb)

def shadowed : List UInt8 := image (ascii "abootcmd=x\x00bootcmd=x")

/-- The bytes of the entry are found in that of another variable, and this one is changed. -/
theorem patchEnvUsb_other_variable :
    ∃ out, envSize ≤ shadowed.length ∧ CrcValid shadowed ∧
      (entries shadowed).filter isBootcmd = [ascii "bootcmd=x"] ∧
      isAscii (ascii "bootcmd=x") ∧ ¬ ascii "usb start" <:+: ascii "bootcmd=x" ∧
      patchEnvUsb shadowed = .ok out ∧
      entries shadowed = [ascii "abootcmd=x", ascii "bootcmd=x"] ∧
      entries out = [ascii "abootcmd=usb start;x", ascii "bootcmd=x"] ∧ ¬ Patched shadowed out := by
  obtain ⟨hsize, hcrc, hentries⟩ := image_props (s := ascii "abootcmd=x\x00bootcmd=x") (by decide)
  have hlist : entries shadowed = [ascii "abootcmd=x", ascii "bootcmd=x"] := by
    rw [shadowed, hentries]
    decide
  have hone : (entries shadowed).filter isBootcmd = [ascii "bootcmd=x"] := by
    rw [hlist]
    decide
  obtain ⟨out, hout, hwritten⟩ := exists_written [97] [120] (ascii "\x00bootcmd=x") (by decide)
    (by decide) (readBootcmd_eq hcrc hone (by decide) (by decide)) (by unfold Single; decide)
    (by decide)
  have hnew : entries out = [ascii "abootcmd=usb start;x", ascii "bootcmd=x"] := by
    rw [hwritten]
    decide
  refine ⟨out, hsize, hcrc, hone, by decide, by decide, hout, hlist, hnew, fun h => ?_⟩
  have heq := h.entries_eq
  rw [hnew, hlist] at heq
  exact absurd heq (by decide)

/-! ### A second run -/

lemma isBootcmd_patchEntry (e : List UInt8) : isBootcmd (patchEntry e) = isBootcmd e := by
  cases he : isBootcmd e with
  | true =>
    rw [patchEntry, if_pos he, isBootcmd, isPrefixOf_iff_prefix, newBytes, append_assoc]
    exact prefix_append _ _
  | false => rw [patchEntry, he, if_neg Bool.false_ne_true, he]

/-- The script leaves an image alone that it has patched. -/
theorem patchEnvUsb_stops (h : Patched data out) (hsome : (entries data).filter isBootcmd ≠ []) :
    patchEnvUsb out = .error (.exit 0 "\n'usb start' already present. Nothing to do.") := by
  obtain ⟨e, he⟩ := Option.ne_none_iff_exists'.mp (mt List.getLast?_eq_none_iff.mp hsome)
  have hboot : isBootcmd e := (mem_filter.mp (mem_of_getLast? he)).2
  have hlast : ((entries out).filter isBootcmd).getLast? = some (newBytes e) := by
    have hcomp : isBootcmd ∘ patchEntry = isBootcmd := funext isBootcmd_patchEntry
    rw [h.entries_eq, filter_map, hcomp, List.getLast?_map, he, Option.map_some, patchEntry,
      if_pos hboot]
  have husb : ascii "usb start" <:+: newBytes e :=
    ⟨bootcmdName, ascii ";" ++ e.drop bootcmdName.length, by simp [newBytes, usbStart, ascii]⟩
  have hcrc := h.crcValid
  rw [CrcValid] at hcrc
  simp only [patchEnvUsb, readBootcmd, hcrc, hlast, ne_eq, not_true_eq_false, if_false, husb,
    if_true]
  rfl

lemma length_image {s : List UInt8} (hs : envStart + s.length ≤ envSize) :
    (image s).length = envSize := by
  obtain ⟨h, hh, himage⟩ := image_eq s
  rw [himage, length_padded hh hs]

theorem patchEnvUsb_stops_bootcmd : patchEnvUsb (image (ascii "bootcmd=usb start;x")) =
    .error (.exit 0 "\n'usb start' already present. Nothing to do.") := by
  obtain ⟨-, -, hold⟩ := image_props (s := ascii "bootcmd=x") (by decide)
  obtain ⟨-, hcrc, hnew⟩ := image_props (s := ascii "bootcmd=usb start;x") (by decide)
  have hlen := length_image (s := ascii "bootcmd=x") (by decide)
  have hlen' := length_image (s := ascii "bootcmd=usb start;x") (by decide)
  have hpatched : Patched (image (ascii "bootcmd=x")) (image (ascii "bootcmd=usb start;x")) := by
    refine ⟨hlen'.trans hlen.symm, hcrc, ?_, ?_⟩
    · rw [hold, hnew]
      decide
    · rw [drop_eq_nil_of_le hlen'.le, drop_eq_nil_of_le hlen.le]
  refine patchEnvUsb_stops hpatched ?_
  rw [hold]
  decide

end PatchEnv
