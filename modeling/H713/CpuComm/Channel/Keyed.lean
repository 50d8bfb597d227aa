import H713.CpuComm.Channel.Basic
import Mathlib.Data.Finset.Card
import Mathlib.Tactic.IntervalCases

/-!
# Channels under their keys

Both installers look for a channel under the low nibble of an id and the caller's pid, but
`Comm_AddNewChannel` stores the whole id. While the other bits do not show, the pool stays *keyed*:
every occupied slot can be told by its id.
-/

namespace CpuComm

open Machine List Nat

namespace ChannelPool

def ensureChannel (p : ChannelPool) (compId cpu : ℕ) : ChannelPool × ℤ :=
  match p.commQueryChannel (queryKey compId cpu) with
  | some _ => (p, 0)
  | none   => p.commAddNewChannel compId cpu

def slotsOf (p : ChannelPool) (id : ℕ) : Finset ℕ :=
  (Finset.range channelSlotCount).filter fun i => p.slot i 0 = id

def HasChannel (p : ChannelPool) (compId cpu : ℕ) : Prop :=
  ∃ i, p.commQueryChannel (queryKey compId cpu) = some i ∧ p.slot i 0 = queryKey compId cpu ∧
    p.slot i 3 = queryKey compId cpu ∧ p.slot i 2 = cpu ∧ p.slotsOf (channelId compId cpu) = {i}

def Fits (compId cpu : ℕ) : Prop :=
  cpu < 2 ^ 28 ∧ (∀ k < 12, compId.testBit (k + 4) → cpu.testBit k) ∧ (compId % 16 ≠ 0 ∨ cpu ≠ 0)

instance (compId cpu : ℕ) : Decidable (Fits compId cpu) := by
  unfold Fits
  infer_instance

/-! ### Ids and keys -/

section Keys

variable {c c' u u' : ℕ}

lemma queryKey_eq (hu : u < 2 ^ 28) : queryKey c u = 16 * u + c % 16 := by
  rw [queryKey, u32_of_lt (by omega), Nat.or_comm]
  exact (two_pow_add_eq_or_of_lt (i := 4) (mod_lt c (by decide)) u).symm

lemma Fits.queryKey_ne_zero (h : Fits c u) : queryKey c u ≠ 0 := by
  obtain ⟨hu, -, hne⟩ := h
  rw [queryKey_eq hu]
  omega

lemma Fits.channelId_eq (h : Fits c u) : channelId c u = queryKey c u := by
  obtain ⟨hu, hbits, -⟩ := h
  rw [channelId, queryKey, u32_of_lt (by omega)]
  apply eq_of_testBit_eq
  intro k
  have hshift : (16 * u).testBit k = (decide (4 ≤ k) && u.testBit (k - 4)) :=
    testBit_two_pow_mul (i := 4)
  simp only [testBit_or, (testBit_mod_two_pow c 16 k : (c % 65536).testBit k = _),
    (testBit_mod_two_pow c 4 k : (c % 16).testBit k = _), hshift]
  by_cases hk : 4 ≤ k ∧ k < 16
  · -- a bit of the id above the nibble is covered by the pid
    have hcover := hbits (k - 4) (by omega)
    rw [Nat.sub_add_cancel hk.1] at hcover
    by_cases hc : c.testBit k
    · simp [hcover hc, hk.1]
    · simp [hc]
  · have hlow : decide (k < 16) = decide (k < 4) := decide_eq_decide.mpr (by omega)
    rw [hlow]

end Keys

/-! ### The pool while every channel carries its own key -/

/-- An occupied slot has its id twice and the pid that its id encodes, and no id occurs twice. -/
structure Keyed (p : ChannelPool) : Prop where
  id_eq : ∀ i < 32, p.slot i 0 ≠ 0 → p.slot i 3 = p.slot i 0
  cpu_eq : ∀ i < 32, p.slot i 0 ≠ 0 → p.slot i 2 = p.slot i 0 / 16
  inj : ∀ i < 32, ∀ j < 32, p.slot i 0 ≠ 0 → p.slot i 0 = p.slot j 0 → i = j

variable {p p' : ChannelPool} {c u i k id : ℕ} {r : ℤ}

lemma mem_slotsOf : i ∈ p.slotsOf id ↔ i < 32 ∧ p.slot i 0 = id := by
  simp [slotsOf, channelSlotCount]

lemma Keyed.init (base : ℕ) : (channelPoolInit base).Keyed := by
  have hfree (i : ℕ) : (channelPoolInit base).slot i 0 = 0 := by
    rw [slot_init base i (by decide), if_neg (by omega)]
  exact ⟨fun i _ h => absurd (hfree i) h, fun i _ h => absurd (hfree i) h,
    fun i _ _ _ h => absurd (hfree i) h⟩

lemma exists_query (h : (p.slotsOf k).Nonempty) :
    ∃ i, p.commQueryChannel k = some i ∧ i < 32 ∧ p.slot i 0 = k := by
  obtain ⟨j, hj⟩ := h
  rw [mem_slotsOf] at hj
  cases hq : p.commQueryChannel k with
  | none => exact absurd hj.2 (of_query_eq_none hq hj.1)
  | some i => exact ⟨i, rfl, of_query_eq_some hq⟩

lemma query_eq_none (h : p.slotsOf k = ∅) : p.commQueryChannel k = none := by
  cases hq : p.commQueryChannel k with
  | none => rfl
  | some i =>
    have hi : i ∈ p.slotsOf k := mem_slotsOf.mpr (of_query_eq_some hq)
    simp [h] at hi

lemma Keyed.slotsOf_eq (h : p.Keyed) (hi : i < 32) (hne : p.slot i 0 ≠ 0) :
    p.slotsOf (p.slot i 0) = {i} := by
  ext j
  rw [mem_slotsOf, Finset.mem_singleton]
  constructor
  · rintro ⟨hj, hji⟩
    exact (h.inj i hi j hj hne hji.symm).symm
  · rintro rfl
    exact ⟨hi, rfl⟩

lemma Keyed.hasChannel (h : p.Keyed) (hf : Fits c u) (hk : (p.slotsOf (queryKey c u)).Nonempty) :
    p.HasChannel c u := by
  obtain ⟨i, hq, hi, hid⟩ := exists_query hk
  have hne : p.slot i 0 ≠ 0 := hid ▸ hf.queryKey_ne_zero
  have hcpu : p.slot i 2 = u := by
    rw [h.cpu_eq i hi hne, hid, queryKey_eq hf.1]
    omega
  refine ⟨i, hq, hid, (h.id_eq i hi hne).trans hid, hcpu, ?_⟩
  rw [hf.channelId_eq, ← hid]
  exact h.slotsOf_eq hi hne

/-! ### Adding and removing -/

lemma ensureChannel_cases (h : p.ensureChannel c u = (p', r)) :
    (r = 0 ∧ p' = p ∧ (p.slotsOf (queryKey c u)).Nonempty) ∨
    (r = 0 ∧ p.slotsOf (queryKey c u) = ∅ ∧
      ∃ i < 32, p.slot i 0 = 0 ∧ p' = p.fill i (p.newSlot i c u) 8) ∨
    (r ≠ 0 ∧ p' = p ∧ p.slotsOf 0 = ∅) := by
  have hempty {k : ℕ} (hq : p.commQueryChannel k = none) : p.slotsOf k = ∅ :=
    Finset.eq_empty_of_forall_notMem fun i hi =>
      of_query_eq_none hq (mem_slotsOf.mp hi).1 (mem_slotsOf.mp hi).2
  unfold ensureChannel at h
  cases hq : p.commQueryChannel (queryKey c u) with
  | some i =>
    rw [hq] at h
    obtain ⟨rfl, rfl⟩ := Prod.mk.inj h
    exact .inl ⟨rfl, rfl, i, mem_slotsOf.mpr (of_query_eq_some hq)⟩
  | none =>
    simp only [hq, commAddNewChannel] at h
    split at h
    next i hi =>
      obtain ⟨hlt, hfree⟩ := find_slot_eq_some hi
      obtain ⟨rfl, rfl⟩ := Prod.mk.inj h
      exact .inr (.inl ⟨rfl, hempty hq, i, hlt, hfree, rfl⟩)
    next hnone =>
      obtain ⟨rfl, rfl⟩ := Prod.mk.inj h
      exact .inr (.inr ⟨by decide, rfl, hempty hnone⟩)

lemma slot_newSlot (p : ChannelPool) (i c u : ℕ) {j k : ℕ} (hk : k < 4) :
    (p.fill i (p.newSlot i c u) 8).slot j k
      = if j = i then [channelId c u, 0, u, channelId c u].getD k 0 else p.slot j k := by
  by_cases hj : j = i
  · subst hj
    rw [slot_fill_self p j _ (by decide) (by omega), if_pos rfl]
    interval_cases k <;> rfl
  · rw [slot_fill_of_ne p _ (by decide) (by omega) hj, if_neg hj]

lemma slotsOf_newSlot (hi : i < 32) (hfree : p.slot i 0 = 0) (hid : id ≠ 0) :
    (p.fill i (p.newSlot i c u) 8).slotsOf id
      = if channelId c u = id then insert i (p.slotsOf id) else p.slotsOf id := by
  ext j
  by_cases hj : j = i
  · subst hj
    split_ifs with hc
    · simp [mem_slotsOf, slot_newSlot, hi, hc]
    · simp [mem_slotsOf, slot_newSlot, hc, hfree, hid.symm]
  · split_ifs <;> simp [mem_slotsOf, slot_newSlot, hj]

lemma Keyed.newSlot (h : p.Keyed) (hf : Fits c u) (hnew : p.slotsOf (queryKey c u) = ∅) :
    (p.fill i (p.newSlot i c u) 8).Keyed := by
  have hfresh (j : ℕ) (hj : j < 32) : p.slot j 0 ≠ queryKey c u := fun heq =>
    Finset.notMem_empty j (hnew ▸ mem_slotsOf.mpr ⟨hj, heq⟩)
  have hid := hf.channelId_eq
  have hcpu : queryKey c u / 16 = u := by
    rw [queryKey_eq hf.1]
    omega
  constructor
  · intro j hj
    by_cases hji : j = i
    · simp [slot_newSlot, hji]
    · simpa [slot_newSlot, hji] using h.id_eq j hj
  · intro j hj
    by_cases hji : j = i
    · simp [slot_newSlot, hji, hid, hcpu]
    · simpa [slot_newSlot, hji] using h.cpu_eq j hj
  · intro j hj k hk
    by_cases hji : j = i <;> by_cases hki : k = i
    · simp [hji, hki]
    · simpa [slot_newSlot, hji, hki, hid] using fun _ heq => absurd heq.symm (hfresh k hk)
    · simpa [slot_newSlot, hji, hki, hid] using fun _ heq => absurd heq (hfresh j hj)
    · simpa [slot_newSlot, hji, hki] using h.inj j hj k hk

/-- `ensureChannel` keeps the pool keyed and its channels, and if it succeeds the key of the pair is
there. -/
theorem Keyed.ensureChannel (h : p.Keyed) (hf : Fits c u) (he : p.ensureChannel c u = (p', r)) :
    p'.Keyed ∧ (r = 0 → (p'.slotsOf (queryKey c u)).Nonempty) ∧
      ∀ id, id ≠ 0 → (p.slotsOf id).Nonempty → (p'.slotsOf id).Nonempty := by
  obtain ⟨-, rfl, hk⟩ | ⟨-, hnew, i, hi, hfree, rfl⟩ | ⟨hr, rfl, -⟩ := ensureChannel_cases he
  · exact ⟨h, fun _ => hk, fun _ _ hid => hid⟩
  · refine ⟨h.newSlot hf hnew, fun _ => ?_, fun id hid hne => ?_⟩
    · rw [slotsOf_newSlot hi hfree hf.queryKey_ne_zero, if_pos hf.channelId_eq]
      exact Finset.insert_nonempty i _
    · rw [slotsOf_newSlot hi hfree hid]
      split_ifs
      · exact Finset.insert_nonempty i _
      · exact hne
  · exact ⟨h, fun h0 => absurd h0 hr, fun _ _ hid => hid⟩

lemma Keyed.clear (h : p.Keyed) : (p.fill i (fun _ => 0) 11).Keyed := by
  have hslot (j k : ℕ) (hk : k < 11) :
      (p.fill i (fun _ => 0) 11).slot j k = if j = i then 0 else p.slot j k := by
    rw [slot_fill p i _ le_rfl hk]
    exact if_congr (and_iff_left hk) rfl rfl
  constructor
  · intro j hj
    by_cases hji : j = i
    · simp [hslot, hji]
    · simpa [hslot, hji] using h.id_eq j hj
  · intro j hj
    by_cases hji : j = i
    · simp [hslot, hji]
    · simpa [hslot, hji] using h.cpu_eq j hj
  · intro j hj k hk
    by_cases hji : j = i <;> by_cases hki : k = i
    · simp [hji, hki]
    · simp [hslot, hji]
    · simp [hslot, hji, hki]
    · simpa [hslot, hji, hki] using h.inj j hj k hk

lemma Keyed.commRemoveChannel (h : p.Keyed) (c u : ℕ) : (p.commRemoveChannel c u).1.Keyed := by
  unfold ChannelPool.commRemoveChannel
  split
  · exact h.clear
  · exact h

lemma Keyed.slotsOf_commRemoveChannel (h : p.Keyed) (hid : channelId c u ≠ 0) :
    (p.commRemoveChannel c u).1.slotsOf (channelId c u) = ∅ := by
  apply Finset.eq_empty_of_forall_notMem
  intro j hj
  rw [mem_slotsOf] at hj
  obtain ⟨hlt, hj⟩ := hj
  unfold ChannelPool.commRemoveChannel at hj
  split at hj
  next i hi =>
    obtain ⟨hi32, hi0⟩ := find_slot_eq_some hi
    by_cases hji : j = i
    · rw [hji, slot_fill_self p i _ le_rfl (by decide)] at hj
      exact hid hj.symm
    · rw [slot_fill_of_ne p _ le_rfl (by decide) hji] at hj
      exact hji (h.inj j hlt i hi32 (hj ▸ hid) (hj.trans hi0.symm))
  next hnone => exact find_slot_eq_none hnone hlt hj

/-! ### Free slots -/

lemma ensureChannel_of_nonempty (h : (p.slotsOf (queryKey c u)).Nonempty) :
    p.ensureChannel c u = (p, 0) := by
  obtain ⟨i, hq, -⟩ := exists_query h
  rw [ChannelPool.ensureChannel, hq]

lemma exists_ensureChannel (h : (p.slotsOf 0).Nonempty) :
    ∃ p', p.ensureChannel c u = (p', 0) := by
  rcases he : p.ensureChannel c u with ⟨p', r⟩
  obtain ⟨rfl, -⟩ | ⟨rfl, -⟩ | ⟨-, -, hfull⟩ := ensureChannel_cases he
  · exact ⟨p', rfl⟩
  · exact ⟨p', rfl⟩
  · exact absurd hfull h.ne_empty

lemma card_free_ensureChannel (h : p.ensureChannel c u = (p', 0)) :
    (p.slotsOf 0).card ≤ (p'.slotsOf 0).card + 1 := by
  obtain ⟨-, rfl, -⟩ | ⟨-, -, i, -, -, rfl⟩ | ⟨hr, -⟩ := ensureChannel_cases h
  · exact le_succ _
  · have hsub : p.slotsOf 0 ⊆ insert i ((p.fill i (p.newSlot i c u) 8).slotsOf 0) := by
      intro j hj
      by_cases hji : j = i
      · simp [hji]
      · simpa [hji, mem_slotsOf, slot_newSlot] using mem_slotsOf.mp hj
    exact (Finset.card_le_card hsub).trans (Finset.card_insert_le i _)
  · exact absurd rfl hr

def RoomFor (p : ChannelPool) (pairs : List (ℕ × ℕ)) : Prop :=
  (∀ cu ∈ pairs, (p.slotsOf (queryKey cu.1 cu.2)).Nonempty) ∨ pairs.length ≤ (p.slotsOf 0).card

instance (p : ChannelPool) (pairs : List (ℕ × ℕ)) : Decidable (p.RoomFor pairs) := by
  unfold RoomFor
  infer_instance

def ensureChannels (p : ChannelPool) (pairs : List (ℕ × ℕ)) : ChannelPool :=
  pairs.foldl (fun p cu => (p.ensureChannel cu.1 cu.2).1) p

lemma RoomFor.head {cu : ℕ × ℕ} {pairs : List (ℕ × ℕ)} (h : p.RoomFor (cu :: pairs)) :
    ∃ p', p.ensureChannel cu.1 cu.2 = (p', 0) ∧ p'.RoomFor pairs := by
  rcases h with h | h
  · refine ⟨p, ensureChannel_of_nonempty (h cu mem_cons_self), .inl fun cu' hcu' => ?_⟩
    exact h cu' (mem_cons_of_mem cu hcu')
  · rw [length_cons] at h
    obtain ⟨p', hp'⟩ := exists_ensureChannel (c := cu.1) (u := cu.2)
      (Finset.card_pos.mp (Nat.lt_of_lt_of_le (succ_pos _) h))
    have hfree := card_free_ensureChannel hp'
    exact ⟨p', hp', .inr (by omega)⟩

/-- With room for them, all the pairs get their channels. -/
theorem Keyed.ensureChannels {pairs : List (ℕ × ℕ)} (h : p.Keyed)
    (hf : ∀ cu ∈ pairs, Fits cu.1 cu.2) (hroom : p.RoomFor pairs) :
    (p.ensureChannels pairs).Keyed ∧
      (∀ cu ∈ pairs, ((p.ensureChannels pairs).slotsOf (queryKey cu.1 cu.2)).Nonempty) ∧
      ∀ id, id ≠ 0 → (p.slotsOf id).Nonempty → ((p.ensureChannels pairs).slotsOf id).Nonempty := by
  induction pairs generalizing p with
  | nil => exact ⟨h, by simp, fun _ _ hid => hid⟩
  | cons cu pairs ih =>
    obtain ⟨p', hp', hroom'⟩ := hroom.head
    have hcu := hf cu mem_cons_self
    obtain ⟨hkeyed, hnew, hkeep⟩ := h.ensureChannel hcu hp'
    obtain ⟨hkeyed', hnew', hkeep'⟩ :=
      ih hkeyed (fun x hx => hf x (mem_cons_of_mem cu hx)) hroom'
    have hstep : p.ensureChannels (cu :: pairs) = p'.ensureChannels pairs := by
      simp only [ChannelPool.ensureChannels, foldl_cons, hp']
    rw [hstep]
    refine ⟨hkeyed', ?_, fun id hid hne => hkeep' id hid (hkeep id hid hne)⟩
    intro x hx
    rcases mem_cons.mp hx with rfl | hx
    · exact hkeep' _ hcu.queryKey_ne_zero (hnew rfl)
    · exact hnew' x hx

end ChannelPool

end CpuComm
