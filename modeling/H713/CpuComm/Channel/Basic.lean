import H713.CpuComm.Fifo.Basic

/-!
# The channel pool

Thirty-two slots of eleven words: the channel id, `0` in a free slot, at word 0, the cpu or thread
id at word 2, the channel id again, and a semaphore. The FIFO of a channel is read at `+32` of its
slot and reaches into the slot behind it.
-/

namespace CpuComm

open Machine

def channelSlotCount : ℕ := 32

/-- The words of the pool from the first slot on, and the address of the first slot. -/
structure ChannelPool where
  base : ℕ
  word : ℕ → ℕ

namespace ChannelPool

def slot (p : ChannelPool) (i k : ℕ) : ℕ := p.word (11 * i + k)

def fill (p : ChannelPool) (i : ℕ) (src : ℕ → ℕ) (n : ℕ) : ChannelPool :=
  { p with word := storeWords (11 * i) src n p.word }

def channelPoolInit (base : ℕ) : ChannelPool where
  base := base
  word w :=
    if w < 11 * channelSlotCount ∧ (w % 11 = 4 ∨ w % 11 = 8) then 0xFFFFFFFF else 0

def channelId (compId cpu : ℕ) : ℕ := compId % 65536 ||| u32 (16 * cpu)

def queryKey (compId cpu : ℕ) : ℕ := compId % 16 ||| u32 (16 * cpu)

def commQueryChannel (p : ChannelPool) (channelId : ℕ) : Option ℕ :=
  (List.range channelSlotCount).find? fun i => p.slot i 0 = channelId

def newSlot (p : ChannelPool) (i compId cpu k : ℕ) : ℕ :=
  let id := channelId compId cpu
  let waiters := p.base + 4 * (11 * i + 6)
  [id, 0, cpu, id, 0, 0, waiters, waiters].getD k 0

def commAddNewChannel (p : ChannelPool) (compId cpu : ℕ) : ChannelPool × ℤ :=
  match (List.range channelSlotCount).find? fun i => p.slot i 0 = 0 with
  | some i => (p.fill i (p.newSlot i compId cpu) 8, 0)
  | none   => (p, -12)

def commRemoveChannel (p : ChannelPool) (compId cpu : ℕ) : ChannelPool × ℤ :=
  match (List.range channelSlotCount).find? fun i => p.slot i 0 = channelId compId cpu with
  | some i => (p.fill i (fun _ => 0) 11, 0)
  | none   => (p, -2)

/-! ### Slots -/

variable {p : ChannelPool} {i j k : ℕ}

lemma slot_fill (p : ChannelPool) (i : ℕ) (src : ℕ → ℕ) {n : ℕ} (hn : n ≤ 11) (hk : k < 11) :
    (p.fill i src n).slot j k = if j = i ∧ k < n then src k else p.slot j k := by
  simp only [slot, fill, storeWords_apply]
  by_cases hj : j = i ∧ k < n
  · obtain ⟨rfl, hkn⟩ := hj
    rw [if_pos ⟨by omega, by omega⟩, if_pos ⟨rfl, hkn⟩, Nat.add_sub_cancel_left]
  · rw [if_neg (by omega), if_neg hj]

lemma slot_fill_of_ne (p : ChannelPool) (src : ℕ → ℕ) {n : ℕ} (hn : n ≤ 11) (hk : k < 11)
    (hj : j ≠ i) : (p.fill i src n).slot j k = p.slot j k := by
  rw [slot_fill p i src hn hk, if_neg fun h => hj h.1]

lemma slot_fill_self (p : ChannelPool) (i : ℕ) (src : ℕ → ℕ) {n : ℕ} (hn : n ≤ 11) (hk : k < n) :
    (p.fill i src n).slot i k = src k := by
  rw [slot_fill p i src hn (by omega), if_pos ⟨rfl, hk⟩]

lemma find_slot_eq_some {q : ℕ → Prop} [DecidablePred q]
    (h : (List.range channelSlotCount).find? (fun i => q i) = some i) : i < 32 ∧ q i :=
  ⟨List.mem_range.mp (List.mem_of_find?_eq_some h), by simpa using List.find?_some h⟩

lemma find_slot_eq_none {q : ℕ → Prop} [DecidablePred q]
    (h : (List.range channelSlotCount).find? (fun i => q i) = none) (hi : i < 32) : ¬ q i := by
  simpa using List.find?_eq_none.mp h i (List.mem_range.mpr hi)

lemma of_query_eq_some {id : ℕ} (h : p.commQueryChannel id = some i) : i < 32 ∧ p.slot i 0 = id :=
  find_slot_eq_some h

lemma of_query_eq_none {id : ℕ} (h : p.commQueryChannel id = none) (hi : i < 32) :
    p.slot i 0 ≠ id :=
  find_slot_eq_none (q := fun i => p.slot i 0 = id) h hi

lemma slot_init (base i : ℕ) (hk : k < 11) :
    (channelPoolInit base).slot i k
      = if i < 32 ∧ (k = 4 ∨ k = 8) then 0xFFFFFFFF else 0 := by
  simp only [slot, channelPoolInit, channelSlotCount, Nat.mul_add_mod, Nat.mod_eq_of_lt hk]
  exact if_congr (by omega) rfl rfl

end ChannelPool

end CpuComm
