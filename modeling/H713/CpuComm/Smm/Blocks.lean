import Mathlib.Data.List.Chain
import Mathlib.Tactic.IntervalCases
import H713.CpuComm.Smm.Release
import H713.Machine.Chain

/-!
# Blocks of a page

A page that is cut holds blocks of one size, and the free ones are chained, class by class, behind a
word of the header. Blocks lie at multiples of their size, so two of them never overlap.
-/

namespace CpuComm

open Machine Function List

def Arena.push (V : Arena) (S : Smm) (i b : ℕ) : Arena :=
  let word := Function.update (Function.update V.word b (V.heads i)) (b + 4)
    (S.toPhy (S.classSlot i))
  { V with
    heads := Function.update V.heads i (S.toPhy b)
    word := if V.heads i = 0 then word
      else Function.update word (S.toVir (V.heads i) + 4) (S.toPhy b) }

def Arena.pop (V : Arena) (S : Smm) (i b : ℕ) : Arena :=
  { V with
    heads := Function.update V.heads i (V.word b)
    word := if V.word b = 0 then V.word
      else Function.update V.word (S.toVir (V.word b) + 4) (S.toPhy (S.classSlot i)) }

/-- Page `x` is cut into blocks of class `i`, of which `n` are free. -/
def Arena.cut (V : Arena) (i x n v : ℕ) (heads word : ℕ → ℕ) : Arena :=
  { V with
    heads := heads
    cuts := update V.cuts (Smm.mallocPageCounter i) (u32 (V.cuts (Smm.mallocPageCounter i) + 1))
    word := word
    count := update V.count x i
    next := update V.next x n
    prev := update V.prev x v }

namespace Smm

variable {S : Smm} {m : Mem} {V V' : Arena} {use use' : ℕ → Use} {ps : List ℕ} {L : ℕ → List ℕ}
  {p i j b c a : ℕ} {l : List ℕ}

/-! ### Places of blocks -/

def pageNo (S : Smm) (a : ℕ) : ℕ := (a - S.heap) / 4096

/-- A block of class `i` lies in a page that is cut into such blocks, at a multiple of its size. -/
structure BlockAt (S : Smm) (use : ℕ → Use) (i b : ℕ) : Prop where
  ge : 4 ≤ i
  le : i ≤ 11
  cut : use (S.pageNo b) = .cut i
  heap_le : S.heap ≤ b
  mod : b % 2 ^ i = 0

namespace BlockAt

lemma mod16 (h : S.BlockAt use i b) : b % 16 = 0 := by
  have hdvd : 2 ^ 4 ∣ b := (pow_dvd_pow 2 h.ge).trans (Nat.dvd_of_mod_eq_zero h.mod)
  exact Nat.mod_eq_zero_of_dvd hdvd

lemma end_le (h : S.BlockAt use i b) : b + 2 ^ i ≤ S.heap + 4096 * (S.pageNo b + 1) := by
  have hal := S.aligned
  have hmod := h.mod
  obtain ⟨hge, hle, -⟩ := h
  simp only [pageNo]
  interval_cases i <;> omega

lemma page_le (h : S.BlockAt use i b) : S.heap + 4096 * S.pageNo b ≤ b := by
  have := h.heap_le
  simp only [pageNo]
  omega

lemma size_ge (h : S.BlockAt use i b) : 2 ^ 4 ≤ 2 ^ i := Nat.pow_le_pow_right two_pos h.ge

lemma inPages (h : S.BlockAt use i b) (hV : S.Pages V use ps) :
    S.InPages b ∧ S.InPages (b + 4) := by
  have hu := hV.used _ (by rw [h.cut]; nofun)
  have := h.end_le
  have := h.page_le
  have := h.size_ge
  have := hV.brk_mod
  have := hV.brk_le
  simp only [InPages]
  omega

lemma inj (h : S.BlockAt use i b) (h' : S.BlockAt use j b) : i = j :=
  Use.cut.inj (h.cut.symm.trans h'.cut)

lemma disjoint (h : S.BlockAt use i b) (h' : S.BlockAt use j c) (hne : b ≠ c) :
    b + 2 ^ i ≤ c ∨ c + 2 ^ j ≤ b := by
  by_cases hp : S.pageNo b = S.pageNo c
  · -- two multiples of one size
    obtain rfl : i = j := Use.cut.inj (h.cut.symm.trans (hp ▸ h'.cut))
    obtain ⟨u, rfl⟩ := Nat.dvd_of_mod_eq_zero h.mod
    obtain ⟨v, rfl⟩ := Nat.dvd_of_mod_eq_zero h'.mod
    rcases Nat.lt_or_gt_of_ne (show u ≠ v by rintro rfl; exact hne rfl) with huv | huv
    · exact .inl (by nlinarith [Nat.mul_le_mul_left (2 ^ i) huv])
    · exact .inr (by nlinarith [Nat.mul_le_mul_left (2 ^ i) huv])
  · have := h.end_le
    have := h.page_le
    have := h'.end_le
    have := h'.page_le
    omega

lemma mono (h : S.BlockAt use i b) (hu : ∀ p, use p = .cut i → use' p = .cut i) :
    S.BlockAt use' i b := ⟨h.ge, h.le, hu _ h.cut, h.heap_le, h.mod⟩

end BlockAt

/-! ### The free lists -/

def link (S : Smm) (V : Arena) (i a : ℕ) : Option ℕ :=
  let w := if a = S.classSlot i then V.heads i else V.word a
  if w = 0 then none else some (S.toVir w)

/-- The free blocks `L i` of each class are chained, and each links back to the one before it, the
first one to the header. -/
structure Lists (S : Smm) (V : Arena) (use : ℕ → Use) (L : ℕ → List ℕ) : Prop where
  chain : ∀ i, 4 ≤ i → i ≤ 11 → Chain (S.link V i) (S.classSlot i) (L i)
  back : ∀ i, 4 ≤ i → i ≤ 11 →
    (S.classSlot i :: L i).IsChain fun a b => V.word (b + 4) = S.toPhy a
  block : ∀ i, 4 ≤ i → i ≤ 11 → ∀ b ∈ L i, S.BlockAt use i b
  head_lt : ∀ i, 4 ≤ i → i ≤ 11 → V.heads i < 4294967296
  word_lt : ∀ i, 4 ≤ i → i ≤ 11 → ∀ b ∈ L i, V.word b < 4294967296

lemma classSlot_lt (hi : i ≤ 11) : S.classSlot i < S.heap + 4096 := by
  simp only [classSlot]
  omega

lemma BlockAt.ne_slot (h : S.BlockAt use i b) (hV : S.Pages V use ps) (hj : j ≤ 11) :
    b ≠ S.classSlot j := by
  have := (h.inPages hV).1.1
  have := S.pt_le_dataStart
  have := S.classSlot_lt hj
  omega

namespace Lists

lemma congr (h : S.Lists V use L) (hheads : V'.heads = V.heads) (hword : V'.word = V.word)
    (hu : ∀ p i, use p = .cut i → use' p = .cut i) : S.Lists V' use' L := by
  refine ⟨fun i hi hi' => (h.chain i hi hi').congr fun a _ => ?_, hword ▸ h.back,
    fun i hi hi' b hb => (h.block i hi hi' b hb).mono fun p => hu p i, fun i hi hi' => ?_,
    fun i hi hi' b hb => ?_⟩
  · rw [link, link, hheads, hword]
  · rw [hheads]
    exact h.head_lt i hi hi'
  · rw [hword]
    exact h.word_lt i hi hi' b hb

lemma back_head (h : S.Lists V use L) (hi : 4 ≤ i) (hi' : i ≤ 11) (hL : L i = b :: l) :
    V.word (b + 4) = S.toPhy (S.classSlot i) :=
  (h.back i hi hi').rel_head? (by rw [hL]; rfl)

lemma head_eq (h : S.Lists V use L) (hi : 4 ≤ i) (hi' : i ≤ 11) :
    (if V.heads i = 0 then none else some (S.toVir (V.heads i))) = (L i).head? := by
  have hc := h.chain i hi hi'
  cases hL : L i with
  | nil =>
    rw [hL] at hc
    simpa [link] using hc
  | cons b l =>
    rw [hL] at hc
    simpa [link] using hc.1

lemma head_block (h : S.Lists V use L) (hi : 4 ≤ i) (hi' : i ≤ 11) (h0 : V.heads i ≠ 0) :
    S.toVir (V.heads i) ∈ L i := by
  have := h.head_eq hi hi'
  rw [if_neg h0] at this
  exact mem_of_mem_head? this.symm

lemma next_eq (h : S.Lists V use L) (hV : S.Pages V use ps) (hi : 4 ≤ i) (hi' : i ≤ 11)
    (hL : L i = b :: c :: l) : V.word b ≠ 0 ∧ S.toVir (V.word b) = c := by
  have hb := (h.block i hi hi' b (by rw [hL]; simp)).ne_slot hV hi'
  have hc := h.chain i hi hi'
  rw [hL] at hc
  have hn := hc.2.1
  simp only [link, if_neg hb] at hn
  by_cases h0 : V.word b = 0
  · rw [if_pos h0] at hn
    cases hn
  · rw [if_neg h0] at hn
    exact ⟨h0, Option.some.inj hn⟩

lemma next_block (h : S.Lists V use L) (hV : S.Pages V use ps) (hi : 4 ≤ i) (hi' : i ≤ 11)
    (hb : b ∈ L i) (h0 : V.word b ≠ 0) : S.toVir (V.word b) ∈ L i := by
  refine (h.chain i hi hi').next_mem (mem_cons_of_mem _ hb) ?_
  rw [link, if_neg ((h.block i hi hi' b hb).ne_slot hV hi'), if_neg h0]

lemma class_eq (h : S.Lists V use L) (hj : 4 ≤ j) (hj' : j ≤ 11) (hb : S.BlockAt use i b)
    (hm : b ∈ L j) : i = j := hb.inj (h.block j hj hj' b hm)

lemma replace (h : S.Lists V use L) (hi : 4 ≤ i) (hi' : i ≤ 11)
    (hchain : Chain (S.link V' i) (S.classSlot i) l)
    (hback : (S.classSlot i :: l).IsChain fun a b => V'.word (b + 4) = S.toPhy a)
    (hl : ∀ b ∈ l, S.BlockAt use i b ∧ V'.word b < 4294967296) (hlt : V'.heads i < 4294967296)
    (hheads : ∀ j, j ≠ i → V'.heads j = V.heads j)
    (hword : ∀ j b, j ≠ i → S.BlockAt use j b → b ∈ L j →
      V'.word b = V.word b ∧ V'.word (b + 4) = V.word (b + 4)) :
    S.Lists V' use (update L i l) := by
  refine ⟨fun j hj hj' => ?_, fun j hj hj' => ?_, fun j hj hj' c hc => ?_,
    fun j hj hj' => ?_, fun j hj hj' c hc => ?_⟩ <;> rcases eq_or_ne j i with rfl | hji
  · rwa [update_self]
  · rw [update_of_ne hji]
    refine (h.chain j hj hj').congr fun a ha => ?_
    simp only [link, hheads j hji]
    by_cases hs : a = S.classSlot j
    · rw [if_pos hs, if_pos hs]
    · have hm := (mem_cons.mp ha).resolve_left hs
      rw [if_neg hs, if_neg hs, (hword j a hji (h.block j hj hj' a hm) hm).1]
  · rwa [update_self]
  · rw [update_of_ne hji]
    refine (h.back j hj hj').imp_of_mem_tail_imp fun a c _ hm hac => ?_
    exact (hword j c hji (h.block j hj hj' c hm) hm).2.trans hac
  · rw [update_self] at hc
    exact (hl c hc).1
  · rw [update_of_ne hji] at hc
    exact h.block j hj hj' c hc
  · exact hlt
  · rw [hheads j hji]
    exact h.head_lt j hj hj'
  · rw [update_self] at hc
    exact (hl c hc).2
  · rw [update_of_ne hji] at hc
    rw [(hword j c hji (h.block j hj hj' c hc) hc).1]
    exact h.word_lt j hj hj' c hc

end Lists

lemma push_word (hb : b % 16 = 0) (ho : V.heads i ≠ 0 → S.toVir (V.heads i) % 16 = 0)
    (ha : a % 16 = 0) (hab : a ≠ b) : (V.push S i b).word a = V.word a := by
  have hab4 : a ≠ b + 4 := by omega
  by_cases h0 : V.heads i = 0
  · simp [Arena.push, h0, hab, hab4]
  · have hao : a ≠ S.toVir (V.heads i) + 4 := by
      omega
    simp [Arena.push, h0, hab, hab4, hao]

lemma push_word_back (hb : b % 16 = 0) (ha : a % 16 = 0) (hab : a ≠ b)
    (ho : V.heads i ≠ 0 → a ≠ S.toVir (V.heads i)) :
    (V.push S i b).word (a + 4) = V.word (a + 4) := by
  have hab4 : a + 4 ≠ b := by omega
  by_cases h0 : V.heads i = 0
  · simp [Arena.push, h0, hab, hab4]
  · simp [Arena.push, h0, hab, hab4, ho h0]

lemma push_word_self (hb : b % 16 = 0) (ho : V.heads i ≠ 0 → S.toVir (V.heads i) % 16 = 0) :
    (V.push S i b).word b = V.heads i := by
  by_cases h0 : V.heads i = 0
  · simp [Arena.push, h0]
  · have hbo : b ≠ S.toVir (V.heads i) + 4 := by
      omega
    simp [Arena.push, h0, hbo]

lemma push_word_self_back (ho : V.heads i ≠ 0 → b ≠ S.toVir (V.heads i)) :
    (V.push S i b).word (b + 4) = S.toPhy (S.classSlot i) := by
  by_cases h0 : V.heads i = 0
  · simp [Arena.push, h0]
  · simp [Arena.push, h0, ho h0]

namespace Lists

lemma push (h : S.Lists V use L) (hV : S.Pages V use ps) (hb : S.BlockAt use i b) (hn : b ∉ L i) :
    S.Lists (V.push S i b) use (update L i (b :: L i)) := by
  have hold : V.heads i ≠ 0 → S.toVir (V.heads i) ∈ L i := h.head_block hb.ge hb.le
  have hold16 : V.heads i ≠ 0 → S.toVir (V.heads i) % 16 = 0 := fun h0 =>
    (h.block i hb.ge hb.le _ (hold h0)).mod16
  have hne := hb.ne_slot hV hb.le
  have hself := push_word_self (S := S) hb.mod16 hold16
  have hcell : ∀ a ∈ L i, (V.push S i b).word a = V.word a := fun a ha =>
    push_word hb.mod16 hold16 (h.block i hb.ge hb.le a ha).mod16 (by rintro rfl; exact hn ha)
  refine h.replace hb.ge hb.le ((h.chain i hb.ge hb.le).push ?_ ?_ fun a ha => ?_) ?_
    (fun c hc => ?_) ?_ (fun j hji => ?_) fun j c hji hc hm => ?_
  · have hle := (hb.inPages hV).1.2.le
    simp [link, Arena.push, S.toPhy_ne_zero hb.heap_le hle, S.toVir_toPhy hb.heap_le hle]
  · simp only [link, if_neg hne, hself, if_true]
  · simp only [link, if_neg ((h.block i hb.ge hb.le a ha).ne_slot hV hb.le), hcell a ha]
  · refine .cons_cons (push_word_self_back fun h0 e => hn (e ▸ hold h0)) ?_
    cases hL : L i with
    | nil => exact .singleton b
    | cons c l =>
      have hback := hL ▸ h.back i hb.ge hb.le
      have hnd := hL ▸ (h.chain i hb.ge hb.le).nodup
      have hhead := hL ▸ h.head_eq hb.ge hb.le
      obtain ⟨h0, rfl⟩ : V.heads i ≠ 0 ∧ S.toVir (V.heads i) = c := by
        by_cases h0 : V.heads i = 0 <;> simp_all
      refine .cons_cons (by simp [Arena.push, h0]) ?_
      -- behind the old head no word changes
      refine hback.tail.imp_of_mem_tail_imp fun a d _ hd had => ?_
      have hdm : d ∈ L i := hL ▸ mem_cons_of_mem _ hd
      rw [push_word_back hb.mod16 (h.block i hb.ge hb.le d hdm).mod16, had]
      · rintro rfl
        exact hn hdm
      · rintro - rfl
        exact (nodup_cons.mp (nodup_cons.mp hnd).2).1 hd
  · rcases mem_cons.mp hc with rfl | hc
    · rw [hself]
      exact ⟨hb, h.head_lt i hb.ge hb.le⟩
    · rw [hcell c hc]
      exact ⟨h.block i hb.ge hb.le c hc, h.word_lt i hb.ge hb.le c hc⟩
  · simpa [Arena.push] using S.toPhy_lt b
  · simp [Arena.push, update_of_ne hji]
  · -- a block of another class is neither `b` nor the old head
    have hcb : c ≠ b := by
      rintro rfl
      exact hji (hc.inj hb)
    have hco : V.heads i ≠ 0 → c ≠ S.toVir (V.heads i) := fun h0 e =>
      hji (h.class_eq hb.ge hb.le hc (e ▸ hold h0))
    exact ⟨push_word hb.mod16 hold16 hc.mod16 hcb, push_word_back hb.mod16 hc.mod16 hcb hco⟩

lemma pop (h : S.Lists V use L) (hV : S.Pages V use ps) (hi : 4 ≤ i) (hi' : i ≤ 11)
    (hL : L i = b :: l) : S.Lists (V.pop S i b) use (update L i l) := by
  have hmem : ∀ a ∈ l, a ∈ L i := fun a ha => hL ▸ mem_cons_of_mem b ha
  have hbm : b ∈ L i := hL ▸ mem_cons_self
  have hb := h.block i hi hi' b hbm
  have hchain := h.chain i hi hi'
  have hnext : V.word b ≠ 0 → S.toVir (V.word b) ∈ L i := h.next_block hV hi hi' hbm
  have hword : ∀ a, a % 16 = 0 → (V.pop S i b).word a = V.word a := by
    intro a ha
    by_cases h0 : V.word b = 0
    · simp [Arena.pop, h0]
    · have := (h.block i hi hi' _ (hnext h0)).mod16
      have hne : a ≠ S.toVir (V.word b) + 4 := by omega
      simp [Arena.pop, h0, hne]
  rw [hL] at hchain
  refine h.replace hi hi' (hchain.pop ?_ fun a ha => ?_) ?_ (fun c hc => ?_) ?_
    (fun j hji => ?_) fun j c hji hc hm => ?_
  · simp [link, Arena.pop, hb.ne_slot hV hi']
  · have hblk := h.block i hi hi' a (hmem a ha)
    simp only [link, if_neg (hblk.ne_slot hV hi'), hword a hblk.mod16]
  · cases l with
    | nil => exact .singleton _
    | cons d l =>
      obtain ⟨h0, rfl⟩ := h.next_eq hV hi hi' hL
      refine .cons_cons (by simp [Arena.pop, h0]) ?_
      refine (hL ▸ h.back i hi hi').tail.tail.imp_of_mem_tail_imp fun a c _ hc hac => ?_
      have hne : c ≠ S.toVir (V.word b) := by
        rintro rfl
        exact hchain.2.2.head_notMem hc
      simpa [Arena.pop, h0, hne] using hac
  · have hblk := h.block i hi hi' c (hmem c hc)
    rw [hword c hblk.mod16]
    exact ⟨hblk, h.word_lt i hi hi' c (hmem c hc)⟩
  · simpa [Arena.pop] using h.word_lt i hi hi' b hbm
  · simp [Arena.pop, update_of_ne hji]
  · refine ⟨hword c hc.mod16, ?_⟩
    by_cases h0 : V.word b = 0
    · simp [Arena.pop, h0]
    · have hne : c ≠ S.toVir (V.word b) := by
        intro e
        exact hji (h.class_eq hi hi' hc (e ▸ hnext h0))
      simp [Arena.pop, h0, hne]

end Lists

end Smm

end CpuComm
