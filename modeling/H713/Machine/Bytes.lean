import H713.Machine.Word
import Mathlib.Order.Interval.Set.Defs

/-!
# Memory by bytes

A memory gives a byte for each address. Half words and words are in little endian order, at any
address. `SameOff lo hi` relates two memories that differ in `[lo, hi)` only: it states what a piece
of code writes.
-/

namespace Machine

open Function List

structure Bytes where
  byte : ℕ → UInt8

namespace Bytes

def rd8 (m : Bytes) (a : ℕ) : ℕ := (m.byte a).toNat

def rd16 (m : Bytes) (a : ℕ) : ℕ := m.rd8 a + 256 * m.rd8 (a + 1)

def rd32 (m : Bytes) (a : ℕ) : ℕ := m.rd16 a + 65536 * m.rd16 (a + 2)

def wr8 (m : Bytes) (a v : ℕ) : Bytes := ⟨Function.update m.byte a (UInt8.ofNat v)⟩

def wr16 (m : Bytes) (a v : ℕ) : Bytes := (m.wr8 a v).wr8 (a + 1) (v / 256)

def wr32 (m : Bytes) (a v : ℕ) : Bytes := (m.wr16 a v).wr16 (a + 2) (v / 65536)

def rd64 (m : Bytes) (a : ℕ) : ℕ := m.rd32 a + 4294967296 * m.rd32 (a + 4)

def wr64 (m : Bytes) (a v : ℕ) : Bytes := (m.wr32 a v).wr32 (a + 4) (v / 4294967296)

def zero (m : Bytes) (a n : ℕ) : Bytes := ⟨fun x => if a ≤ x ∧ x < a + n then 0 else m.byte x⟩

def copy (m : Bytes) (a : ℕ) (src : Bytes) (b n : ℕ) : Bytes :=
  ⟨fun x => if a ≤ x ∧ x < a + n then src.byte (b + (x - a)) else m.byte x⟩

def suffix (m : Bytes) (a : ℕ) : Bytes := ⟨fun x => m.byte (a + x)⟩

def wrWords (m : Bytes) (a : ℕ) : List ℕ → Bytes
  | []      => m
  | v :: vs => (m.wr32 a v).wrWords (a + 4) vs

def wrBytes (m : Bytes) (a : ℕ) : List ℕ → Bytes
  | []      => m
  | v :: vs => (m.wr8 a v).wrBytes (a + 1) vs

def strncpy (m : Bytes) (a : ℕ) (name : String) (n : ℕ) : Bytes :=
  (m.zero a n).wrBytes a ((name.toList.map Char.toNat).take n)

def loop (body : ℕ → Bytes → Bytes) : ℕ → Bytes → Bytes
  | 0, m     => m
  | n + 1, m => body n (loop body n m)

variable {m m' m'' : Bytes} {a b v : ℕ}

/-! ### Reads after writes -/

lemma rd8_lt (m : Bytes) (a : ℕ) : m.rd8 a < 256 := UInt8.toNat_lt _

lemma rd16_lt (m : Bytes) (a : ℕ) : m.rd16 a < 65536 := by
  have := m.rd8_lt a
  have := m.rd8_lt (a + 1)
  rw [rd16]
  omega

lemma rd32_lt (m : Bytes) (a : ℕ) : m.rd32 a < 4294967296 := by
  have := m.rd16_lt a
  have := m.rd16_lt (a + 2)
  rw [rd32]
  omega

lemma rd8_wr8_self (m : Bytes) (a v : ℕ) : (m.wr8 a v).rd8 a = v % 256 := by
  simp [rd8, wr8]

lemma rd8_wr8_of_ne (h : b ≠ a) : (m.wr8 a v).rd8 b = m.rd8 b := by
  simp [rd8, wr8, h]

lemma rd16_wr16_self (m : Bytes) (a v : ℕ) : (m.wr16 a v).rd16 a = v % 65536 := by
  rw [rd16, wr16, rd8_wr8_self, rd8_wr8_of_ne (by omega), rd8_wr8_self]
  omega

lemma rd16_wr8_of_ne (h : b + 2 ≤ a ∨ a + 1 ≤ b) : (m.wr8 a v).rd16 b = m.rd16 b := by
  rw [rd16, rd8_wr8_of_ne (by omega), rd8_wr8_of_ne (by omega), rd16]

lemma rd16_wr16_of_ne (h : b + 2 ≤ a ∨ a + 2 ≤ b) : (m.wr16 a v).rd16 b = m.rd16 b := by
  rw [wr16, rd16_wr8_of_ne (by omega), rd16_wr8_of_ne (by omega)]

lemma rd32_wr32_self (m : Bytes) (a v : ℕ) : (m.wr32 a v).rd32 a = u32 v := by
  rw [rd32, wr32, rd16_wr16_self, rd16_wr16_of_ne (by omega), rd16_wr16_self, u32]
  omega

/-! ### Writes to different places -/

lemma wr8_comm (h : a ≠ b) (w : ℕ) : (m.wr8 a v).wr8 b w = (m.wr8 b w).wr8 a v := by
  simp only [wr8, mk.injEq]
  exact update_comm h _ _ _

lemma wr32_wr8_comm (h : b < a ∨ a + 4 ≤ b) (w : ℕ) :
    (m.wr8 b w).wr32 a v = (m.wr32 a v).wr8 b w := by
  simp only [wr32, wr16]
  rw [wr8_comm (a := b) (by omega), wr8_comm (a := b) (by omega), wr8_comm (a := b) (by omega),
    wr8_comm (a := b) (by omega)]

lemma wr32_comm (h : b + 4 ≤ a ∨ a + 4 ≤ b) (w : ℕ) :
    (m.wr32 b w).wr32 a v = (m.wr32 a v).wr32 b w := by
  have hexpand (m : Bytes) : m.wr32 b w =
      (((m.wr8 b w).wr8 (b + 1) (w / 256)).wr8 (b + 2) (w / 65536)).wr8 (b + 2 + 1)
        (w / 65536 / 256) := rfl
  rw [hexpand, hexpand, wr32_wr8_comm (by omega), wr32_wr8_comm (by omega),
    wr32_wr8_comm (by omega), wr32_wr8_comm (by omega)]

/-! ### Copies -/

lemma ofNat_rd8_add (m : Bytes) (a k : ℕ) : UInt8.ofNat (m.rd8 a + 256 * k) = m.byte a := by
  apply UInt8.toNat_inj.mp
  have := m.rd8_lt a
  rw [UInt8.toNat_ofNat', Nat.add_mul_mod_self_left, Nat.mod_eq_of_lt this, rd8]

lemma wr16_rd16 (m src : Bytes) (a b : ℕ) : m.wr16 a (src.rd16 b) = m.copy a src b 2 := by
  have hlow := ofNat_rd8_add src b (src.rd8 (b + 1))
  have hhigh : src.rd16 b / 256 = src.rd8 (b + 1) + 256 * 0 := by
    have := src.rd8_lt b
    rw [rd16]
    omega
  rw [wr16, wr8, wr8, hhigh, ofNat_rd8_add, rd16, hlow, copy]
  congr 1
  funext x
  by_cases h₁ : x = a + 1
  · subst h₁
    rw [update_self, if_pos (by omega), Nat.add_sub_cancel_left]
  · rw [update_of_ne h₁]
    simp only [update_apply]
    by_cases h₀ : x = a
    · subst h₀
      rw [if_pos rfl, if_pos (by omega), Nat.sub_self, Nat.add_zero]
    · rw [if_neg h₀, if_neg (by omega)]

lemma copy_copy (m src : Bytes) (a b n k : ℕ) :
    (m.copy a src b n).copy (a + n) src (b + n) k = m.copy a src b (n + k) := by
  simp only [copy, mk.injEq]
  funext x
  split_ifs with h₁ h₂ h₂ h₃ h₃
  · congr 1
    omega
  · omega
  · rfl
  · omega
  · omega
  · rfl

lemma wr16_congr (m : Bytes) (a : ℕ) {v w : ℕ} (h : v % 65536 = w % 65536) :
    m.wr16 a v = m.wr16 a w := by
  have hlow : UInt8.ofNat v = UInt8.ofNat w := by
    apply UInt8.toNat_inj.mp
    rw [UInt8.toNat_ofNat', UInt8.toNat_ofNat']
    omega
  have hhigh : UInt8.ofNat (v / 256) = UInt8.ofNat (w / 256) := by
    apply UInt8.toNat_inj.mp
    rw [UInt8.toNat_ofNat', UInt8.toNat_ofNat']
    omega
  rw [wr16, wr16, wr8, wr8, wr8, wr8, hlow, hhigh]

lemma wr32_rd32 (m src : Bytes) (a b : ℕ) : m.wr32 a (src.rd32 b) = m.copy a src b 4 := by
  have hlow := src.rd16_lt b
  have hhigh : src.rd32 b / 65536 = src.rd16 (b + 2) := by
    rw [rd32]
    omega
  rw [wr32, hhigh, wr16_congr m a (w := src.rd16 b) (by rw [rd32]; omega), wr16_rd16, wr16_rd16,
    copy_copy]

/-! ### What is left unchanged -/

def SameOff (lo hi : ℕ) (m m' : Bytes) : Prop := ∀ x, x < lo ∨ hi ≤ x → m'.byte x = m.byte x

variable {lo hi lo' hi' : ℕ}

lemma SameOff.refl (lo hi : ℕ) (m : Bytes) : SameOff lo hi m m := fun _ _ => rfl

lemma SameOff.trans (h : SameOff lo hi m m') (h' : SameOff lo hi m' m'') : SameOff lo hi m m'' :=
  fun x hx => (h' x hx).trans (h x hx)

lemma SameOff.mono (h : SameOff lo hi m m') (hlo : lo' ≤ lo) (hhi : hi ≤ hi') :
    SameOff lo' hi' m m' :=
  fun x hx => h x (by omega)

lemma SameOff.rd8 (h : SameOff lo hi m m') (hb : b + 1 ≤ lo ∨ hi ≤ b) : m'.rd8 b = m.rd8 b := by
  rw [Bytes.rd8, Bytes.rd8, h b (by omega)]

lemma SameOff.rd16 (h : SameOff lo hi m m') (hb : b + 2 ≤ lo ∨ hi ≤ b) : m'.rd16 b = m.rd16 b := by
  rw [Bytes.rd16, Bytes.rd16, h.rd8 (by omega), h.rd8 (by omega)]

lemma SameOff.rd32 (h : SameOff lo hi m m') (hb : b + 4 ≤ lo ∨ hi ≤ b) : m'.rd32 b = m.rd32 b := by
  rw [Bytes.rd32, Bytes.rd32, h.rd16 (by omega), h.rd16 (by omega)]

lemma SameOff.rd64 (h : SameOff lo hi m m') (hb : b + 8 ≤ lo ∨ hi ≤ b) : m'.rd64 b = m.rd64 b := by
  rw [Bytes.rd64, Bytes.rd64, h.rd32 (by omega), h.rd32 (by omega)]

lemma sameOff_wr8 (m : Bytes) (a v : ℕ) : SameOff a (a + 1) m (m.wr8 a v) := by
  intro x hx
  exact update_of_ne (by omega) _ _

lemma SameOff.wr8 (h : SameOff lo hi m m') (ha : lo ≤ a ∧ a + 1 ≤ hi) :
    SameOff lo hi m (m'.wr8 a v) :=
  h.trans ((sameOff_wr8 m' a v).mono ha.1 ha.2)

lemma SameOff.wr16 (h : SameOff lo hi m m') (ha : lo ≤ a ∧ a + 2 ≤ hi) :
    SameOff lo hi m (m'.wr16 a v) :=
  (h.wr8 (by omega)).wr8 (by omega)

lemma SameOff.wr32 (h : SameOff lo hi m m') (ha : lo ≤ a ∧ a + 4 ≤ hi) :
    SameOff lo hi m (m'.wr32 a v) :=
  (h.wr16 (by omega)).wr16 (by omega)

lemma SameOff.wr64 (h : SameOff lo hi m m') (ha : lo ≤ a ∧ a + 8 ≤ hi) :
    SameOff lo hi m (m'.wr64 a v) :=
  (h.wr32 (by omega)).wr32 (by omega)

lemma sameOff_wr16 (m : Bytes) (a v : ℕ) : SameOff a (a + 2) m (m.wr16 a v) :=
  (SameOff.refl _ _ m).wr16 (by omega)

lemma sameOff_wr32 (m : Bytes) (a v : ℕ) : SameOff a (a + 4) m (m.wr32 a v) :=
  (SameOff.refl _ _ m).wr32 (by omega)

lemma sameOff_wr64 (m : Bytes) (a v : ℕ) : SameOff a (a + 8) m (m.wr64 a v) :=
  (SameOff.refl _ _ m).wr64 (by omega)

lemma sameOff_zero (m : Bytes) (a n : ℕ) : SameOff a (a + n) m (m.zero a n) := by
  intro x hx
  exact if_neg (by omega)

lemma SameOff.zero {n : ℕ} (h : SameOff lo hi m m') (ha : lo ≤ a ∧ a + n ≤ hi) :
    SameOff lo hi m (m'.zero a n) :=
  h.trans ((sameOff_zero m' a n).mono ha.1 ha.2)

lemma sameOff_copy (m : Bytes) (a : ℕ) (src : Bytes) (b n : ℕ) :
    SameOff a (a + n) m (m.copy a src b n) := by
  intro x hx
  exact if_neg (by omega)

lemma sameOff_wrWords (m : Bytes) (a : ℕ) (vs : List ℕ) :
    SameOff a (a + 4 * vs.length) m (m.wrWords a vs) := by
  induction vs generalizing m a with
  | nil => exact .refl _ _ m
  | cons v vs ih =>
    rw [length_cons]
    exact ((SameOff.refl _ _ m).wr32 (by omega)).trans ((ih _ (a + 4)).mono (by omega) (by omega))

lemma sameOff_wrBytes (m : Bytes) (a : ℕ) (vs : List ℕ) :
    SameOff a (a + vs.length) m (m.wrBytes a vs) := by
  induction vs generalizing m a with
  | nil => exact .refl _ _ m
  | cons v vs ih =>
    rw [length_cons]
    exact ((SameOff.refl _ _ m).wr8 (by omega)).trans ((ih _ (a + 1)).mono (by omega) (by omega))

lemma sameOff_strncpy (m : Bytes) (a : ℕ) (name : String) (n : ℕ) :
    SameOff a (a + n) m (m.strncpy a name n) := by
  have hlen : ((name.toList.map Char.toNat).take n).length ≤ n := length_take_le _ _
  exact (sameOff_zero m a n).trans ((sameOff_wrBytes _ a _).mono (by omega) (by omega))

lemma sameOff_loop {body : ℕ → Bytes → Bytes} {n : ℕ}
    (h : ∀ i m, i < n → SameOff lo hi m (body i m)) (m : Bytes) :
        SameOff lo hi m (loop body n m) := by
  induction n with
  | zero => exact .refl lo hi m
  | succ n ih => exact (ih fun i m hi => h i m (by omega)).trans (h n _ (by omega))

lemma loop_establishes {body : ℕ → Bytes → Bytes} {P : Bytes → Prop} {n i : ℕ} (hi : i < n)
    (hset : ∀ m, P (body i m)) (hkeep : ∀ j m, i < j → j < n → P m → P (body j m)) (m : Bytes) :
    P (loop body n m) := by
  induction n with
  | zero => exact absurd hi (Nat.not_lt_zero i)
  | succ n ih =>
    obtain rfl | hlt := Nat.eq_or_lt_of_le (Nat.lt_succ_iff.mp hi)
    · exact hset _
    · exact hkeep n _ hlt (by omega) (ih hlt fun j m hj hj' => hkeep j m hj (by omega))

def Keeps (lo hi : ℕ) (m m' : Bytes) : Prop := ∀ x, lo ≤ x → x < hi → m'.byte x = m.byte x

lemma Keeps.trans (h : Keeps lo hi m m') (h' : Keeps lo hi m' m'') : Keeps lo hi m m'' :=
  fun x hx hx' => (h' x hx hx').trans (h x hx hx')

lemma SameOff.keeps (h : SameOff lo hi m m') (hd : hi' ≤ lo ∨ hi ≤ lo') : Keeps lo' hi' m m' :=
  fun x hx hx' => h x (by omega)

lemma keeps_loop {body : ℕ → Bytes → Bytes} {n : ℕ} (h : ∀ i m, i < n → Keeps lo hi m (body i m))
    (m : Bytes) : Keeps lo hi m (loop body n m) := by
  induction n with
  | zero => exact fun _ _ _ => rfl
  | succ n ih => exact (ih fun i m hi => h i m (by omega)).trans (h n _ (by omega))

lemma Keeps.rd8 (h : Keeps lo hi m m') (hb : lo ≤ b) (hb' : b + 1 ≤ hi) : m'.rd8 b = m.rd8 b := by
  rw [Bytes.rd8, Bytes.rd8, h b hb (by omega)]

lemma Keeps.rd16 (h : Keeps lo hi m m') (hb : lo ≤ b) (hb' : b + 2 ≤ hi) :
    m'.rd16 b = m.rd16 b := by
  rw [Bytes.rd16, Bytes.rd16, h.rd8 (by omega) (by omega), h.rd8 (by omega) (by omega)]

lemma Keeps.rd32 (h : Keeps lo hi m m') (hb : lo ≤ b) (hb' : b + 4 ≤ hi) :
    m'.rd32 b = m.rd32 b := by
  rw [Bytes.rd32, Bytes.rd32, h.rd16 (by omega) (by omega), h.rd16 (by omega) (by omega)]

lemma Keeps.rd64 (h : Keeps lo hi m m') (hb : lo ≤ b) (hb' : b + 8 ≤ hi) :
    m'.rd64 b = m.rd64 b := by
  rw [Bytes.rd64, Bytes.rd64, h.rd32 (by omega) (by omega), h.rd32 (by omega) (by omega)]

def SameOn (S : Set ℕ) (m m' : Bytes) : Prop := ∀ x ∈ S, m'.byte x = m.byte x

lemma SameOn.refl (S : Set ℕ) (m : Bytes) : SameOn S m m := fun _ _ => rfl

lemma SameOn.trans {S : Set ℕ} (h : SameOn S m m') (h' : SameOn S m' m'') : SameOn S m m'' :=
  fun x hx => (h' x hx).trans (h x hx)

lemma SameOn.symm {S : Set ℕ} (h : SameOn S m m') : SameOn S m' m := fun x hx => (h x hx).symm

lemma SameOn.wr8 {S : Set ℕ} (h : SameOn S m m') (a v : ℕ) :
    SameOn S (m.wr8 a v) (m'.wr8 a v) := by
  intro x hx
  simp only [Bytes.wr8, update_apply, h x hx]

lemma SameOn.wr32 {S : Set ℕ} (h : SameOn S m m') (a v : ℕ) :
    SameOn S (m.wr32 a v) (m'.wr32 a v) :=
  (((h.wr8 _ _).wr8 _ _).wr8 _ _).wr8 _ _

lemma SameOff.sameOn {S : Set ℕ} (h : SameOff lo hi m m') (hd : ∀ x ∈ S, x < lo ∨ hi ≤ x) :
    SameOn S m m' :=
  fun x hx => h x (hd x hx)

lemma SameOn.keeps {S : Set ℕ} (h : SameOn S m m') (hS : ∀ x, lo ≤ x → x < hi → x ∈ S) :
    Keeps lo hi m m' :=
  fun x hlo hhi => h x (hS x hlo hhi)

lemma SameOn.keeps_Ico (h : SameOn (Set.Ico lo hi) m m') : Keeps lo hi m m' :=
  fun x hlo hhi => h x ⟨hlo, hhi⟩

lemma rd32_wr32_of_ne (h : b + 4 ≤ a ∨ a + 4 ≤ b) : (m.wr32 a v).rd32 b = m.rd32 b :=
  (sameOff_wr32 m a v).rd32 (by omega)

lemma rd64_wr64_self (m : Bytes) (a v : ℕ) :
    (m.wr64 a v).rd64 a = v % 18446744073709551616 := by
  rw [rd64, wr64, rd32_wr32_of_ne (by omega), rd32_wr32_self, rd32_wr32_self, u32, u32]
  omega

lemma rd32_wrWords (m : Bytes) (a : ℕ) (vs : List ℕ) {i : ℕ} (h : i < vs.length) :
    (m.wrWords a vs).rd32 (a + 4 * i) = u32 vs[i] := by
  induction vs generalizing m a i with
  | nil => exact absurd h (by simp)
  | cons v vs ih =>
    rw [wrWords]
    cases i with
    | zero =>
      rw [(sameOff_wrWords _ (a + 4) vs).rd32 (by omega)]
      exact rd32_wr32_self m a v
    | succ i =>
      rw [show a + 4 * (i + 1) = a + 4 + 4 * i by omega,
        ih _ (a + 4) (by simpa using h), getElem_cons_succ]

@[simp] lemma suffix_zero (m : Bytes) : m.suffix 0 = m := by
  simp only [suffix, Nat.zero_add]

lemma suffix_wr8 (m : Bytes) (a b v : ℕ) : (m.wr8 (a + b) v).suffix a = (m.suffix a).wr8 b v := by
  refine congrArg Bytes.mk (funext fun x => ?_)
  rcases eq_or_ne x b with rfl | hx
  · rw [update_self]
    exact update_self _ _ _
  · rw [update_of_ne hx]
    exact update_of_ne (by omega) _ _

lemma suffix_wr32 (m : Bytes) (a b v : ℕ) :
    (m.wr32 (a + b) v).suffix a = (m.suffix a).wr32 b v := by
  simp only [wr32, wr16, Nat.add_assoc, suffix_wr8]

lemma keeps_suffix_copy (m : Bytes) (a : ℕ) (src : Bytes) (b n : ℕ) :
    Keeps 0 n (src.suffix b) ((m.copy a src b n).suffix a) := by
  intro x _ hx
  have hmem : a ≤ a + x ∧ a + x < a + n := by omega
  simp only [suffix, copy, if_pos hmem, Nat.add_sub_cancel_left]

lemma rd8_zero {n : ℕ} (h : a ≤ b) (h' : b + 1 ≤ a + n) : (m.zero a n).rd8 b = 0 := by
  have hb : a ≤ b ∧ b < a + n := ⟨h, by omega⟩
  simp [rd8, zero, hb]

lemma rd32_zero {n : ℕ} (h : a ≤ b) (h' : b + 4 ≤ a + n) : (m.zero a n).rd32 b = 0 := by
  simp only [rd32, rd16]
  rw [rd8_zero (by omega) (by omega), rd8_zero (by omega) (by omega),
    rd8_zero (by omega) (by omega),
    rd8_zero (by omega) (by omega)]

end Bytes

end Machine
