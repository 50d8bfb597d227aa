import H713.Msgbox.System
import Mathlib.Data.UInt

/-!
# The enable bits

A send sets the TX enable bit of its endpoint, and the handler or the send clears it again, each
with a read and a write of the enable word.
-/

namespace Msgbox

open Machine Function Option

/-! ### Steps -/

def IrqPc.ept : IrqPc → Option ℕ
  | .next _ => none
  | .rxEnable k | .rxStatus k | .rxFifo k | .rxData k | .rxAck k | .txEnable k | .txStatus k
  | .txFifo k | .txTest k | .clearRead k | .clearWrite k _ | .complete k | .txAck k => some k

def IrqPc.serves : IrqPc → Option ℕ
  | .txStatus k | .txFifo k | .txTest k | .clearRead k | .clearWrite k _ | .complete k => some k
  | _ => none

/-- What the sends and the handler need for the enable bits is the same. -/
structure Same (s s' : Box) : Prop where
  txEn : s'.txEn = s.txEn
  rxEn : s'.rxEn = s.rxEn
  done : s'.done = s.done
  txLock : s'.txLock = s.txLock

lemma same_setLock (s : Box) (lock : Lock) : Same s (s.setLock lock) := ⟨rfl, rfl, rfl, rfl⟩

lemma same_push (s : Box) (b : Block) (port : ℕ) (m : Msg) : Same s (s.push b port m) := by
  rw [Box.push]
  split_ifs
  · exact ⟨rfl, rfl, rfl, rfl⟩
  · exact ⟨rfl, rfl, rfl, rfl⟩

lemma push_lock (s : Box) (b : Block) (port : ℕ) (m : Msg) : (s.push b port m).lock = s.lock := by
  rw [Box.push]
  split_ifs
  · rfl
  · rfl

/-- All that a step of the handler can be. -/
inductive IrqSteps (dev : Device) (s : Box) : IrqPc → Box → Prop
  | leave {pc : IrqPc} : IrqSteps dev s pc (s.setLock .free)
  | walk {pc pc' : IrqPc} {s' : Box} (hsame : Same s s') (hlock : s'.lock = .irq pc')
      (hept : ∀ k, pc'.ept = some k → pc.ept = some k ∨ k < dev.count) (hout : pc'.serves = none) :
      IrqSteps dev s pc s'
  | see {k : ℕ} (hbit : s.txEn (dev.txBlock k) &&& dev.txBit k ≠ 0) :
      IrqSteps dev s (.txEnable k) (s.setLock (.irq (.txStatus k)))
  | serve {pc pc' : IrqPc} {s' : Box} {k : ℕ} (hsame : Same s s') (hlock : s'.lock = .irq pc')
      (hin : pc.serves = some k) (hin' : pc'.serves = some k) (hpc : pc'.ept = pc.ept)
      (hnot : pc' ≠ .complete k) : IrqSteps dev s pc s'
  | clear (k : ℕ) (val : UInt32) : IrqSteps dev s (.clearWrite k val)
      ((s.setTxEn (dev.clearBlock k) (val &&& ~~~dev.txBit k)).setLock (.irq (.complete k)))
  | complete (k : ℕ) : IrqSteps dev s (.complete k)
      ((s.setDone k (s.done k + 1)).setLock (.irq (.txAck k)))

section

variable {dev : Device} {s s' : Box} {pc : IrqPc}

lemma IrqSteps.goOn {pc' : IrqPc} (hept : pc'.ept = pc.ept ∨ pc'.ept = none)
    (hout : pc'.serves = none) : IrqSteps dev s pc (s.setLock (.irq pc')) := by
  refine .walk (same_setLock s _) rfl (fun k hk => ?_) hout
  rcases hept with h | h
  · exact .inl (h ▸ hk)
  · cases h.symm.trans hk

lemma irqSteps_irq (dev : Device) (s : Box) (pc : IrqPc) : IrqSteps dev s pc (s.irq dev pc) := by
  cases pc with
  | next k =>
    rw [Box.irq]
    split_ifs with hk hbase
    · exact .goOn (.inl rfl) rfl
    · refine .walk (same_setLock s _) rfl ?_ rfl
      intro k' hk'
      cases hk'
      exact .inr hk
    · exact .leave
  | rxEnable k | rxStatus k | rxFifo k =>
    rw [Box.irq]
    split_ifs
    · exact .goOn (.inl rfl) rfl
    · exact .goOn (.inl rfl) rfl
  | rxData k =>
    rw [Box.irq]
    split
    · exact .goOn (.inl rfl) rfl
    · exact .walk ⟨rfl, rfl, rfl, rfl⟩ rfl (fun _ h => .inl h) rfl
  | rxAck k => exact .walk ⟨rfl, rfl, rfl, rfl⟩ rfl (fun _ h => .inl h) rfl
  | txEnable k =>
    rw [Box.irq]
    split_ifs with hbit
    · exact .see hbit
    · exact .goOn (.inr rfl) rfl
  | txStatus k =>
    rw [Box.irq]
    split_ifs
    · exact .serve (same_setLock s _) rfl rfl rfl rfl (fun h => by cases h)
    · exact .goOn (.inr rfl) rfl
  | txFifo k =>
    rw [Box.irq]
    split_ifs
    · exact .goOn (.inl rfl) rfl
    · exact .serve (same_setLock s _) rfl rfl rfl rfl (fun h => by cases h)
  | txTest k =>
    rw [Box.irq]
    split_ifs
    · exact .serve (same_setLock s _) rfl rfl rfl rfl (fun h => by cases h)
    · have hpush := same_push s (dev.txBlock k) (dev.ept k).txPort
        ⟨packWord (((s.txData k).drop (s.txPos k)).take (min 4 (s.txLen k - s.txPos k))),
          s.txLock k⟩
      exact .serve ⟨hpush.txEn, hpush.rxEn, hpush.done, hpush.txLock⟩ rfl rfl rfl rfl
        (fun h => by cases h)
  | clearRead k => exact .serve (same_setLock s _) rfl rfl rfl rfl (fun h => by cases h)
  | clearWrite k val => exact .clear k val
  | complete k => exact .complete k
  | txAck k => exact .walk ⟨rfl, rfl, rfl, rfl⟩ rfl (fun _ h => by cases h) rfl

/-- All that the environment can do. -/
inductive Events (dev : Device) (s : Box) : Event → Box → Prop
  | enter (hfree : s.lock = .free) : Events dev s .enter (s.setLock (.irq (.next 0)))
  | irq {pc : IrqPc} {s' : Box} (hlock : s.lock = .irq pc) (hs : IrqSteps dev s pc s') :
      Events dev s .irq s'
  | quiet {x : Event} {s' : Box} (hsame : Same s s') (hlock : s'.lock = s.lock) : Events dev s x s'

lemma events_of_event {x : Event} (h : s.event dev x = some s') : Events dev s x s' := by
  cases x with
  | enter =>
    simp only [Box.event] at h
    split_ifs at h with hfree
    cases h
    exact .enter hfree
  | irq =>
    simp only [Box.event] at h
    split at h
    · rename_i pc hlock
      cases h
      exact .irq hlock (irqSteps_irq dev s pc)
    · cases h
  | txStatus b bits =>
    cases h
    exact .quiet ⟨rfl, rfl, rfl, rfl⟩ rfl
  | rxStatus b bits =>
    cases h
    exact .quiet ⟨rfl, rfl, rfl, rfl⟩ rfl
  | pop b port =>
    simp only [Box.event] at h
    split at h
    · cases h
    · cases h
      exact .quiet ⟨rfl, rfl, rfl, rfl⟩ rfl
  | post b port word =>
    cases h
    exact .quiet (same_push s b port _) (push_lock s b port _)

end

/-! ### One bit -/

variable (dev : Device)

def OnlyBit (e : ℕ) (en en' : Block → UInt32) : Prop :=
  ∀ b m, (b = dev.txBlock e → dev.txBit e &&& m = 0) → en' b &&& m = en b &&& m

def Device.Distinct : Prop :=
  ∀ e < dev.count, ∀ e' < dev.count, (dev.ept e).remote = (dev.ept e').remote →
    (dev.ept e).txPort = (dev.ept e').txPort → e = e'

def Device.Neighbours : Prop :=
  ∀ e < dev.count, (dev.ept e).remote = dev.ampCur + 1 ∨ dev.ampCur = (dev.ept e).remote + 1

instance : Decidable dev.Distinct :=
  inferInstanceAs (Decidable (∀ e < dev.count, ∀ e' < dev.count, _ → _ → e = e'))

instance : Decidable dev.Neighbours :=
  inferInstanceAs (Decidable (∀ e < dev.count, _ ∨ _))

def Box.Clear (s : Box) (e : ℕ) : Prop :=
  s.txEn (dev.txBlock e) &&& dev.txBit e = 0

section

variable {dev : Device} {s s' : Box} {e e' : ℕ}

lemma OnlyBit.refl (dev : Device) (e : ℕ) (en : Block → UInt32) : OnlyBit dev e en en :=
  fun _ _ _ => rfl

lemma onlyBit_set (dev : Device) (s : Box) (e : ℕ) : OnlyBit dev e s.txEn
    (s.setTxEn (dev.txBlock e) (s.txEn (dev.txBlock e) ||| dev.txBit e)).txEn := by
  intro b m hm
  by_cases hb : b = dev.txBlock e
  · subst hb
    simp only [Box.setTxEn, update_self]
    exact or_and_of_disjoint (hm rfl) _
  · simp only [Box.setTxEn, update_of_ne hb]

lemma onlyBit_clear (dev : Device) (s : Box) (e : ℕ) : OnlyBit dev e s.txEn
    (s.setTxEn (dev.txBlock e) (s.txEn (dev.txBlock e) &&& ~~~dev.txBit e)).txEn := by
  intro b m hm
  by_cases hb : b = dev.txBlock e
  · subst hb
    simp only [Box.setTxEn, update_self]
    exact and_not_and_of_disjoint (hm rfl) _
  · simp only [Box.setTxEn, update_of_ne hb]

lemma OnlyBit.clear_iff (h : OnlyBit dev e s.txEn s'.txEn) (hd : dev.Distinct)
    (he : e < dev.count) (he' : e' < dev.count) (hne : e' ≠ e) :
    s'.Clear dev e' ↔ s.Clear dev e' := by
  have hsame : s'.txEn (dev.txBlock e') &&& dev.txBit e' =
      s.txEn (dev.txBlock e') &&& dev.txBit e' := by
    apply h
    intro hblock
    have hremote : (dev.ept e').remote = (dev.ept e).remote := congrArg Prod.fst hblock
    apply txBit_and_of_ne
    intro hport
    exact hne (hd e' he' e he hremote hport.symm)
  rw [Box.Clear, Box.Clear, hsame]

lemma clear_setTxEn (dev : Device) (s : Box) (e : ℕ) (val : UInt32) :
    (s.setTxEn (dev.txBlock e) (val &&& ~~~dev.txBit e)).Clear dev e := by
  simp only [Box.Clear, Box.setTxEn, update_self, UInt32.and_assoc]
  rw [UInt32.and_comm (~~~dev.txBit e), UInt32.and_not_self, UInt32.and_zero]

end

/-! ### The invariant -/

def Box.Serving (s : Box) (e : ℕ) : Prop := ∃ pc, s.lock = .irq pc ∧ pc.serves = some e

lemma serving_iff {s : Box} {pc : IrqPc} {e : ℕ} (h : s.lock = .irq pc) :
    s.Serving e ↔ pc.serves = some e := by
  constructor
  · rintro ⟨pc', hpc', hserves⟩
    obtain rfl := Lock.irq.inj (h.symm.trans hpc')
    exact hserves
  · intro hserves
    exact ⟨pc, h, hserves⟩

def SendPc.Ok (s : Box) (i e : ℕ) : SendPc → Prop
  | .start | .returned _ => True
  | .setup => s.txLock e = some i ∧ s.Clear dev e ∧ ¬ s.Serving e
  | .fill _ | .readEn | .writeEn _ =>
    s.txLock e = some i ∧ s.Clear dev e ∧ ¬ s.Serving e ∧ s.done e = 0
  | .wait => s.txLock e = some i ∧ (¬ s.Clear dev e ∨ s.Serving e → s.done e = 0)
  | .timedOut => s.txLock e = some i
  | .readClear | .writeClear _ => s.txLock e = some i ∧ s.lock = .sender i

/-- Without a send, the bit of an endpoint is clear and the handler is not at it. -/
structure Enabled (dev : Device) (p : Pool Box Send) : Prop where
  ept : ∀ (i : ℕ) (t : Send), p.threads[i]? = some t → t.ept < dev.count
  irq : ∀ pc k, p.shared.lock = .irq pc → pc.ept = some k → k < dev.count
  idle : ∀ e < dev.count, p.shared.txLock e = none →
    p.shared.Clear dev e ∧ ¬ p.shared.Serving e
  completing : ∀ e, p.shared.lock = .irq (.complete e) → p.shared.Clear dev e
  sends : System.Forall (fun s i (t : Send) => t.pc.Ok dev s i t.ept) p

def SendPc.Untorn (s : Box) (e : ℕ) : SendPc → Prop
  | .writeEn val    => val = s.txEn (dev.txBlock e)
  | .writeClear val => val = s.txEn (dev.clearBlock e)
  | _               => True

instance (s : Box) (e : ℕ) : (pc : SendPc) → Decidable (pc.Untorn dev s e)
  | .writeEn val    => inferInstanceAs (Decidable (val = s.txEn (dev.txBlock e)))
  | .writeClear val => inferInstanceAs (Decidable (val = s.txEn (dev.clearBlock e)))
  | .start | .setup | .fill _ | .readEn | .wait | .timedOut | .readClear | .returned _ =>
    .isTrue trivial

/-- What a send that waits or works on endpoint `e` has to do with is the same. -/
structure Keeps (dev : Device) (s s' : Box) (j e : ℕ) : Prop where
  txLock : s'.txLock e = s.txLock e
  clear : s'.Clear dev e ↔ s.Clear dev e
  serving : s'.Serving e → s.Serving e
  done : s'.done e = s.done e
  lock : s.lock = .sender j → s'.lock = .sender j

section

variable {dev : Device} {s s' : Box} {i j e e' : ℕ} {data : List UInt8} {pc pc' : SendPc}

lemma SendPc.Ok.keep (h : pc.Ok dev s j e)
    (hk : s.txLock e = some j → Keeps dev s s' j e) : pc.Ok dev s' j e := by
  cases pc with
  | start | returned => trivial
  | setup =>
    obtain ⟨hlock, hclear, hserving⟩ := h
    have hk := hk hlock
    exact ⟨hk.txLock.trans hlock, hk.clear.mpr hclear, fun h => hserving (hk.serving h)⟩
  | fill | readEn | writeEn =>
    obtain ⟨hlock, hclear, hserving, hdone⟩ := h
    have hk := hk hlock
    exact ⟨hk.txLock.trans hlock, hk.clear.mpr hclear, fun h => hserving (hk.serving h),
      hk.done.trans hdone⟩
  | wait =>
    obtain ⟨hlock, hwait⟩ := h
    have hk := hk hlock
    refine ⟨hk.txLock.trans hlock, fun h => hk.done.trans (hwait ?_)⟩
    exact h.imp (fun h hc => h (hk.clear.mpr hc)) hk.serving
  | timedOut => exact (hk h).txLock.trans h
  | readClear | writeClear =>
    obtain ⟨hlock, hsender⟩ := h
    exact ⟨(hk hlock).txLock.trans hlock, (hk hlock).lock hsender⟩

lemma SendPc.Ok.engaged (h : pc.Ok dev s j e) (he : ¬ s.Clear dev e ∨ s.Serving e)
    (hlock : s.lock ≠ .sender j) (htx : s'.txLock e = s.txLock e)
    (hwait : s.done e = 0 → ¬ s'.Clear dev e ∨ s'.Serving e → s'.done e = 0) :
    pc.Ok dev s' j e := by
  cases pc with
  | start | returned => trivial
  | setup =>
    obtain ⟨-, hclear, hserving⟩ := h
    exact absurd he (not_or.mpr ⟨not_not.mpr hclear, hserving⟩)
  | fill | readEn | writeEn =>
    obtain ⟨-, hclear, hserving, -⟩ := h
    exact absurd he (not_or.mpr ⟨not_not.mpr hclear, hserving⟩)
  | wait => exact ⟨htx.trans h.1, hwait (h.2 he)⟩
  | timedOut => exact htx.trans h
  | readClear | writeClear => exact absurd h.2 hlock

lemma Acts.onlyBit (ha : Acts dev s i e data pc s' pc') (hn : dev.clearBlock e = dev.txBlock e)
    (hg : pc.Untorn dev s e) : OnlyBit dev e s.txEn s'.txEn := by
  cases ha with
  | enodev | lock | setup | filled | readEn | done | timeout | acquire | readClear =>
    exact .refl dev e _
  | fill pos hpos =>
    rw [(same_push s _ _ _).txEn]
    exact .refl dev e _
  | writeEn val =>
    obtain rfl : val = _ := hg
    exact onlyBit_set dev s e
  | writeClear val =>
    obtain rfl : val = _ := hg
    rw [hn]
    exact onlyBit_clear dev s e

lemma Acts.lock_irq (ha : Acts dev s i e data pc s' pc') {q : IrqPc} (h : s'.lock = .irq q) :
    s.lock = .irq q := by
  cases ha with
  | enodev | lock | setup | filled | readEn | writeEn | done | timeout | readClear => exact h
  | fill pos hpos =>
    rw [push_lock] at h
    exact h
  | acquire hfree => cases h
  | writeClear val => cases h

lemma Acts.serving (ha : Acts dev s i e data pc s' pc') (h : s'.Serving e') : s.Serving e' := by
  obtain ⟨q, hq, hserves⟩ := h
  exact ⟨q, ha.lock_irq hq, hserves⟩

lemma Acts.lock_sender (ha : Acts dev s i e data pc s' pc') (hok : pc.Ok dev s i e) (hne : j ≠ i)
    (h : s.lock = .sender j) : s'.lock = .sender j := by
  cases ha with
  | enodev | lock | setup | filled | readEn | writeEn | done | timeout | readClear => exact h
  | fill pos hpos =>
    rw [push_lock]
    exact h
  | acquire hfree =>
    rw [hfree] at h
    cases h
  | writeClear val =>
    have hi : s.lock = .sender i := hok.2
    rw [hi] at h
    cases h
    exact absurd rfl hne

lemma Acts.txLock_of_ne (ha : Acts dev s i e data pc s' pc') (hne : e' ≠ e) :
    s'.txLock e' = s.txLock e' := by
  cases ha with
  | enodev | setup | filled | readEn | writeEn | timeout | acquire | readClear => rfl
  | lock | done | writeClear => exact update_of_ne hne _ _
  | fill pos hpos => rw [(same_push s _ _ _).txLock]

lemma Acts.done_of_ne (ha : Acts dev s i e data pc s' pc') (hne : e' ≠ e) :
    s'.done e' = s.done e' := by
  cases ha with
  | enodev | filled | lock | readEn | writeEn | timeout | acquire | readClear | writeClear => rfl
  | setup | done => exact update_of_ne hne _ _
  | fill pos hpos => rw [(same_push s _ _ _).done]

lemma Acts.owner (ha : Acts dev s i e data pc s' pc') (hok : pc.Ok dev s i e) :
    s' = s ∨ s.txLock e = none ∨ s.txLock e = some i := by
  cases ha with
  | enodev | filled | readEn | timeout | readClear => exact .inl rfl
  | lock hfree => exact .inr (.inl hfree)
  | acquire hfree => exact .inr (.inr hok)
  | setup | fill | writeEn | done | writeClear => exact .inr (.inr hok.1)

lemma Acts.keeps (ha : Acts dev s i e data pc s' pc') (hok : pc.Ok dev s i e)
    (hbit : OnlyBit dev e s.txEn s'.txEn) (hd : dev.Distinct) (he : e < dev.count)
    (he' : e' < dev.count) (hj : s.txLock e' = some j) (hne : j ≠ i) : Keeps dev s s' j e' := by
  rcases ha.owner hok with rfl | howner
  · exact ⟨rfl, Iff.rfl, id, rfl, id⟩
  · have hee : e' ≠ e := by
      rintro rfl
      rcases howner with hnone | hsome
      · rw [hnone] at hj
        cases hj
      · rw [hsome] at hj
        exact hne (Option.some.inj hj).symm
    exact ⟨ha.txLock_of_ne hee, hbit.clear_iff hd he he' hee, ha.serving, ha.done_of_ne hee,
      ha.lock_sender hok hne⟩

lemma Acts.txEn_of_serving (ha : Acts dev s i e data pc s' pc') (hok : pc.Ok dev s i e)
    (h : s.Serving e) : s'.txEn = s.txEn := by
  cases ha with
  | enodev | lock | setup | filled | readEn | done | timeout | acquire | readClear => rfl
  | fill pos hpos => exact (same_push s _ _ _).txEn
  | writeEn val =>
    obtain ⟨-, -, hserving, -⟩ := hok
    exact absurd h hserving
  | writeClear val =>
    obtain ⟨-, hsender⟩ := hok
    obtain ⟨q, hq, -⟩ := h
    rw [hsender] at hq
    cases hq

lemma Acts.ok (ha : Acts dev s i e data pc s' pc') (hok : pc.Ok dev s i e)
    (hidle : s.txLock e = none → s.Clear dev e ∧ ¬ s.Serving e) : pc'.Ok dev s' i e := by
  cases ha with
  | enodev => trivial
  | lock hfree =>
    obtain ⟨hclear, hserving⟩ := hidle hfree
    exact ⟨update_self _ _ _, hclear, hserving⟩
  | setup hfree =>
    obtain ⟨hlock, hclear, hserving⟩ := hok
    exact ⟨hlock, hclear, hserving, update_self _ _ _⟩
  | fill pos hpos =>
    obtain ⟨hlock, hclear, hserving, hdone⟩ := hok
    have hsame := same_push s (dev.txBlock e) (dev.ept e).txPort
      ⟨packWord ((data.drop pos).take 4), some i⟩
    refine ⟨?_, ?_, ?_, ?_⟩
    · rw [hsame.txLock]
      exact hlock
    · rw [Box.Clear, hsame.txEn]
      exact hclear
    · rw [Box.Serving, push_lock]
      exact hserving
    · rw [hsame.done]
      exact hdone
  | filled pos hpos => exact hok
  | readEn => exact hok
  | writeEn val =>
    obtain ⟨hlock, -, -, hdone⟩ := hok
    exact ⟨hlock, fun _ => hdone⟩
  | done hdone => trivial
  | timeout hdone => exact hok.1
  | acquire hfree => exact ⟨hok, rfl⟩
  | readClear => exact hok
  | writeClear val => trivial

lemma Acts.released (ha : Acts dev s i e data pc s' pc') (hok : pc.Ok dev s i e)
    (hn : dev.clearBlock e = dev.txBlock e)
    (hidle : s.txLock e = none → s.Clear dev e ∧ ¬ s.Serving e) (h : s'.txLock e = none) :
    s'.Clear dev e ∧ ¬ s'.Serving e := by
  cases ha with
  | enodev | filled | readEn | timeout | readClear => exact hidle h
  | lock hfree =>
    have hsome : (s.setTxLock e (some i)).txLock e = some i := update_self _ _ _
    rw [hsome] at h
    cases h
  | setup hfree => exact absurd (hok.1.symm.trans h) (some_ne_none i)
  | fill pos hpos =>
    rw [(same_push s _ _ _).txLock] at h
    exact absurd (hok.1.symm.trans h) (some_ne_none i)
  | writeEn val => exact absurd (hok.1.symm.trans h) (some_ne_none i)
  | acquire hfree => exact absurd (Eq.symm hok |>.trans h) (some_ne_none i)
  | done hdone =>
    obtain ⟨-, hwait⟩ := hok
    rw [imp_iff_not hdone, not_or, not_not] at hwait
    exact hwait
  | writeClear val =>
    refine ⟨?_, ?_⟩
    · rw [hn]
      exact clear_setTxEn dev s e val
    · rintro ⟨q, hq, -⟩
      cases hq

end

/-! ### Runs -/

def Lock.Untorn (s : Box) : Lock → Prop
  | .irq (.clearWrite k val) => val = s.txEn (dev.clearBlock k)
  | _ => True

instance (s : Box) (lock : Lock) : Decidable (lock.Untorn dev s) := by
  unfold Lock.Untorn
  split <;> infer_instance

def Untorn (dev : Device) (p : Pool Box Send) : Label Send Bool Event → Prop
  | .act i _ => ∀ t ∈ p.threads[i]?, t.pc.Untorn dev p.shared t.ept
  | .env _   => p.shared.lock.Untorn dev p.shared
  | .spawn _ => True

instance (p : Pool Box Send) : (l : Label Send Bool Event) →
    Decidable (Untorn dev p l)
  | .act i _ => inferInstanceAs (Decidable (∀ t ∈ p.threads[i]?, t.pc.Untorn dev p.shared t.ept))
  | .env _   => inferInstanceAs (Decidable (p.shared.lock.Untorn dev p.shared))
  | .spawn _ => .isTrue trivial

section

variable {dev : Device} {p p' : Pool Box Send} {s' : Box}

lemma neighbours_block (hn : dev.Neighbours) {e : ℕ} (he : e < dev.count) :
    dev.clearBlock e = dev.txBlock e := clearBlock_eq_txBlock_iff.mpr (hn e he)

lemma Enabled.act (h : Enabled dev p) (hn : dev.Neighbours) (hd : dev.Distinct) {i : ℕ}
    {t t' : Send} (ht : p.threads[i]? = some t) (hu : t.pc.Untorn dev p.shared t.ept)
    (ha : Acts dev p.shared i t.ept t.data t.pc s' t'.pc) (hept : t'.ept = t.ept) :
    Enabled dev ⟨s', p.threads.set i t'⟩ := by
  have he := h.ept i t ht
  have hok := h.sends i t ht
  have hblock := neighbours_block hn he
  have hbit := ha.onlyBit hblock hu
  refine ⟨?_, ?_, ?_, ?_, ?_⟩
  · intro j u hj
    rcases System.getElem?_set_cases hj with ⟨-, rfl⟩ | ⟨-, hj'⟩
    · rw [hept]
      exact he
    · exact h.ept j u hj'
  · intro q k hq hk
    exact h.irq q k (ha.lock_irq hq) hk
  · intro e' he' hnone
    by_cases hee : e' = t.ept
    · subst hee
      exact ha.released hok hblock (h.idle _ he) hnone
    · obtain ⟨hclear, hserving⟩ := h.idle e' he' ((ha.txLock_of_ne hee).symm.trans hnone)
      exact ⟨(hbit.clear_iff hd he he' hee).mpr hclear, fun hs => hserving (ha.serving hs)⟩
  · intro e' hlock
    have hlock' := ha.lock_irq hlock
    have hclear := h.completing e' hlock'
    by_cases hee : e' = t.ept
    · subst hee
      have hsame := ha.txEn_of_serving hok ⟨_, hlock', rfl⟩
      simp only [Box.Clear, hsame]
      exact hclear
    · exact (hbit.clear_iff hd he (h.irq _ e' hlock' rfl) hee).mpr hclear
  · intro j u hj
    rcases System.getElem?_set_cases hj with ⟨rfl, rfl⟩ | ⟨hne, hj'⟩
    · rw [hept]
      exact ha.ok hok (h.idle _ he)
    · refine (h.sends j u hj').keep fun hlock => ?_
      exact ha.keeps hok hbit hd he (h.ept j u hj') hlock hne

lemma Enabled.same (h : Enabled dev p) (hsame : Same p.shared s')
    (hirq : ∀ q k, s'.lock = .irq q → q.ept = some k → k < dev.count)
    (hserving : ∀ e, s'.Serving e → p.shared.Serving e)
    (hcomplete : ∀ e, s'.lock = .irq (.complete e) → p.shared.lock = .irq (.complete e))
    (hsender : ∀ j, p.shared.lock = .sender j → s'.lock = .sender j) :
    Enabled dev ⟨s', p.threads⟩ := by
  have hclear : ∀ e, s'.Clear dev e ↔ p.shared.Clear dev e := by
    intro e
    rw [Box.Clear, hsame.txEn, Box.Clear]
  refine ⟨h.ept, hirq, ?_, ?_, ?_⟩
  · intro e he hnone
    have hnone' : p.shared.txLock e = none := by
      rw [← hsame.txLock]
      exact hnone
    obtain ⟨hc, hs⟩ := h.idle e he hnone'
    exact ⟨(hclear e).mpr hc, fun h => hs (hserving e h)⟩
  · intro e hlock
    exact (hclear e).mpr (h.completing e (hcomplete e hlock))
  · intro j u hj
    refine (h.sends j u hj).keep fun _ => ?_
    exact ⟨congrFun hsame.txLock _, hclear _, hserving _, congrFun hsame.done _, hsender j⟩

lemma irq_lt_count {q : IrqPc} {k : ℕ} (hlock : s'.lock = .irq q) (hept : q.ept = some k)
    (hk : k < dev.count) : ∀ q' k', s'.lock = .irq q' → q'.ept = some k' → k' < dev.count := by
  intro q' k' hq' hk'
  obtain rfl := Lock.irq.inj (hlock.symm.trans hq')
  obtain rfl := Option.some.inj (hept.symm.trans hk')
  exact hk

lemma Enabled.served (h : Enabled dev p) {q : IrqPc} {k : ℕ} (hk : k < dev.count)
    (hlock : s'.lock = .irq q) (hept : q.ept = some k) (hserving : ∀ e, s'.Serving e → e = k)
    (htx : s'.txLock = p.shared.txLock) (hdone : ∀ e ≠ k, s'.done e = p.shared.done e)
    (hclear : ∀ e < dev.count, e ≠ k → (s'.Clear dev e ↔ p.shared.Clear dev e))
    (hnosender : ∀ j, p.shared.lock ≠ .sender j)
    (hengaged : ¬ p.shared.Clear dev k ∨ p.shared.Serving k)
    (hwait : p.shared.done k = 0 → ¬ s'.Clear dev k ∨ s'.Serving k → s'.done k = 0)
    (hcomplete : ∀ e, s'.lock = .irq (.complete e) → s'.Clear dev e) :
    Enabled dev ⟨s', p.threads⟩ := by
  refine ⟨h.ept, irq_lt_count hlock hept hk, ?_, hcomplete, ?_⟩
  · intro e he hnone
    obtain ⟨hc, hs⟩ := h.idle e he ((congrFun htx e).symm.trans hnone)
    by_cases hek : e = k
    · subst hek
      exact absurd hengaged (not_or.mpr ⟨not_not.mpr hc, hs⟩)
    · exact ⟨(hclear e he hek).mpr hc, fun hse => hek (hserving e hse)⟩
  · intro j u hj
    have htx' := congrFun htx u.ept
    by_cases huk : u.ept = k
    · subst huk
      exact (h.sends j u hj).engaged hengaged (hnosender j) htx' hwait
    · refine (h.sends j u hj).keep fun _ => ?_
      exact ⟨htx', hclear _ (h.ept j u hj) huk, fun hse => absurd (hserving _ hse) huk,
        hdone _ huk, fun hl => absurd hl (hnosender j)⟩

lemma Enabled.irqStep (h : Enabled dev p) (hn : dev.Neighbours) (hd : dev.Distinct) {q : IrqPc}
    (hq : p.shared.lock = .irq q)
    (hu : ∀ k val, q = .clearWrite k val → val = p.shared.txEn (dev.clearBlock k))
    (hs : IrqSteps dev p.shared q s') : Enabled dev ⟨s', p.threads⟩ := by
  have hnosender : ∀ j, p.shared.lock ≠ .sender j := by
    intro j hj
    rw [hq] at hj
    cases hj
  have hown : ∀ {s : Box} {q' : IrqPc} {k : ℕ}, s.lock = .irq q' → q'.serves = some k →
      ∀ e, s.Serving e → e = k := fun hlock hserves e hse =>
    Option.some.inj (((serving_iff hlock).mp hse).symm.trans hserves)
  cases hs with
  | leave =>
    refine h.same (same_setLock _ _) ?_ ?_ ?_ fun j hj => absurd hj (hnosender j)
    · intro q' k hq'
      cases hq'
    · rintro e ⟨q', hq', -⟩
      cases hq'
    · intro e he
      cases he
  | walk hsame hlock hept hout =>
    refine h.same hsame ?_ ?_ ?_ fun j hj => absurd hj (hnosender j)
    · intro q' k hq' hk
      obtain rfl := Lock.irq.inj (hlock.symm.trans hq')
      rcases hept k hk with hk' | hk'
      · exact h.irq q k hq hk'
      · exact hk'
    · intro e hse
      rw [serving_iff hlock, hout] at hse
      cases hse
    · intro e he
      obtain rfl := Lock.irq.inj (hlock.symm.trans he)
      cases hout
  | @see k hbit =>
    refine h.served (h.irq _ k hq rfl) rfl rfl (hown rfl rfl) rfl (fun _ _ => rfl)
      (fun _ _ _ => Iff.rfl) hnosender (.inl hbit) (fun hdone _ => hdone) ?_
    intro e he
    cases he
  | @serve _ q' _ k hsame hlock hin hin' hpc hnot =>
    refine h.same hsame ?_ ?_ ?_ fun j hj => absurd hj (hnosender j)
    · intro q'' k' hq'' hk'
      obtain rfl := Lock.irq.inj (hlock.symm.trans hq'')
      exact h.irq q k' hq (hpc ▸ hk')
    · intro e hse
      rw [serving_iff hlock, hin', ← hin] at hse
      exact (serving_iff hq).mpr hse
    · intro e he
      obtain rfl := Lock.irq.inj (hlock.symm.trans he)
      obtain rfl := Option.some.inj hin'
      exact absurd rfl hnot
  | clear k val =>
    have hk : k < dev.count := h.irq _ k hq rfl
    have hbit := onlyBit_clear dev p.shared k
    obtain rfl := hu k val rfl
    rw [neighbours_block hn hk]
    refine h.served hk rfl rfl (hown rfl rfl) rfl (fun _ _ => rfl)
      (fun e he hek => hbit.clear_iff hd hk he hek) hnosender (.inr ⟨_, hq, rfl⟩)
      (fun hdone _ => hdone) ?_
    intro e he
    cases he
    exact clear_setTxEn dev p.shared k _
  | complete k =>
    have hout : ∀ e, ¬ ((p.shared.setDone k (p.shared.done k + 1)).setLock
        (.irq (.txAck k))).Serving e := by
      intro e hse
      cases (serving_iff rfl).mp hse
    refine h.served (h.irq _ k hq rfl) rfl rfl (fun e hse => absurd hse (hout e)) rfl
      (fun e he => update_of_ne he _ _) (fun _ _ _ => Iff.rfl) hnosender (.inr ⟨_, hq, rfl⟩) ?_ ?_
    · -- the bit is clear when the send is released
      rintro - (hset | hse)
      · exact absurd (h.completing k hq) hset
      · exact absurd hse (hout k)
    · intro e he
      cases he

variable {l : Label Send Bool Event}

lemma Enabled.step (h : Enabled dev p) (hn : dev.Neighbours) (hd : dev.Distinct)
    (hu : Untorn dev p l) (hs : (system dev).step p l = some p') : Enabled dev p' := by
  cases System.steps_of_step hs with
  | act ht ha =>
    obtain ⟨hacts, hept, -⟩ := acts_of_act ha
    exact h.act hn hd ht (hu _ ht) hacts hept
  | env hx =>
    cases events_of_event hx with
    | enter hfree =>
      refine h.same (same_setLock _ _) ?_ ?_ ?_ ?_
      · intro q k hq hk
        obtain rfl := Lock.irq.inj hq
        cases hk
      · intro e hse
        cases (serving_iff rfl).mp hse
      · intro e he
        cases he
      · intro j hj
        rw [hfree] at hj
        cases hj
    | irq hlock hirq =>
      refine h.irqStep hn hd hlock ?_ hirq
      rintro k val rfl
      have hval : p.shared.lock.Untorn dev p.shared := hu
      rw [hlock] at hval
      exact hval
    | quiet hsame hlock =>
      refine h.same hsame ?_ ?_ ?_ ?_
      · intro q k hq
        exact h.irq q k (hlock.symm.trans hq)
      · rintro e ⟨q, hq, hserves⟩
        exact ⟨q, hlock.symm.trans hq, hserves⟩
      · intro e he
        exact hlock.symm.trans he
      · intro j hj
        exact hlock.trans hj
  | @spawn t ht =>
    obtain ⟨hept, hpc⟩ := of_decide_eq_true ht
    refine ⟨?_, h.irq, h.idle, h.completing, ?_⟩
    · intro j u hj
      rcases System.getElem?_concat_cases hj with ⟨-, rfl⟩ | hj'
      · exact hept
      · exact h.ept j u hj'
    · intro j u hj
      rcases System.getElem?_concat_cases hj with ⟨-, rfl⟩ | hj'
      · rw [hpc]
        trivial
      · exact h.sends j u hj'

def acting (p : Pool Box Send) : Label Send Bool Event → Option ℕ
  | .act i _  => p.threads[i]?.map Send.ept
  | .env .irq =>
    match p.shared.lock with
    | .irq pc => pc.ept
    | _       => none
  | _ => none

/-- A step changes at most the TX bit of the endpoint that it is made for, and no RX enable word. -/
structure OthersKept (dev : Device) (own : Option ℕ) (s s' : Box) : Prop where
  none : own = none → s'.txEn = s.txEn
  some : ∀ e, own = some e → OnlyBit dev e s.txEn s'.txEn
  rx : s'.rxEn = s.rxEn

lemma OthersKept.of_eq {own : Option ℕ} {s s' : Box} (htx : s'.txEn = s.txEn)
    (hrx : s'.rxEn = s.rxEn) : OthersKept dev own s s' := by
  refine ⟨fun _ => htx, fun e _ => ?_, hrx⟩
  rw [htx]
  exact .refl dev e _

lemma Acts.rxEn {s s' : Box} {i e : ℕ} {data : List UInt8} {pc pc' : SendPc}
    (ha : Acts dev s i e data pc s' pc') : s'.rxEn = s.rxEn := by
  cases ha with
  | fill pos hpos => exact (same_push s _ _ _).rxEn
  | enodev | lock | setup | filled | readEn | writeEn | done | timeout | acquire | readClear
  | writeClear => rfl

lemma Enabled.othersKept (h : Enabled dev p) (hn : dev.Neighbours) (hu : Untorn dev p l)
    (hs : (system dev).step p l = some p') : OthersKept dev (acting p l) p.shared p'.shared := by
  cases System.steps_of_step hs with
  | @act i ev t t' s' ht ha =>
    obtain ⟨hacts, -, -⟩ := acts_of_act ha
    have hbit := hacts.onlyBit (neighbours_block hn (h.ept i t ht)) (hu t ht)
    have hact : acting p (.act i ev) = some t.ept := by
      rw [acting, ht]
      rfl
    refine ⟨?_, ?_, hacts.rxEn⟩
    · intro hnone
      rw [hact] at hnone
      cases hnone
    · intro e he
      rw [hact] at he
      cases he
      exact hbit
  | env hx =>
    cases events_of_event hx with
    | enter hfree => exact .of_eq rfl rfl
    | quiet hsame hlock => exact .of_eq hsame.txEn hsame.rxEn
    | @irq q _ hlock hirq =>
      have hval : p.shared.lock.Untorn dev p.shared := hu
      have hept := h.irq q
      have hact : acting p (.env .irq) = q.ept := by
        simp only [acting, hlock]
      rw [hact]
      cases hirq with
      | leave | see | complete => exact .of_eq rfl rfl
      | walk hsame | serve hsame => exact .of_eq hsame.txEn hsame.rxEn
      | clear k val =>
        rw [hlock] at hval
        obtain rfl : val = p.shared.txEn (dev.clearBlock k) := hval
        refine ⟨fun hnone => ?_, fun e he => ?_, rfl⟩
        · cases hnone
        obtain rfl := Option.some.inj he
        rw [neighbours_block hn (hept _ hlock rfl)]
        exact onlyBit_clear dev p.shared k
  | spawn ht => exact .of_eq rfl rfl

lemma txLock_of_returns (hs : (system dev).step p l = some p') {i : ℕ} {t t' : Send}
    (ht : p.threads[i]? = some t) (ht' : p'.threads[i]? = some t') (hpc : t.pc ≠ t'.pc)
    (hret : t'.pc = .returned .ok ∨ t'.pc = .returned .etimedout) :
    p'.shared.txLock t.ept = none := by
  cases System.steps_of_step hs with
  | @act j ev u u' s' hu ha =>
    rcases System.getElem?_set_cases ht' with ⟨rfl, rfl⟩ | ⟨hne, htj⟩
    · obtain rfl := Option.some.inj (hu.symm.trans ht)
      obtain ⟨hacts, -, -⟩ := acts_of_act ha
      generalize t'.pc = q at hacts hret
      generalize u.pc = q₀ at hacts
      cases hacts with
      | done | writeClear => exact update_self _ _ _
      | enodev | lock | setup | fill | filled | readEn | writeEn | timeout | acquire | readClear =>
        rcases hret with h | h <;> cases h
    · exact absurd (congrArg Send.pc (Option.some.inj (ht.symm.trans htj))) hpc
  | env hx => exact absurd (congrArg Send.pc (Option.some.inj (ht.symm.trans ht'))) hpc
  | spawn _ =>
    rcases System.getElem?_concat_cases ht' with ⟨hj, rfl⟩ | htj
    · have hlt := (List.getElem?_eq_some_iff.mp ht).1
      omega
    · exact absurd (congrArg Send.pc (Option.some.inj (ht.symm.trans htj))) hpc

lemma enabled_init {txEn txStat rxEn rxStat : Block → UInt32}
    (hclear : ∀ e < dev.count, txEn (dev.txBlock e) &&& dev.txBit e = 0) :
    Enabled dev ⟨.init txEn txStat rxEn rxStat, []⟩ := by
  refine ⟨?_, ?_, ?_, ?_, ?_⟩
  · intro i t ht
    cases ht
  · intro q k hq
    cases hq
  · intro e he _
    refine ⟨hclear e he, ?_⟩
    rintro ⟨q, hq, -⟩
    cases hq
  · intro e he
    cases he
  · intro i t ht
    cases ht

end

/-- For neighbouring CPUs and endpoints that do not share a TX enable bit: while no enable word
changes between the two accesses of a change to it, each step leaves all enable bits but that of its
endpoint, which is clear when a send returns. The destruction of an endpoint undoes its creation
only if the region of the other CPU is not mapped. -/
theorem enable_bits (dev : Device) (hn : dev.Neighbours) (hd : dev.Distinct)
    {txEn txStat rxEn rxStat : Block → UInt32}
    (hclear : ∀ e < dev.count, txEn (dev.txBlock e) &&& dev.txBit e = 0)
    {as : List (Label Send Bool Event)} {p p' : Pool Box Send} {l : Label Send Bool Event}
    (hg : Guarded (system dev).step (Untorn dev) ⟨.init txEn txStat rxEn rxStat, []⟩ (as ++ [l]))
    (hr : run (system dev).step ⟨.init txEn txStat rxEn rxStat, []⟩ as = some p)
    (hs : (system dev).step p l = some p') :
    (∀ (i : ℕ) (t t' : Send), p.threads[i]? = some t → p'.threads[i]? = some t' → t.pc ≠ t'.pc →
      t'.pc = .returned .ok ∨ t'.pc = .returned .etimedout → p'.shared.Clear dev t.ept) ∧
    OthersKept dev (acting p l) p.shared p'.shared ∧
    ∀ e, dev.DestroysExactly e ↔ dev.sxBase (dev.ept e).remote = false := by
  have hp : Enabled dev p := hg.append_left.invariant
    (fun _ _ _ h hu hs => h.step hn hd hu hs) (enabled_init hclear) hr
  have hu : Untorn dev p l := hg.last hr
  refine ⟨?_, hp.othersKept hn hu hs, destroysExactly_iff dev⟩
  intro i t t' ht ht' hpc hret
  exact ((hp.step hn hd hu hs).idle t.ept (hp.ept i t ht) (txLock_of_returns hs ht ht' hpc hret)).1

def oneSend (b : Block) : List (Label Send Bool Event) :=
  .spawn ⟨0, [7], .start⟩ :: List.replicate 6 (.act 0 false) ++
    [.env (.txStatus b 2), .env .enter] ++ List.replicate 11 (.env .irq)

/-- Two endpoints at one sub-block. -/
def twoEndpoints : Device :=
  { oneEndpoint 1 Nat.one_ne_zero with
    count := 2
    ept := fun e => ⟨1, e % 2, e % 2, by omega, by omega⟩
    remote_ne := fun _ => Nat.one_ne_zero }

/-- Two sends, of which the second has timed out and read the enable word. -/
def twoSends : List (Label Send Bool Event) :=
  .spawn ⟨0, [7], .start⟩ :: List.replicate 6 (.act 0 false) ++
    .spawn ⟨1, [8], .start⟩ :: List.replicate 6 (.act 1 false) ++
    [.act 1 true, .act 1 false, .act 1 false]

/-- The second send clears its own bit, and leaves that of the first. -/
theorem enable_bits_neighbour :
    ∃ p p', run (system twoEndpoints).step ⟨.init 0 0 0 0, []⟩ twoSends = some p ∧
      (system twoEndpoints).step p (.act 1 false) = some p' ∧
      p'.shared.Clear twoEndpoints 1 ∧ p'.shared.txEn (1, 0) &&& 2 = 2 := by
  have hpool : ((run (system twoEndpoints).step ⟨.init 0 0 0 0, []⟩ twoSends).map fun p =>
      (p.threads, p.shared.txEn (1, 0))) =
        some ([⟨0, [7], .wait⟩, ⟨1, [8], .writeClear 10⟩], 10) := by decide
  obtain ⟨p, hp, hall⟩ := map_eq_some_iff.mp hpool
  obtain ⟨hthreads, hword⟩ := Prod.mk.inj hall
  have hpool' : ((run (system twoEndpoints).step ⟨.init 0 0 0 0, []⟩
      (twoSends ++ [.act 1 false])).map Pool.threads) =
        some [⟨0, [7], .wait⟩, ⟨1, [8], .returned .etimedout⟩] := by decide
  rw [run_append, hp, bind_some] at hpool'
  obtain ⟨p', hp', hthreads'⟩ := map_eq_some_iff.mp hpool'
  obtain ⟨p'', hs, hnil⟩ := run_cons_eq_some.mp hp'
  obtain rfl := Option.some.inj hnil
  obtain ⟨hclear, hkept, -⟩ := enable_bits twoEndpoints (by decide) (by decide) (by decide)
    (by decide) hp hs
  have hacting : acting p (.act 1 false) = some 1 := by
    rw [acting, hthreads]
    rfl
  refine ⟨p, p'', hp, hs, ?_, ?_⟩
  · refine hclear 1 ⟨1, [8], .writeClear 10⟩ ⟨1, [8], .returned .etimedout⟩ ?_ ?_ (by decide)
      (.inr rfl)
    · rw [hthreads]
      rfl
    · rw [hthreads']
      rfl
  · have hbit := hkept.some 1 hacting (1, 0) 2 fun _ => by decide
    rw [hbit, hword]
    decide

/-- After a send from CPU 0 to CPU 2 its enable bit at sub-block 1 is still set, and that of another
peer at sub-block 0 has been cleared. The RX enable bit of a destroyed endpoint is still set. -/
theorem enable_bit_left :
    ((run (system (oneEndpoint 2 (Nat.succ_ne_zero 1))).step
      ⟨.init (fun b => if b = (2, 0) then 2 else 0) 0 0 0, []⟩
      (oneSend (2, 1) ++ [.act 0 false])).map fun p =>
        (p.threads, p.shared.txEn (2, 1), p.shared.txEn (2, 0))) =
      some ([⟨0, [7], .returned .ok⟩], 2, 0) ∧
    ((oneEndpoint 1 Nat.one_ne_zero).sxEptDestroy 0
      ((oneEndpoint 1 Nat.one_ne_zero).sxCreateEpt 0 ⟨0, 0⟩)).rxEn (0, 0) = 1 := by
  decide

end Msgbox
