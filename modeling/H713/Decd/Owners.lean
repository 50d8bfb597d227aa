import H713.Decd.Display
import Mathlib.Algebra.Order.Group.Multiset
import Mathlib.Data.Nat.SuccPred
import Mathlib.Tactic.Abel

/-!
# The owners of the frames

References to a frame move between the lists, the pair of fields, the slots, the FIFOs and some
pointers. One is given up without a put in three places: the first frame of an interlaced stream,
the overwritten `last_frame`, and what a full FIFO drops.
-/

namespace Decd

open Machine List Option

def FramePtr.held (vf : FramePtr) : Multiset ℕ := vf.frames

@[simp] lemma FramePtr.held_null : FramePtr.null.held = 0 := rfl

@[simp] lemma FramePtr.held_frame (f : ℕ) : (FramePtr.frame f).held = {f} := rfl

lemma FramePtr.held_eq_zero {vf : FramePtr} (h : vf ≠ .one) : vf.held = 0 ↔ vf = .null := by
  cases vf with
  | null => exact iff_of_true rfl rfl
  | one => exact absurd rfl h
  | frame f => exact iff_of_false (Multiset.singleton_ne_zero f) fun h => by cases h

variable (fifo : List FramePtr)

def heldAll : Multiset ℕ := (fifo.map FramePtr.held).sum

def dropped (vf : FramePtr) : Multiset ℕ :=
  if fifo.length < Manager.fifoSize then 0 else vf.held

lemma heldAll_cons (vf : FramePtr) (fifo : List FramePtr) :
    heldAll (vf :: fifo) = vf.held + heldAll fifo := by
  rw [heldAll, map_cons, sum_cons, heldAll]

lemma dropped_add_heldAll (vf : FramePtr) :
    dropped fifo vf + heldAll (Manager.kfifoIn fifo vf) = heldAll fifo + vf.held := by
  unfold dropped Manager.kfifoIn
  split_ifs
  · rw [heldAll, map_append, sum_append, heldAll, map_singleton, sum_singleton,
      zero_add]
  · exact add_comm _ _

lemma dropped_eq_zero {fifo : List FramePtr} {vf : FramePtr} (h : vf ≠ .one) :
    dropped fifo vf = 0 ↔ (vf ≠ .null → fifo.length < Manager.fifoSize) := by
  unfold dropped
  split_ifs with hroom
  · exact iff_of_true rfl fun _ => hroom
  · rw [FramePtr.held_eq_zero h]
    exact ⟨fun h0 hne => absurd h0 hne, fun himp => by_contra fun hne => hroom (himp hne)⟩

namespace Manager

variable {m m' : Manager} {f k : ℕ} {rest : List ℕ} {lost : Multiset ℕ} {e : Event}

def slotFrames (m : Manager) : Multiset ℕ :=
  ([m.slot0, m.slot1, m.slot2, m.slot3].flatMap FramePtr.frames).dedup

def leaving (m : Manager) : Multiset ℕ := m.lastReleased.held + heldAll m.releaseFifo

def holdPointers (m : Manager) : Multiset ℕ :=
  m.interlaceHold.held + m.interlaceTop.held + m.interlaceBottom.held + m.shutdownHold.held

def elsewhere (m : Manager) : Multiset ℕ :=
  m.pair0.held + m.pair1.held + heldAll m.recycleFifo + m.holdPointers + m.lastFrame.held

def holders (m : Manager) : Multiset ℕ := m.ready + m.slotFrames + m.leaving + m.elsewhere

def Accounted (m : Manager) : Prop := m.counts.Balanced (Set.Iio m.created) m.holders

def HoldLive (m : Manager) : Prop :=
  m.interlaceHold = .null ∨ ∃ f, m.interlaceHold = .frame f ∧ m.counts.refs f ≠ 0

lemma not_holdLive (h : m.interlaceHold = .one) : ¬ m.HoldLive := by
  rintro (hnull | ⟨f, hf, -⟩)
  · exact null_ne_one (hnull.symm.trans h)
  · exact frame_ne_one f (hf.symm.trans h)

def Owed (m : Manager) (lost : Multiset ℕ) : Prop :=
  m.counts.Balanced (Set.Iio m.created) (lost + m.holders)

lemma owed_zero : m.Owed 0 ↔ m.Accounted := by rw [Owed, zero_add, Accounted]

lemma Owed.accounted_iff_lost (h : m.Owed lost) : m.Accounted ↔ lost = 0 := by
  refine ⟨fun ha => ?_, fun h0 => owed_zero.mp (h0 ▸ h)⟩
  exact add_eq_right.mp (h.unique ha)

lemma slotFrames_of_shows (h : m.Shows f) : m.slotFrames = {f} := by
  rw [slotFrames, h.1, h.2.1, h.2.2.1, h.2.2.2]
  simp [FramePtr.frames]

lemma balanced_create {c : RefCounts ℕ} {n : ℕ} {held : Multiset ℕ}
    (h : c.Balanced (Set.Iio n) held) :
    (c.create n).Balanced (Set.Iio (n + 1)) (n ::ₘ held) := by
  have hmade : Set.Iio (n + 1) = insert n (Set.Iio n) := Order.Iio_succ_eq_insert n
  rw [hmade]
  exact h.create Set.self_notMem_Iio

/-! ### A stream that has started -/

/-- What holds from the first frame on, if it is a progressive one. -/
structure Started (m : Manager) : Prop where
  interlace : m.interlace = false
  state_ne : m.state ≠ 0
  state_le : m.state ≤ 3
  shows : ∃ f, m.Shows f
  pairs : m.pair0 = .null ↔ m.pair1 = .null
  lastReleased : m.lastReleased ≠ .one
  releaseFifo : .one ∉ m.releaseFifo
  lastFrame : m.lastFrame ≠ .one

/-- A frame comes into the slots, and what they showed goes to `last_released`. -/
structure Shown (m m' : Manager) (f : ℕ) : Prop where
  shows : m'.Shows f
  releaseFifo : m'.releaseFifo = (m.decFrameDeferRelease m.slot3).releaseFifo
  lastReleased : m'.lastReleased = m.slot3
  elsewhere : m'.elsewhere = m.elsewhere
  ready : m'.ready = m.ready
  created : m'.created = m.created
  others : m'.interlace = m.interlace ∧ m'.state = m.state ∧ m'.pair0 = m.pair0 ∧
    m'.pair1 = m.pair1 ∧ m'.lastFrame = m.lastFrame

lemma heldAll_decFrameDeferRelease (m : Manager) (vf : FramePtr) :
    dropped m.releaseFifo m.lastReleased + heldAll (m.decFrameDeferRelease vf).releaseFifo =
      heldAll m.releaseFifo + m.lastReleased.held := by
  by_cases hnull : m.lastReleased = .null
  · simp [decFrameDeferRelease, dropped, hnull]
  · rw [← dropped_add_heldAll, decFrameDeferRelease, if_neg hnull]

lemma one_notMem_decFrameDeferRelease (vf : FramePtr) (hl : m.lastReleased ≠ .one)
    (hq : .one ∉ m.releaseFifo) : .one ∉ (m.decFrameDeferRelease vf).releaseFifo := by
  simp only [decFrameDeferRelease, kfifoIn]
  split_ifs
  · exact hq
  · simp [hq, hl.symm]
  · exact hq

namespace Shown

lemma started (h : Shown m m' f) (hm : m.Started) : m'.Started := by
  obtain ⟨hi, hs, hp₀, hp₁, hl⟩ := h.others
  obtain ⟨k, hk⟩ := hm.shows
  exact {
    interlace := hi.trans hm.interlace
    state_ne := hs ▸ hm.state_ne
    state_le := hs ▸ hm.state_le
    shows := ⟨f, h.shows⟩
    pairs := by rw [hp₀, hp₁, hm.pairs]
    lastReleased := by rw [h.lastReleased, hk.2.2.2]; exact frame_ne_one k
    releaseFifo := h.releaseFifo ▸
      one_notMem_decFrameDeferRelease m.slot3 hm.lastReleased hm.releaseFifo
    lastFrame := hl ▸ hm.lastFrame }

lemma holders (h : Shown m m' f) (hm : m.Started) :
    dropped m.releaseFifo m.lastReleased + m'.holders = f ::ₘ m.holders := by
  obtain ⟨k, hk⟩ := hm.shows
  have hfifo := heldAll_decFrameDeferRelease m m.slot3
  rw [← h.releaseFifo] at hfifo
  rw [Manager.holders, Manager.holders, leaving, leaving, slotFrames_of_shows h.shows,
    slotFrames_of_shows hk, h.ready, h.lastReleased, h.elsewhere, hk.2.2.2, FramePtr.held_frame,
    ← Multiset.singleton_add]
  calc dropped m.releaseFifo m.lastReleased +
        (m.ready + {f} + ({k} + heldAll m'.releaseFifo) + m.elsewhere)
      = dropped m.releaseFifo m.lastReleased + heldAll m'.releaseFifo +
          (m.ready + {f} + {k} + m.elsewhere) := by abel
    _ = {f} + (m.ready + {k} + (m.lastReleased.held + heldAll m.releaseFifo) + m.elsewhere) := by
      rw [hfifo]
      abel

lemma owed (h : Shown m m' f) (hm : m.Started)
    (hb : m'.counts.Balanced (Set.Iio m.created) (f ::ₘ m.holders)) :
    m'.Owed (dropped m.releaseFifo m.lastReleased) := by
  rw [Owed, h.holders hm, h.created]
  exact hb

end Shown

/-! ### Refresh -/

def showPopped (m : Manager) (f : ℕ) : Manager :=
  { (m.decFrameDeferRelease m.slot3).showAll (.frame f) with
    counts := ((m.counts.inc f).inc f).put f, softRepeatCount := 0, dirty := true
    forceInterlace := false }

lemma refreshNext_pair (hp : m.type = 1 ∧ m.pair1 ≠ .null) (hd : m.dirty = false)
    (hf : (if m.softRepeatCount % 2 = 1 then m.pair1 else m.pair0) = .frame f) :
    m.refreshNext = .ok (m.showPopped f) := by
  simp only [refreshNext, decFramePop, if_pos hp, hf, refcountInc, ok_bind]
  rw [decFrameQueueEnqueue_frame (by exact hd), ok_bind, dropOrRequeue, if_pos rfl]
  rfl

def showField (m : Manager) (f : ℕ) : Manager :=
  { (m.decFrameDeferRelease m.slot3).showAll (.frame f) with
    counts := m.counts.inc f, softRepeatCount := 0, dirty := true
    toggle := !m.toggle, fieldPattern := u32 (2 * m.fieldPattern) }

lemma refreshPair_pair (hp : m.pair0 ≠ .null ∧ m.pair1 ≠ .null) (hd : m.dirty = false)
    (hf : (if (!m.toggle) = true then m.pair1 else m.pair0) = .frame f) :
    m.refreshPair = .ok (m.showField f) := by
  simp only [refreshPair, if_pos hp, hf]
  rw [decFrameQueueEnqueue_frame (by exact hd), ok_bind]
  rfl

def Shifts (m : Manager) : Prop :=
  m.dirty = false ∧ m.state = 1 ∧
    (m.forceInterlace = false ∨ m.pair0 ≠ .null ∧ m.pair1 ≠ .null)

lemma exists_frame {vf : FramePtr} (h0 : vf ≠ .null) (h1 : vf ≠ .one) : ∃ f, vf = .frame f := by
  cases vf with
  | null => exact absurd rfl h0
  | one => exact absurd rfl h1
  | frame f => exact ⟨f, rfl⟩

lemma mem_holders_of_shows (h : m.Shows f) : f ∈ m.holders := by
  simp [holders, slotFrames_of_shows h]

lemma mem_holders_of_ready (h : f ∈ m.ready) : f ∈ m.holders := by
  simp [holders, h]

lemma exists_field (c : Prop) [Decidable c] (hnull : m.pair0 ≠ .null ∧ m.pair1 ≠ .null)
    (hone : m.pair0 ≠ .one ∧ m.pair1 ≠ .one) :
    ∃ f, (if c then m.pair1 else m.pair0) = .frame f ∧ f ∈ m.holders := by
  split_ifs
  · obtain ⟨f, hf⟩ := exists_frame hnull.2 hone.2
    exact ⟨f, hf, by simp [holders, elsewhere, hf]⟩
  · obtain ⟨f, hf⟩ := exists_frame hnull.1 hone.1
    exact ⟨f, hf, by simp [holders, elsewhere, hf]⟩

namespace Started

lemma next (h : m.Started) (hrest : m.pair0 ≠ .one ∧ m.pair1 ≠ .one) (ha : m.Accounted)
    (hd : m.dirty = false) (hn : m.refreshNext = .ok m') :
    m'.Started ∧ m'.Owed (dropped m.releaseFifo m.lastReleased) := by
  obtain ⟨k, hk⟩ := h.shows
  by_cases hp : m.type = 1 ∧ m.pair1 ≠ .null
  · have hp₀ : m.pair0 ≠ .null := fun h0 => hp.2 (h.pairs.mp h0)
    obtain ⟨f, hf, hmem⟩ := exists_field (m.softRepeatCount % 2 = 1) ⟨hp₀, hp.2⟩ hrest
    cases (refreshNext_pair hp hd hf).symm.trans hn
    have hshown : Shown m (m.showPopped f) f :=
      ⟨⟨rfl, rfl, rfl, rfl⟩, rfl, rfl, rfl, rfl, rfl, rfl, rfl, rfl, rfl, rfl⟩
    have hbal := ((ha.inc hmem).inc (Multiset.mem_cons_self f _)).put
    exact ⟨hshown.started h, hshown.owed h hbal⟩
  cases hlist : m.ready with
  | nil =>
    cases (refreshNext_nil hp h.interlace hlist hk.1).symm.trans hn
    have hshown : Shown m (m.showAgain k) k :=
      ⟨⟨hk.1, hk.2.1, hk.2.1, hk.2.2.1⟩, rfl, rfl, rfl, rfl, rfl, rfl, rfl, rfl, rfl, rfl⟩
    exact ⟨hshown.started h, hshown.owed h (ha.inc (mem_holders_of_shows hk))⟩
  | cons f rest =>
    cases (refreshNext_cons hp hd hlist).symm.trans hn
    -- the frame is taken from the ready list first
    have h₁ : { m with ready := rest }.Started := ⟨h.1, h.2, h.3, h.4, h.5, h.6, h.7, h.8⟩
    have hshown : Shown { m with ready := rest } (m.showNext f rest) f :=
      ⟨⟨rfl, rfl, rfl, rfl⟩, rfl, rfl, rfl, rfl, rfl, rfl, rfl, rfl, rfl, rfl⟩
    have hholders : m.holders = f ::ₘ { m with ready := rest }.holders := by
      rw [holders, hlist, ← Multiset.cons_coe, Multiset.cons_add, Multiset.cons_add,
        Multiset.cons_add]
      rfl
    have hbal := (ha.inc (mem_holders_of_ready (hlist ▸ mem_cons_self))).put
    rw [hholders] at hbal
    exact ⟨hshown.started h₁, hshown.owed h₁ hbal⟩

lemma pair (h : m.Started) (hrest : m.pair0 ≠ .one ∧ m.pair1 ≠ .one) (ha : m.Accounted)
    (hd : m.dirty = false) (hp : m.pair0 ≠ .null ∧ m.pair1 ≠ .null) (hn : m.refreshPair = .ok m') :
    m'.Started ∧ m'.Owed (dropped m.releaseFifo m.lastReleased) := by
  obtain ⟨f, hf, hmem⟩ := exists_field ((!m.toggle) = true) hp hrest
  cases (refreshPair_pair hp hd hf).symm.trans hn
  have hshown : Shown m (m.showField f) f :=
    ⟨⟨rfl, rfl, rfl, rfl⟩, rfl, rfl, rfl, rfl, rfl, rfl, rfl, rfl, rfl, rfl⟩
  exact ⟨hshown.started h, hshown.owed h (ha.inc hmem)⟩

lemma refreshBody (h : m.Started) (hrest : m.pair0 ≠ .one ∧ m.pair1 ≠ .one)
    (hc : ¬ i32 m.shutdownCounter < 0) (ha : m.Accounted) (hb : m.refreshBody = .ok m') :
    m'.Started ∧ (m.Shifts → m'.Owed (dropped m.releaseFifo m.lastReleased)) ∧
      (¬ m.Shifts → m'.Accounted) := by
  by_cases hd : m.dirty = true
  · have hb' : m.refreshBody = .ok m := if_pos hd
    cases hb'.symm.trans hb
    exact ⟨h, fun hs => absurd (hd.symm.trans hs.1) (by decide), fun _ => ha⟩
  have hd : m.dirty = false := Bool.eq_false_of_not_eq_true hd
  by_cases h1 : m.state = 1
  · have hplay : m.refreshBody = if ¬ m.forceInterlace then m.refreshNext else m.refreshPair := by
      simp [Manager.refreshBody, refreshPlaying, h1, hd, h.interlace]
    rw [hplay] at hb
    split_ifs at hb with hf
    · by_cases hp : m.pair0 ≠ .null ∧ m.pair1 ≠ .null
      · obtain ⟨h', ho⟩ := h.pair hrest ha hd hp hb
        exact ⟨h', fun _ => ho, fun hs => absurd ⟨hd, h1, .inr hp⟩ hs⟩
      · have hb' : m.refreshPair = .ok m := if_neg hp
        cases hb'.symm.trans hb
        refine ⟨h, fun hs => absurd hs.2.2 ?_, fun _ => ha⟩
        exact not_or.mpr ⟨by simpa using hf, hp⟩
    · obtain ⟨h', ho⟩ := h.next hrest ha hd hb
      exact ⟨h', fun _ => ho, fun hs => absurd ⟨hd, h1, .inl (by simpa using hf)⟩ hs⟩
  have hno : ¬ m.Shifts := fun hs => h1 hs.2.1
  by_cases h3 : m.state = 3
  · rw [refreshBody_stopping hc h3 hd, refreshStopping_of_plain h.interlace] at hb
    cases hb
    have htwo : 2 ≠ 0 := by decide
    exact ⟨⟨h.1, htwo, show 2 ≤ 3 by decide, h.4, h.5, h.6, h.7, h.8⟩, fun hs => absurd hs hno,
      fun _ => ha⟩
  · cases (refreshBody_other h.state_le h1 h3).symm.trans hb
    exact ⟨h, fun hs => absurd hs hno, fun _ => ha⟩

end Started

/-! ### The work item -/

lemma videoFramePut_owed {vf : FramePtr} {held : Multiset ℕ}
    (h : m.counts.Balanced (Set.Iio m.created) (vf.held + held))
    (hp : m.videoFramePut vf = .ok m') :
    m'.counts.Balanced (Set.Iio m.created) held := by
  cases vf with
  | null =>
    cases hp
    rwa [FramePtr.held_null, zero_add] at h
  | one => cases hp
  | frame f =>
    cases hp
    rw [FramePtr.held_frame, Multiset.singleton_add] at h
    exact h.put

lemma holders_of_releaseFifo {vf : FramePtr} {l : List FramePtr} (h : m.releaseFifo = vf :: l) :
    m.holders = vf.held + { m with releaseFifo := l }.holders := by
  rw [holders, leaving, h, heldAll_cons, holders, leaving]
  show m.ready + m.slotFrames + (m.lastReleased.held + (vf.held + heldAll l)) + m.elsewhere =
    vf.held + (m.ready + m.slotFrames + (m.lastReleased.held + heldAll l) + m.elsewhere)
  abel

lemma holders_lastFrame (m : Manager) (vf : FramePtr) :
    vf.held + m.holders = m.lastFrame.held + { m with lastFrame := vf }.holders := by
  simp only [holders, elsewhere]
  show vf.held + (m.ready + m.slotFrames + m.leaving + (_ + m.holdPointers + m.lastFrame.held)) =
    m.lastFrame.held + (m.ready + m.slotFrames + m.leaving + (_ + m.holdPointers + vf.held))
  abel

lemma Accounted.putReleased {l : List FramePtr} (h : m.Accounted) (hl : m.releaseFifo = l)
    (hp : putReleased l m = .ok m') :
    m'.Accounted ∧ m'.releaseFifo <:+ l ∧ (m'.releaseFifo = [] ↔ l = []) := by
  induction l generalizing m with
  | nil =>
    cases hp
    exact ⟨h, hl ▸ suffix_refl _, by rw [hl]⟩
  | cons vf l ih =>
    cases l with
    | nil =>
      cases hp
      exact ⟨h, hl ▸ suffix_refl _, by rw [hl]⟩
    | cons vf' l =>
      obtain ⟨m₁, hput, hp⟩ := bind_eq_ok.mp hp
      have hbal : m.counts.Balanced (Set.Iio m.created)
          (vf.held + { m with releaseFifo := vf' :: l }.holders) := holders_of_releaseFifo hl ▸ h
      have h₁ := videoFramePut_owed (m := { m with releaseFifo := vf' :: l }) hbal hput
      obtain ⟨c, rfl⟩ := videoFramePut_frame hput
      obtain ⟨h', hsuffix, hnil⟩ := ih h₁ rfl hp
      refine ⟨h', hsuffix.trans (suffix_cons _ _), ?_⟩
      simp only [hnil, reduceCtorEq]

def Overwrites (m : Manager) : Prop := m.dirty = false ∧ m.releaseFifo ≠ []

lemma Started.releaseWork (h : m.Started) (ha : m.Accounted)
    (hw : m.decFrameReleaseProcess = .ok m') :
    m'.Started ∧ (m.Overwrites → m'.Owed m.lastFrame.held) ∧ (¬ m.Overwrites → m'.Accounted) := by
  obtain ⟨m₁, hput, hw⟩ := bind_eq_ok.mp hw
  obtain ⟨ha₁, hsuffix, hnil⟩ := ha.putReleased rfl hput
  obtain ⟨c, q, rfl⟩ := putReleased_frame hput
  have hq : .one ∉ q := fun hmem => h.releaseFifo (hsuffix.subset hmem)
  have h₁ : { m with counts := c, releaseFifo := q }.Started :=
    ⟨h.1, h.2, h.3, h.4, h.5, h.6, hq, h.8⟩
  split_ifs at hw with hd
  · cases hw
    exact ⟨h₁, fun ho => absurd (hd.symm.trans ho.1) (by decide), fun _ => ha₁⟩
  · cases q with
    | nil =>
      cases hw
      exact ⟨h₁, fun ho => absurd (hnil.mp rfl) ho.2, fun _ => ha₁⟩
    | cons vf l =>
      cases hw
      have ho : m.Overwrites :=
        ⟨Bool.eq_false_of_not_eq_true hd, fun h0 => by cases hnil.mpr h0⟩
      have hvf : vf ≠ .one := fun h1 => hq (h1 ▸ mem_cons_self)
      have hl : .one ∉ l := fun hmem => hq (mem_cons_of_mem vf hmem)
      refine ⟨⟨h.1, h.2, h.3, h.4, h.5, h.6, hl, hvf⟩, fun _ => ?_, fun hno => absurd ho hno⟩
      -- the reference of the FIFO becomes the one of `last_frame`
      rw [Accounted, holders_of_releaseFifo rfl, holders_lastFrame] at ha₁
      exact ha₁

/-! ### Requests -/

lemma decFrameQueueResume_of_ne (h : m.state ≠ 0) :
    m.decFrameQueueResume = .ok { m with state := if m.state = 2 then 1 else m.state } := by
  unfold decFrameQueueResume
  split_ifs with h2
  · rfl
  · rfl

lemma Started.resumed (h : m.Started) :
    (if m.state = 2 then 1 else m.state) ≠ 0 ∧ (if m.state = 2 then 1 else m.state) ≤ 3 := by
  have := h.state_ne
  have := h.state_le
  split_ifs <;> omega

lemma Started.submit (h : m.Started) (ha : m.Accounted) {alt : Bool}
    (hs : m.decFrameManagerEnqueueFrame alt = .ok m') : m'.Started ∧ m'.Accounted := by
  cases (decFrameQueueResume_of_ne (m := m.addReady alt) h.state_ne).symm.trans hs
  refine ⟨⟨h.1, h.resumed.1, h.resumed.2, h.4, h.5, h.6, h.7, h.8⟩, ?_⟩
  have hholders : (m.addReady alt).holders = m.created ::ₘ m.holders := by
    simp only [holders]
    show ↑(m.ready ++ [m.created]) + m.slotFrames + m.leaving + m.elsewhere = _
    rw [← Multiset.coe_add, Multiset.coe_singleton, ← Multiset.singleton_add]
    abel
  have hbal := balanced_create ha
  rw [← hholders] at hbal
  exact hbal

def pairDropped (m : Manager) : Multiset ℕ :=
  dropped m.recycleFifo m.pair0 + dropped (kfifoIn m.recycleFifo m.pair0) m.pair1

def withPair (m : Manager) (fifo : List FramePtr) (vf₀ vf₁ : FramePtr) : Manager :=
  { m with recycleFifo := fifo, pair0 := vf₀, pair1 := vf₁ }

lemma recyclePair_eq (h : m.pair0 = .null ↔ m.pair1 = .null) :
    ∃ fifo, m.recyclePair = m.withPair fifo .null .null ∧
      m.pairDropped + heldAll fifo = m.pair0.held + m.pair1.held + heldAll m.recycleFifo := by
  by_cases h₀ : m.pair0 = .null
  · have h₁ := h.mp h₀
    refine ⟨m.recycleFifo, ?_, by simp [pairDropped, dropped, h₀, h₁]⟩
    have hself : m = m.withPair m.recycleFifo m.pair0 m.pair1 := rfl
    rw [h₀, h₁] at hself
    rw [recyclePair, if_pos h₀, if_pos h₁]
    exact hself
  · have h₁ : m.pair1 ≠ .null := fun h1 => h₀ (h.mpr h1)
    refine ⟨kfifoIn (kfifoIn m.recycleFifo m.pair0) m.pair1, ?_, ?_⟩
    · simp only [recyclePair, if_neg h₀, if_neg h₁, withPair]
    · have hfirst := dropped_add_heldAll m.recycleFifo m.pair0
      have hsecond := dropped_add_heldAll (kfifoIn m.recycleFifo m.pair0) m.pair1
      rw [pairDropped, add_assoc, hsecond, ← add_assoc, hfirst]
      abel

def paired (m : Manager) (altTop altBottom : Bool) (fifo : List FramePtr) : Manager :=
  { (((m.decFrameManagerSetStreamType 1).decCreateVideoFrame altTop).decCreateVideoFrame
        altBottom).withPair fifo (.frame m.created) (.frame (m.created + 1)) with
    forceInterlace := true, releaseQueued := true }

lemma newPair_eq (altTop altBottom : Bool) (h : m.pair0 = .null ↔ m.pair1 = .null) :
    ∃ fifo, (m.decFrameManagerSetStreamType 1).newPair altTop altBottom =
        m.paired altTop altBottom fifo ∧
      m.pairDropped + heldAll fifo = m.pair0.held + m.pair1.held + heldAll m.recycleFifo := by
  obtain ⟨fifo, heq, hheld⟩ := recyclePair_eq (m := ((m.decFrameManagerSetStreamType
    1).decCreateVideoFrame altTop).decCreateVideoFrame altBottom) h
  refine ⟨fifo, ?_, hheld⟩
  rw [newPair, heq]
  rfl

lemma Started.interlaceSetup (h : m.Started) (ha : m.Accounted) {altTop altBottom : Bool}
    (hs : m.decInterlaceSetup altTop altBottom = .ok m') :
    m'.Started ∧ m'.Owed m.pairDropped := by
  obtain ⟨fifo, heq, hheld⟩ := newPair_eq altTop altBottom h.pairs
  rw [decInterlaceSetup, decFrameManagerEnqueueInterlaceFrame, if_neg (by exact not_not.mpr rfl),
    heq, decFrameQueueResume_of_ne (m := m.paired altTop altBottom fifo) h.state_ne] at hs
  cases hs
  have hpairs : FramePtr.frame m.created = .null ↔ FramePtr.frame (m.created + 1) = .null := by simp
  refine ⟨⟨h.1, h.resumed.1, h.resumed.2, h.4, hpairs, h.6, h.7, h.8⟩, ?_⟩
  have hbal := balanced_create (balanced_create ha)
  have hholders : m.pairDropped + (m.paired altTop altBottom fifo).holders =
      (m.created + 1) ::ₘ m.created ::ₘ m.holders := by
    simp only [holders, elsewhere, ← Multiset.singleton_add, ← hheld]
    show m.pairDropped + (m.ready + m.slotFrames + m.leaving +
      ({m.created} + {m.created + 1} + heldAll fifo + m.holdPointers + m.lastFrame.held)) = _
    abel
  rw [← hholders] at hbal
  exact hbal

/-! ### Steps -/

def Keeps (m : Manager) : Event → Prop
  | .submit alt              => m.state = 0 → alt = false
  | .interlaceSetup altTop _ =>
    (m.state = 0 → altTop = false) ∧ (m.pair0 ≠ .null → m.recycleFifo.length + 2 ≤ fifoSize)
  | .refresh                 =>
    m.Shifts → m.lastReleased ≠ .null → m.releaseFifo.length < fifoSize
  | .releaseWork             => m.Overwrites → m.lastFrame = .null
  | _                        => True

instance (m : Manager) : Decidable m.Shifts := inferInstanceAs (Decidable (_ ∧ _ ∧ _))

instance (m : Manager) : Decidable m.Overwrites := inferInstanceAs (Decidable (_ ∧ _))

instance Keeps.decidable (m : Manager) : ∀ e, Decidable (m.Keeps e)
  | .submit _           => inferInstanceAs (Decidable (_ → _))
  | .interlaceSetup _ _ => inferInstanceAs (Decidable ((_ → _) ∧ (_ → _)))
  | .refresh            => inferInstanceAs (Decidable (_ → _ → _))
  | .releaseWork        => inferInstanceAs (Decidable (_ → _))
  | .vsync | .stop | .wake | .timeout => .isTrue trivial

lemma pairDropped_eq_zero (h : m.pair0 = .null ↔ m.pair1 = .null) (h₀ : m.pair0 ≠ .one)
    (h₁ : m.pair1 ≠ .one) :
    m.pairDropped = 0 ↔ (m.pair0 ≠ .null → m.recycleFifo.length + 2 ≤ fifoSize) := by
  rw [pairDropped, add_eq_zero_iff_of_nonneg (Multiset.zero_le _) (Multiset.zero_le _),
    dropped_eq_zero h₀, dropped_eq_zero h₁, kfifoIn]
  by_cases hnull : m.pair0 = .null
  · simp [hnull, h.mp hnull]
  · have hnull₁ : m.pair1 ≠ .null := fun h1 => hnull (h.mpr h1)
    simp only [ne_eq, hnull, hnull₁, not_false_eq_true, true_imp_iff]
    split_ifs with hroom
    · rw [length_append, length_singleton]
      omega
    · omega

lemma Started.step (h : m.Started) (hrest : m.Resting) (ha : m.Accounted)
    (hs : m.step e = some m') :
    m'.Started ∧ ∃ lost, m'.Owed lost ∧ (lost = 0 ↔ m.Keeps e) := by
  have hkept {m'' : Manager} (ha : m''.Accounted) : m''.Owed 0 := owed_zero.mpr ha
  cases e with
  | submit alt =>
    simp only [Manager.step, ite_none_left_eq_some, toOption_eq_some] at hs
    obtain ⟨h', ha'⟩ := h.submit ha hs.2
    exact ⟨h', 0, hkept ha', iff_of_true rfl fun h0 => absurd h0 h.state_ne⟩
  | interlaceSetup altTop altBottom =>
    simp only [Manager.step, ite_none_left_eq_some, toOption_eq_some] at hs
    obtain ⟨h', ho⟩ := h.interlaceSetup ha hs.2
    refine ⟨h', _, ho, ?_⟩
    rw [pairDropped_eq_zero h.pairs hrest.pair0 hrest.pair1]
    exact ⟨fun hroom => ⟨fun h0 => absurd h0 h.state_ne, hroom⟩, fun hk => hk.2⟩
  | vsync =>
    rw [Manager.step, toOption_eq_some] at hs
    obtain ⟨-, rfl⟩ := hrest.vsync_ok hs
    refine ⟨?_, 0, hkept ?_, iff_of_true rfl trivial⟩
    · unfold vsynced synced
      split_ifs <;> exact ⟨h.1, h.2, h.3, h.4, h.5, h.6, h.7, h.8⟩
    · unfold vsynced synced
      split_ifs <;> exact ha
  | refresh =>
    simp only [Manager.step, ite_none_right_eq_some, toOption_eq_some] at hs
    rw [decFrameQueueRefresh, lock_of_free (m := m.clearScheduled) hrest.locked, ok_bind] at hs
    obtain ⟨m₁, hb, hm⟩ := bind_eq_ok.mp hs.2
    have ht : m.clearScheduled.taken.Started := ⟨h.1, h.2, h.3, h.4, h.5, h.6, h.7, h.8⟩
    obtain ⟨h₁, hshift, hno⟩ := ht.refreshBody ⟨hrest.pair0, hrest.pair1⟩ hrest.counter ha hb
    cases hm
    refine ⟨⟨h₁.1, h₁.2, h₁.3, h₁.4, h₁.5, h₁.6, h₁.7, h₁.8⟩, ?_⟩
    by_cases hsh : m.Shifts
    · refine ⟨_, hshift hsh, ?_⟩
      exact (dropped_eq_zero h.lastReleased).trans ⟨fun hroom _ => hroom, fun hk => hk hsh⟩
    · exact ⟨0, hkept (hno hsh), iff_of_true rfl fun hs => absurd hs hsh⟩
  | releaseWork =>
    simp only [Manager.step, ite_none_right_eq_some, toOption_eq_some] at hs
    have hq : { m with releaseQueued := false }.Started := ⟨h.1, h.2, h.3, h.4, h.5, h.6, h.7, h.8⟩
    obtain ⟨h', hover, hno⟩ := hq.releaseWork ha hs.2
    refine ⟨h', ?_⟩
    by_cases ho : m.Overwrites
    · refine ⟨_, hover ho, ?_⟩
      exact (FramePtr.held_eq_zero h.lastFrame).trans ⟨fun h0 _ => h0, fun hk => hk ho⟩
    · exact ⟨0, hkept (hno ho), iff_of_true rfl fun hs => absurd hs ho⟩
  | stop =>
    simp only [Manager.step, ite_none_left_eq_some, Option.some.injEq] at hs
    rw [← hs.2, decFrameManagerStop]
    split_ifs with hp h0 h0
    · cases h0
    · have hthree : 3 ≠ 0 := by decide
      exact ⟨⟨h.1, hthree, show 3 ≤ 3 by decide, h.4, h.5, h.6, h.7, h.8⟩, 0, hkept ha,
        iff_of_true rfl trivial⟩
    · exact absurd h0 h.state_ne
    · exact ⟨⟨h.1, h.2, h.3, h.4, h.5, h.6, h.7, h.8⟩, 0, hkept ha, iff_of_true rfl trivial⟩
  | wake =>
    simp only [Manager.step, ite_none_right_eq_some] at hs
    exact absurd hs.1.2 h.state_ne
  | timeout =>
    simp only [Manager.step, ite_none_right_eq_some, Option.some.injEq] at hs
    rw [← hs.2]
    exact ⟨⟨h.1, h.2, h.3, h.4, h.5, h.6, h.7, h.8⟩, 0, hkept ha, iff_of_true rfl trivial⟩

/-! ### The first frame -/

def Event.Submits : Event → Prop
  | .submit _ | .interlaceSetup _ _ => True
  | _                               => False

lemma accounted_init : decFrameManagerInit.Accounted := by
  have hmade : Set.Iio decFrameManagerInit.created = ∅ := Set.Iio_bot
  have hholders : decFrameManagerInit.holders = 0 := rfl
  rw [Accounted, hmade, hholders]
  exact .none

/-- A frame that starts a stream: it has an owner too few if the stream is an interlaced one. -/
structure Starts (m : Manager) (alt : Bool) : Prop where
  interlaceHold : m.interlaceHold = .one
  owed : m.Owed (if alt then {0} else 0)
  started : alt = false → m.Started

lemma starts_submit {alt : Bool}
    (hs : decFrameManagerInit.decFrameManagerEnqueueFrame alt = .ok m') : m'.Starts alt := by
  have hmade := balanced_create accounted_init
  have hshow := hmade.inc (Multiset.mem_cons_self 0 _)
  cases alt with
  | true =>
    cases hs
    exact ⟨rfl, hshow, fun h => by cases h⟩
  | false =>
    cases hs
    refine ⟨rfl, hshow.put, fun _ => ?_⟩
    exact ⟨rfl, Nat.one_ne_zero, show 1 ≤ 3 by decide, ⟨0, rfl, rfl, rfl, rfl⟩, Iff.rfl,
      null_ne_one, not_mem_nil, null_ne_one⟩

lemma starts_interlaceSetup {altTop altBottom : Bool}
    (hs : decFrameManagerInit.decInterlaceSetup altTop altBottom = .ok m') : m'.Starts altTop := by
  have hmade := balanced_create (balanced_create accounted_init)
  have hpop := hmade.inc (Multiset.mem_cons_of_mem (Multiset.mem_cons_self 0 _))
  -- the slots, the caller of `dec_frame_pop` and the pair
  have hshow := hpop.inc (Multiset.mem_cons_self 0 _)
  have hperm : ((decFrameManagerInit.created + 1) ::ₘ decFrameManagerInit.created ::ₘ
      decFrameManagerInit.holders) = ↑[0, 1] := Multiset.cons_swap 1 0 0
  rw [hperm] at hshow
  cases altTop with
  | true =>
    cases hs
    exact ⟨rfl, hshow, fun h => by cases h⟩
  | false =>
    cases hs
    refine ⟨rfl, hshow.put, fun _ => ?_⟩
    have hpairs : FramePtr.frame 0 = .null ↔ FramePtr.frame 1 = .null := by decide
    exact ⟨rfl, Nat.one_ne_zero, show 1 ≤ 3 by decide, ⟨0, rfl, rfl, rfl, rfl⟩, hpairs, null_ne_one,
      not_mem_nil, null_ne_one⟩

lemma init_step (hs : decFrameManagerInit.step e = some m') :
    (∃ alt, e.Submits ∧ m'.Starts alt ∧ (decFrameManagerInit.Keeps e ↔ alt = false)) ∨
      ¬ e.Submits ∧ decFrameManagerInit.Keeps e ∧ m' = decFrameManagerInit := by
  cases e with
  | submit alt =>
    refine .inl ⟨alt, trivial, starts_submit (toOption_eq_some.mp hs), ?_⟩
    exact ⟨fun h => h rfl, fun h _ => h⟩
  | interlaceSetup altTop altBottom =>
    refine .inl ⟨altTop, trivial, starts_interlaceSetup (toOption_eq_some.mp hs), ?_⟩
    exact ⟨fun h => h.1 rfl, fun h => ⟨fun _ => h, fun h0 => absurd rfl h0⟩⟩
  | vsync =>
    cases hs
    exact .inr ⟨id, trivial, rfl⟩
  | refresh => cases hs
  | releaseWork => cases hs
  | stop =>
    cases hs
    exact .inr ⟨id, trivial, rfl⟩
  | wake => cases hs
  | timeout => cases hs

/-! ### Runs -/

def Sound (m : Manager) : Prop :=
  m.Accounted ∧ m.Resting ∧ (m = decFrameManagerInit ∨ m.Started)

lemma Sound.step (h : m.Sound) (hs : m.step e = some m') :
    (m.Keeps e → m'.Sound) ∧ (m'.Accounted → m.Keeps e) := by
  obtain ⟨ha, hrest, rfl | hm⟩ := h
  · have hrest' := hrest.step hs
    rcases init_step hs with ⟨alt, -, hst, hk⟩ | ⟨-, hk, rfl⟩
    · have hlost : m'.Accounted ↔ alt = false := by
        rw [hst.owed.accounted_iff_lost]
        cases alt <;> simp
      rw [hk]
      exact ⟨fun h0 => ⟨hlost.mpr h0, hrest', .inr (hst.started h0)⟩, hlost.mp⟩
    · exact ⟨fun _ => ⟨ha, hrest, .inl rfl⟩, fun _ => hk⟩
  · obtain ⟨h', lost, ho, hk⟩ := hm.step hrest ha hs
    rw [← hk, ← ho.accounted_iff_lost]
    exact ⟨fun ha' => ⟨ha', hrest.step hs, .inr h'⟩, id⟩

lemma run_init {es : List Event} (hes : ∀ e ∈ es, ¬ e.Submits)
    (hr : run step decFrameManagerInit es = some m) : m = decFrameManagerInit := by
  induction es with
  | nil =>
    cases hr
    rfl
  | cons e es ih =>
    obtain ⟨m₁, hs, hr⟩ := run_cons_eq_some.mp hr
    rcases init_step hs with ⟨-, hsub, -⟩ | ⟨-, -, rfl⟩
    · exact absurd hsub (hes e mem_cons_self)
    · exact ih (fun e he => hes e (mem_cons_of_mem _ he)) hr

lemma exists_hold_one {es : List Event} (hes : ∃ e ∈ es, e.Submits)
    (hr : run step decFrameManagerInit es = some m) :
    ∃ bs u, bs <+: es ∧ run step decFrameManagerInit bs = some u ∧ u.interlaceHold = .one := by
  induction es with
  | nil =>
    obtain ⟨e, he, -⟩ := hes
    exact absurd he not_mem_nil
  | cons e es ih =>
    obtain ⟨m₁, hs, hr⟩ := run_cons_eq_some.mp hr
    rcases init_step hs with ⟨alt, -, hst, -⟩ | ⟨hno, -, rfl⟩
    · exact ⟨[e], m₁, ⟨es, rfl⟩, run_cons_eq_some.mpr ⟨m₁, hs, rfl⟩, hst.interlaceHold⟩
    · have hrest : ∃ e ∈ es, e.Submits := by
        obtain ⟨e', he', hsub⟩ := hes
        rcases mem_cons.mp he' with rfl | he'
        · exact absurd hsub hno
        · exact ⟨e', he', hsub⟩
      obtain ⟨bs, u, hbs, hu, hone⟩ := ih hrest hr
      exact ⟨e :: bs, u, (prefix_cons_inj e).mpr hbs, run_cons_eq_some.mpr ⟨_, hs, hu⟩, hone⟩

/-- The counts agree with the owners all along a run exactly if no step gives up a reference without
a put; with `interlace_hold` null or live as well, exactly in the runs without frames. -/
theorem accounted_iff (es : List Event) (m : Manager)
    (hr : run step decFrameManagerInit es = some m) :
    ((∀ bs u, bs <+: es → run step decFrameManagerInit bs = some u → u.Accounted) ↔
        Guarded step Keeps decFrameManagerInit es) ∧
      ((∀ bs u, bs <+: es → run step decFrameManagerInit bs = some u →
          u.Accounted ∧ u.HoldLive) ↔ ∀ e ∈ es, ¬ e.Submits) := by
  have hsound : decFrameManagerInit.Sound := ⟨accounted_init, .init, .inl rfl⟩
  refine ⟨(guarded_iff_always (fun _ h => h.1) (fun _ _ _ h hk hs => (h.step hs).1 hk)
    (fun _ _ _ h hk hs ha => hk ((h.step hs).2 ha)) hsound hr).symm, fun hall => ?_, fun hes => ?_⟩
  · by_contra hno
    push Not at hno
    obtain ⟨bs, u, hbs, hu, hone⟩ := exists_hold_one hno hr
    exact not_holdLive hone (hall bs u hbs hu).2
  · intro bs u hbs hu
    rw [run_init (fun e he => hes e (hbs.subset he)) hu]
    exact ⟨accounted_init, .inl rfl⟩

/-- The counts agree when the second of two progressive frames is shown. -/
theorem accounted_iff_second :
    ∃ m, run step decFrameManagerInit [.submit false, .submit false, .vsync, .refresh] = some m ∧
      m.Accounted := by
  let es : List Event := [.submit false, .submit false, .vsync, .refresh]
  have hsome : (run step decFrameManagerInit es).isSome = true := by decide +kernel
  have hguard : Guarded step Keeps decFrameManagerInit es := by decide +kernel
  obtain ⟨m, hm⟩ := isSome_iff_exists.mp hsome
  exact ⟨m, hm, (accounted_iff es m hm).1.mpr hguard es m (prefix_refl es) hm⟩

/-- The work item overwrites `last_frame`: the first frame is never released. -/
theorem frame_lost :
    ∃ m, run step decFrameManagerInit [.submit false, .submit false, .submit false, .submit false,
        .vsync, .refresh, .vsync, .refresh, .vsync, .releaseWork, .refresh, .vsync, .releaseWork] =
        some m ∧
      ¬ m.HoldLive ∧ m.counts.refs 0 = 1 ∧ m.counts.released 0 = 0 ∧ 0 ∉ m.holders := by
  have hrun : (run step decFrameManagerInit [.submit false, .submit false, .submit false,
      .submit false, .vsync, .refresh, .vsync, .refresh, .vsync, .releaseWork, .refresh, .vsync,
      .releaseWork]).map (fun m => (m.interlaceHold, m.counts.refs 0, m.counts.released 0,
        decide (0 ∈ m.holders))) = some (.one, 1, 0, false) := by
    decide +kernel
  obtain ⟨m, hm, hall⟩ := map_eq_some_iff.mp hrun
  simp only [Prod.mk.injEq, decide_eq_false_iff_not] at hall
  obtain ⟨hone, hrefs, hreleased, hmem⟩ := hall
  exact ⟨m, hm, not_holdLive hone, hrefs, hreleased, hmem⟩

end Manager

end Decd
