import H713.Msgbox.System
import Mathlib.Data.Nat.Digits.Lemmas
import Mathlib.Data.UInt

/-!
# The words of a payload

`sx_ept_send` writes all words of the payload into the message queue without a look at how full it
is.
-/

namespace Msgbox

open Machine Function List Nat

/-! ### Packing -/

variable (data : List UInt8)

def packed : List UInt32 :=
  (List.range ((data.length + 3) / 4)).map fun j =>
    UInt32.ofNat (Nat.ofDigits 256 (((data.drop (4 * j)).take 4).map UInt8.toNat))

lemma packWord_toNat {bytes : List UInt8} (h : bytes.length ≤ 4) :
    (packWord bytes).toNat = Nat.ofDigits 256 (bytes.map UInt8.toNat) := by
  induction bytes with
  | nil => rfl
  | cons b bs ih =>
    have hbyte : b.toNat < 2 ^ 8 := b.toNat_lt
    have hrest := ih (le_of_succ_le h)
    have hlt : (packWord bs).toNat < 256 ^ 3 := by
      rw [hrest]
      refine (Nat.ofDigits_lt_base_pow_length (by decide) ?_).trans_le
        (Nat.pow_le_pow_right (by decide) ?_)
      · intro x hx
        obtain ⟨c, -, rfl⟩ := mem_map.mp hx
        exact c.toNat_lt
      · rw [length_map]
        exact Nat.le_of_succ_le_succ h
    have hshift : (packWord bs <<< 8).toNat = (packWord bs).toNat <<< 8 := by
      rw [UInt32.toNat_shiftLeft]
      change (packWord bs).toNat <<< 8 % 2 ^ 32 = (packWord bs).toNat <<< 8
      rw [shiftLeft_eq]
      exact mod_eq_of_lt (by omega)
    rw [packWord, UInt32.toNat_or, UInt8.toNat_toUInt32, hshift, Nat.or_comm,
      ← shiftLeft_add_eq_or_of_lt hbyte, shiftLeft_eq, hrest, map_cons,
      ofDigits_cons]
    exact (Nat.add_comm _ _).trans (congrArg _ (Nat.mul_comm _ _))

lemma length_packed : (packed data).length = (data.length + 3) / 4 := by
  rw [packed, length_map, length_range]

lemma packed_take_succ {data : List UInt8} {k : ℕ} (hk : 4 * k < data.length) :
    (packed data).take (k + 1) =
      (packed data).take k ++ [packWord ((data.drop (4 * k)).take 4)] := by
  have hlt : k < (packed data).length := by
    rw [length_packed]
    omega
  have hword : (packed data)[k] = packWord ((data.drop (4 * k)).take 4) := by
    apply UInt32.toNat_inj.mp
    simp only [packed, getElem_map, getElem_range]
    rw [← packWord_toNat (length_take_le _ _), UInt32.ofNat_toNat]
  rw [take_succ_eq_append_getElem hlt, hword]

/-! ### What happens to the words of a send -/

variable (s : Box)

def Box.chan (b : Block) (port : ℕ) : List Msg := s.read b port ++ s.fifo b port

def Box.sentBy (i : ℕ) (b : Block) (port : ℕ) : List UInt32 :=
  ((s.chan b port).filter fun m => m.sender = some i).map Msg.word

def Box.lostBy (i : ℕ) : ℕ := s.dropped.countP fun m => m.sender = some i

section

variable {dev : Device} {s s' : Box} {i j k port port' : ℕ} {b b' : Block} {m : Msg}

lemma push_of_lt (h : (s.fifo b port).length < fifoMax) :
    (s.push b port m).chan b port = s.chan b port ++ [m] ∧
      (s.push b port m).dropped = s.dropped := by
  rw [Box.push, if_pos h]
  refine ⟨?_, rfl⟩
  simp only [Box.chan, update_self, append_assoc]

lemma push_of_ge (h : fifoMax ≤ (s.fifo b port).length) :
    s.push b port m = { s with dropped := s.dropped ++ [m] } := by
  rw [Box.push, if_neg (Nat.not_lt.mpr h)]

lemma push_chan_of_ne (h : (b', port') ≠ (b, port)) :
    (s.push b port m).chan b' port' = s.chan b' port' := by
  rw [Box.push]
  split_ifs
  · simp only [Box.chan]
    by_cases hb : b' = b
    · subst hb
      have hport : port' ≠ port := by
        rintro rfl
        exact h rfl
      rw [update_self, update_of_ne hport]
    · rw [update_of_ne hb]
  · rfl

lemma sentBy_push_of_ne (h : m.sender ≠ some i) :
    (s.push b port m).sentBy i b' port' = s.sentBy i b' port' := by
  by_cases hb : (b', port') = (b, port)
  · cases hb
    by_cases hroom : (s.fifo b port).length < fifoMax
    · have hfilter : [m].filter (fun m => m.sender = some i) = [] :=
        filter_cons_of_neg (by simpa using h)
      rw [Box.sentBy, (push_of_lt hroom).1, filter_append, hfilter, append_nil,
        Box.sentBy]
    · rw [push_of_ge (Nat.not_lt.mp hroom)]
      rfl
  · rw [Box.sentBy, push_chan_of_ne hb, Box.sentBy]

lemma lostBy_push_of_ne (h : m.sender ≠ some i) : (s.push b port m).lostBy i = s.lostBy i := by
  by_cases hroom : (s.fifo b port).length < fifoMax
  · rw [Box.lostBy, (push_of_lt hroom).2, Box.lostBy]
  · have hcount : [m].countP (fun m => m.sender = some i) = 0 :=
      countP_cons_of_neg (by simpa using h)
    rw [push_of_ge (Nat.not_lt.mp hroom), Box.lostBy, countP_append, hcount, Nat.add_zero,
      Box.lostBy]

lemma push_self (s : Box) (i : ℕ) (b : Block) (port : ℕ) (word : UInt32) :
    (s.push b port ⟨word, some i⟩).sentBy i b port = s.sentBy i b port ++ [word] ∧
      (s.push b port ⟨word, some i⟩).lostBy i = s.lostBy i ∨
    (s.push b port ⟨word, some i⟩).sentBy i b port = s.sentBy i b port ∧
      (s.push b port ⟨word, some i⟩).lostBy i = s.lostBy i + 1 := by
  by_cases hroom : (s.fifo b port).length < fifoMax
  · left
    obtain ⟨hchan, hdropped⟩ := push_of_lt (m := ⟨word, some i⟩) hroom
    refine ⟨?_, ?_⟩
    · rw [Box.sentBy, hchan, filter_append, map_append, Box.sentBy]
      simp
    · rw [Box.lostBy, hdropped, Box.lostBy]
  · right
    rw [push_of_ge (Nat.not_lt.mp hroom)]
    refine ⟨rfl, ?_⟩
    rw [Box.lostBy, countP_append, Box.lostBy]
    simp

/-! ### Steps -/

/-- The words of send number `i` for the other CPUs are the same. -/
structure Kept (dev : Device) (i : ℕ) (s s' : Box) : Prop where
  sent : ∀ e, s'.sentBy i (dev.txBlock e) (dev.ept e).txPort =
    s.sentBy i (dev.txBlock e) (dev.ept e).txPort
  lost : s'.lostBy i = s.lostBy i

lemma Kept.of_chan (hchan : ∀ e, s'.chan (dev.txBlock e) (dev.ept e).txPort =
    s.chan (dev.txBlock e) (dev.ept e).txPort) (hdropped : s'.dropped = s.dropped) :
    Kept dev i s s' := by
  refine ⟨?_, ?_⟩
  · intro e
    rw [Box.sentBy, hchan, Box.sentBy]
  · rw [Box.lostBy, hdropped, Box.lostBy]

lemma Kept.push (h : m.sender ≠ some i) : Kept dev i s (s.push b port m) :=
  ⟨fun _ => sentBy_push_of_ne h, lostBy_push_of_ne h⟩

def Box.Idle (s : Box) : Prop := ∀ e, s.txLen e ≤ s.txPos e

lemma idle_push (h : s.Idle) : (s.push b port m).Idle := by
  rw [Box.push]
  split_ifs
  · exact h
  · exact h

lemma kept_irq (h : s.Idle) (pc : IrqPc) :
    (s.irq dev pc).Idle ∧ ∀ i, Kept dev i s (s.irq dev pc) := by
  have hlock : ∀ lock, (s.setLock lock).Idle ∧ ∀ i, Kept dev i s (s.setLock lock) :=
    fun _ => ⟨h, fun _ => .of_chan (fun _ => rfl) rfl⟩
  cases pc with
  | next k =>
    rw [Box.irq]
    split_ifs
    · exact hlock _
    · exact hlock _
    · exact hlock _
  | rxEnable k => exact hlock _
  | rxStatus k => exact hlock _
  | rxFifo k => exact hlock _
  | rxData k =>
    rw [Box.irq]
    split
    · exact hlock _
    · refine ⟨h, fun i => .of_chan (fun e => ?_) rfl⟩
      have hne : dev.txBlock e ≠ dev.rxBlock k := fun heq => dev.remote_ne e (congrArg Prod.fst heq)
      simp only [Box.chan, update_of_ne hne]
  | rxAck k => exact ⟨h, fun _ => .of_chan (fun _ => rfl) rfl⟩
  | txEnable k => exact hlock _
  | txStatus k => exact hlock _
  | txFifo k => exact hlock _
  | txTest k =>
    rw [Box.irq, if_pos (h k)]
    exact hlock _
  | clearRead k => exact hlock _
  | clearWrite k val => exact ⟨h, fun _ => .of_chan (fun _ => rfl) rfl⟩
  | complete k => exact ⟨h, fun _ => .of_chan (fun _ => rfl) rfl⟩
  | txAck k => exact ⟨h, fun _ => .of_chan (fun _ => rfl) rfl⟩

lemma chan_pop {q : List Msg} (hq : s.fifo b port = m :: q) :
    Box.chan { s with
      fifo := update s.fifo b (update (s.fifo b) port q)
      read := update s.read b (update (s.read b) port (s.read b port ++ [m])) } =
      s.chan := by
  funext b' port'
  simp only [Box.chan]
  by_cases hb : b' = b
  · subst hb
    by_cases hport : port' = port
    · subst hport
      simp only [update_self, hq, append_assoc, singleton_append]
    · simp only [update_self, update_of_ne hport]
  · simp only [update_of_ne hb]

lemma kept_event (h : s.Idle) {x : Event} (hx : s.event dev x = some s') :
    s'.Idle ∧ ∀ i, Kept dev i s s' := by
  cases x with
  | enter =>
    rw [Box.event] at hx
    split_ifs at hx
    cases hx
    exact ⟨h, fun _ => .of_chan (fun _ => rfl) rfl⟩
  | irq =>
    rw [Box.event] at hx
    split at hx
    · cases hx
      exact kept_irq h _
    · cases hx
  | txStatus b bits =>
    cases hx
    exact ⟨h, fun _ => .of_chan (fun _ => rfl) rfl⟩
  | rxStatus b bits =>
    cases hx
    exact ⟨h, fun _ => .of_chan (fun _ => rfl) rfl⟩
  | pop b port =>
    rw [Box.event] at hx
    split at hx
    · cases hx
    · rename_i m q hq
      cases hx
      exact ⟨h, fun _ => .of_chan (fun e => congrFun₂ (chan_pop hq) _ _) rfl⟩
  | post b port word =>
    cases hx
    refine ⟨idle_push h, fun i => .push ?_⟩
    intro heq
    cases heq

variable {e : ℕ} {data : List UInt8} {pc pc' : SendPc}

lemma Acts.idle (ha : Acts dev s i e data pc s' pc') (h : s.Idle) : s'.Idle := by
  cases ha with
  | setup =>
    intro e'
    simp only [Box.setup]
    by_cases he : e' = e
    · subst he
      simp only [update_self, le_refl]
    · simp only [update_of_ne he]
      exact h e'
  | fill => exact idle_push h
  | _ => exact h

lemma Acts.kept (ha : Acts dev s i e data pc s' pc') (hne : j ≠ i) : Kept dev j s s' := by
  cases ha with
  | fill =>
    refine .push ?_
    intro heq
    exact hne (Option.some.inj heq).symm
  | _ => exact .of_chan (fun _ => rfl) rfl

/-! ### The invariant -/

/-- `k` words of a payload have been written: those not lost are in the queue or have been read, and
if none was lost, they are the first `k`. -/
structure Written (s : Box) (i : ℕ) (b : Block) (port : ℕ) (data : List UInt8) (k : ℕ) : Prop where
  count : (s.sentBy i b port).length + s.lostBy i = k
  order : s.lostBy i = 0 → s.sentBy i b port = (packed data).take k

def SendPc.Wrote (data : List UInt8) (k : ℕ) : SendPc → Prop
  | .start | .setup | .returned .enodev => k = 0
  | .fill pos => pos = min (4 * k) data.length ∧ k ≤ (data.length + 3) / 4
  | _         => k = (data.length + 3) / 4

lemma Written.kept (h : Written s i (dev.txBlock e) (dev.ept e).txPort data k)
    (hk : Kept dev i s s') : Written s' i (dev.txBlock e) (dev.ept e).txPort data k := by
  refine ⟨?_, ?_⟩
  · rw [hk.sent, hk.lost]
    exact h.count
  · rw [hk.sent, hk.lost]
    exact h.order

lemma Written.push (h : Written s i b port data k) (hk : 4 * k < data.length) :
    Written (s.push b port ⟨packWord ((data.drop (4 * k)).take 4), some i⟩) i b port data
      (k + 1) := by
  rcases push_self s i b port (packWord ((data.drop (4 * k)).take 4)) with
    ⟨hsent, hlost⟩ | ⟨hsent, hlost⟩
  · refine ⟨?_, ?_⟩
    · rw [hsent, hlost, length_append, length_singleton, ← h.count]
      exact Nat.add_right_comm _ _ _
    · intro hzero
      rw [hlost] at hzero
      rw [hsent, h.order hzero, packed_take_succ hk]
  · refine ⟨?_, ?_⟩
    · rw [hsent, hlost, ← h.count, Nat.add_assoc]
    · intro hzero
      rw [hlost] at hzero
      exact absurd hzero (succ_ne_zero _)

lemma Acts.written (ha : Acts dev s i e data pc s' pc') (hk : pc.Wrote data k)
    (hw : Written s i (dev.txBlock e) (dev.ept e).txPort data k) :
    ∃ k', pc'.Wrote data k' ∧ Written s' i (dev.txBlock e) (dev.ept e).txPort data k' := by
  cases ha with
  | setup =>
    have hzero : k = 0 := hk
    subst hzero
    exact ⟨0, ⟨(Nat.zero_min _).symm, Nat.zero_le _⟩, hw.kept (.of_chan (fun _ => rfl) rfl)⟩
  | fill pos hpos =>
    obtain ⟨rfl, hle⟩ := hk
    have hlt : 4 * k < data.length := by omega
    rw [Nat.min_eq_left hlt.le]
    refine ⟨k + 1, ⟨?_, ?_⟩, hw.push hlt⟩
    · rw [mul_succ]
    · omega
  | filled pos hpos =>
    obtain ⟨rfl, hle⟩ := hk
    have hall : k = (data.length + 3) / 4 := by omega
    exact ⟨k, hall, hw⟩
  | _ => exact ⟨k, hk, hw.kept (.of_chan (fun _ => rfl) rfl)⟩

/-- The words of each send are where they should be, and none is of a send to come or left for the
handler. -/
structure Carried (dev : Device) (p : Pool Box Send) : Prop where
  sends : System.Forall (fun s i (t : Send) => ∃ k, t.pc.Wrote t.data k ∧
    Written s i (dev.txBlock t.ept) (dev.ept t.ept).txPort t.data k) p
  fresh : ∀ i, p.threads.length ≤ i →
    (∀ e, p.shared.sentBy i (dev.txBlock e) (dev.ept e).txPort = []) ∧ p.shared.lostBy i = 0
  idle : p.shared.Idle

variable {p p' : Pool Box Send} {l : Label Send Bool Event}

lemma Carried.step (h : Carried dev p) (hs : (system dev).step p l = some p') :
    Carried dev p' := by
  cases System.steps_of_step hs with
  | @act i timeout t t' s' ht ha =>
    obtain ⟨hacts, hept, hdata⟩ := acts_of_act ha
    refine ⟨?_, ?_, hacts.idle h.idle⟩
    · intro j u hu
      rcases System.getElem?_set_cases hu with ⟨rfl, rfl⟩ | ⟨hne, hu'⟩
      · obtain ⟨k, hk, hw⟩ := h.sends _ _ ht
        rw [hept, hdata]
        exact hacts.written hk hw
      · obtain ⟨k, hk, hw⟩ := h.sends j u hu'
        exact ⟨k, hk, hw.kept (hacts.kept hne)⟩
    · intro j hj
      rw [length_set] at hj
      have hi : i < p.threads.length := (List.getElem?_eq_some_iff.mp ht).1
      have hkept := hacts.kept (hi.trans_le hj).ne'
      obtain ⟨hsent, hlost⟩ := h.fresh j hj
      exact ⟨fun e => (hkept.sent e).trans (hsent e), hkept.lost.trans hlost⟩
  | env hx =>
    obtain ⟨hidle, hkept⟩ := kept_event h.idle hx
    refine ⟨?_, ?_, hidle⟩
    · intro j u hu
      obtain ⟨k, hk, hw⟩ := h.sends j u hu
      exact ⟨k, hk, hw.kept (hkept j)⟩
    · intro j hj
      obtain ⟨hsent, hlost⟩ := h.fresh j hj
      exact ⟨fun e => ((hkept j).sent e).trans (hsent e), (hkept j).lost.trans hlost⟩
  | @spawn t ht =>
    refine ⟨?_, ?_, h.idle⟩
    · intro j u hu
      rcases System.getElem?_concat_cases hu with ⟨rfl, rfl⟩ | hu'
      · obtain ⟨hsent, hlost⟩ := h.fresh _ le_rfl
        have hpc : u.pc = .start := (of_decide_eq_true ht).2
        refine ⟨0, ?_, ?_, ?_⟩
        · rw [hpc]
          rfl
        · rw [hsent, hlost]
          rfl
        · intro _
          rw [hsent, take_zero]
      · exact h.sends j u hu'
    · intro j hj
      rw [length_append] at hj
      exact h.fresh j (le_of_add_right_le hj)

lemma carried_init (dev : Device) (txEn txStat rxEn rxStat : Block → UInt32) :
    Carried dev ⟨.init txEn txStat rxEn rxStat, []⟩ := by
  refine ⟨?_, fun _ _ => ⟨fun _ => rfl, rfl⟩, fun _ => le_rfl⟩
  intro i t ht
  cases ht

end

/-! ### What the other CPU reads -/

def Box.readBy (i : ℕ) (b : Block) (port : ℕ) : List UInt32 :=
  ((s.read b port).filter fun m => m.sender = some i).map Msg.word

/-- After a send has returned 0 and its words have been drained, the other CPU has read exactly the
payload if and only if no word was written to a full queue. -/
theorem payload_read_iff (dev : Device) {txEn txStat rxEn rxStat : Block → UInt32}
    {as : List (Label Send Bool Event)} {p : Pool Box Send}
    (hr : run (system dev).step ⟨.init txEn txStat rxEn rxStat, []⟩ as = some p)
    {i : ℕ} {t : Send} (ht : p.threads[i]? = some t) (hret : t.pc = .returned .ok)
    (hdrained : ∀ m ∈ p.shared.fifo (dev.txBlock t.ept) (dev.ept t.ept).txPort,
      m.sender ≠ some i) :
    p.shared.readBy i (dev.txBlock t.ept) (dev.ept t.ept).txPort = packed t.data ↔
      ∀ m ∈ p.shared.dropped, m.sender ≠ some i := by
  have hp : Carried dev p :=
    run_invariant (fun _ _ _ h hs => h.step hs) (carried_init dev txEn txStat rxEn rxStat) hr
  obtain ⟨k, hk, hw⟩ := hp.sends i t ht
  rw [hret] at hk
  have hall : k = (packed t.data).length := hk.trans (length_packed t.data).symm
  have hread : p.shared.sentBy i (dev.txBlock t.ept) (dev.ept t.ept).txPort =
      p.shared.readBy i (dev.txBlock t.ept) (dev.ept t.ept).txPort := by
    have hnil : (p.shared.fifo (dev.txBlock t.ept) (dev.ept t.ept).txPort).filter
        (fun m => m.sender = some i) = [] :=
      filter_eq_nil_iff.mpr (by simpa using hdrained)
    rw [Box.sentBy, Box.chan, filter_append, hnil, append_nil, Box.readBy]
  have hlost : p.shared.lostBy i = 0 ↔ ∀ m ∈ p.shared.dropped, m.sender ≠ some i := by
    simp only [Box.lostBy, countP_eq_zero, decide_eq_true_eq, ne_eq]
  rw [← hlost, ← hread]
  constructor
  · intro heq
    have hcount := hw.count
    rw [heq, hall] at hcount
    exact Nat.add_eq_left.mp hcount
  · intro hzero
    rw [hw.order hzero, hall, take_length]

def sendAndRead (n : ℕ) : List (Label Send Bool Event) :=
  .spawn ⟨0, data, .start⟩ :: List.replicate ((data.length + 3) / 4 + 5) (.act 0 false) ++
    List.replicate n (.env (.pop (1, 0) 0)) ++ [.env (.txStatus (1, 0) 2), .env .enter] ++
    List.replicate 11 (.env .irq) ++ [.act 0 false]

/-- Five bytes make two words. -/
theorem payload_read_iff_five :
    ∃ p, run (system (oneEndpoint 1 Nat.one_ne_zero)).step ⟨.init 0 0 0 0, []⟩
        (sendAndRead [1, 2, 3, 4, 5] 2) = some p ∧
      p.threads = [⟨0, [1, 2, 3, 4, 5], .returned .ok⟩] ∧
      p.shared.readBy 0 (1, 0) 0 = packed [1, 2, 3, 4, 5] := by
  have hpool : (run (system (oneEndpoint 1 Nat.one_ne_zero)).step ⟨.init 0 0 0 0, []⟩
      (sendAndRead [1, 2, 3, 4, 5] 2)).map (fun p => (p.threads, p.shared.fifo (1, 0) 0,
        p.shared.dropped)) = some ([⟨0, [1, 2, 3, 4, 5], .returned .ok⟩], [], []) := by decide
  obtain ⟨p, hp, hstate⟩ := Option.map_eq_some_iff.mp hpool
  obtain ⟨hthreads, hfifo, hdropped⟩ : p.threads = _ ∧ p.shared.fifo (1, 0) 0 = [] ∧
      p.shared.dropped = [] := by simpa only [Prod.mk.injEq] using hstate
  refine ⟨p, hp, hthreads, ?_⟩
  have ht : p.threads[0]? = some ⟨0, [1, 2, 3, 4, 5], .returned .ok⟩ := by
    rw [hthreads]
    rfl
  refine (payload_read_iff (oneEndpoint 1 Nat.one_ne_zero) hp ht rfl ?_).mpr ?_
  · intro m hm
    change m ∈ p.shared.fifo (1, 0) 0 at hm
    rw [hfifo] at hm
    cases hm
  · intro m hm
    rw [hdropped] at hm
    cases hm

/-- The ninth of nine words is written to a full queue, and the send returns 0 although the other
CPU has read eight words. -/
theorem word_lost :
    ((run (system (oneEndpoint 1 Nat.one_ne_zero)).step ⟨.init 0 0 0 0, []⟩
      (sendAndRead (List.replicate 36 7) 8)).map fun p =>
        (p.threads, p.shared.fifo (1, 0) 0, p.shared.readBy 0 (1, 0) 0)) =
      some ([⟨0, List.replicate 36 7, .returned .ok⟩], [], List.replicate 8 0x07070707) ∧
    packed (List.replicate 36 7) = List.replicate 9 0x07070707 := by
  decide

end Msgbox
