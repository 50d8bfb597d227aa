import H713.Keystone.Basic
import H713.Machine.Threads

/-!
# The command queue

Any number of writes to `motor_ctrl` run next to `motor_work_handler`, access by access. Writers
check the length of the queue before they add to it, and read `work_running` to see whether a
command will be taken.
-/

namespace Keystone.Commands

open Machine List

/-! ### The functions -/

/-- Not running, before `motor_dequeue`, in a movement, or before `work_running = 0`. -/
inductive Handler where
  | idle
  | loop
  | moving (d : Dir)
  | clearing
  deriving DecidableEq

/-- What the writers and the handler share. `workPending` is set while the work item is queued. -/
structure Shared where
  cmdQueue : List Dir
  queueLen : ℤ
  workRunning : Bool
  workPending : Bool
  handler : Handler
  edgeUp : Bool
  edgeDn : Bool
  deriving DecidableEq

variable (s : Shared)

def Shared.edge : Dir → Bool
  | .up => s.edgeUp
  | .dn => s.edgeDn

def Shared.addTail (d : Dir) : Shared :=
  { s with cmdQueue := s.cmdQueue ++ [d], queueLen := s.queueLen + 1 }

def Shared.motorDequeue : Option Dir × Shared :=
  match s.cmdQueue with
  | []     => (none, s)
  | d :: q => (some d, { s with cmdQueue := q, queueLen := s.queueLen - 1 })

/-- At its start; in `motor_run_up_dn` at a check, in the loop with `n` rounds to go, in
`motor_enqueue`, at the test of `work_running`, before it is set, before `queue_work`; in
`motor_flush_queue`; or returned. -/
inductive Writer where
  | store (val : ℕ)
  | edge (d : Dir) (n : ℕ) (fullLimit : Bool)
  | above (d : Dir) (n : ℕ)
  | equal (d : Dir) (n : ℕ)
  | enqueue (d : Dir) (n : ℕ)
  | add (d : Dir) (n : ℕ)
  | test
  | set
  | submit
  | flush
  | returned
  deriving DecidableEq

def clampSteps (steps : ℕ) : ℕ :=
  if steps = 0 then 1 else if moveClampMax < steps then moveClampMax else steps

def motorCtrlStore (val : ℕ) : Writer :=
  let steps := val % 128
  let fullLimit := val / 128 % 2 = 1
  match val / 256 % 256 with
  | 1 => .edge .up (clampSteps steps) fullLimit
  | 2 => .edge .dn (clampSteps steps) fullLimit
  | 3 => .flush
  | _ => .returned

def Writer.act (alloc : Bool) : Writer → Option (Shared × Writer)
  | .store val => some (s, motorCtrlStore val)
  | .edge d n fullLimit =>
    some (s, if s.edge d then .returned else if fullLimit then .above d n else .enqueue d n)
  | .above d n => some (s, if 3 < s.queueLen then .returned else .equal d n)
  | .equal d n => some (s, .enqueue d (if s.queueLen = 3 then 1 else n))
  | .enqueue _ 0       => some (s, .test)
  | .enqueue d (n + 1) => some (s, if (queueMaxLen : ℤ) ≤ s.queueLen then .test else .add d n)
  | .add d n => if alloc then some (s.addTail d, .enqueue d n) else some (s, .test)
  | .test    => some (s, if s.workRunning then .returned else .set)
  | .set     => some ({ s with workRunning := true }, .submit)
  | .submit  => some ({ s with workPending := true }, .returned)
  | .flush =>
    match s.motorDequeue with
    | (none, s')   => some (s', .returned)
    | (some _, s') => some (s', .flush)
  | .returned => none

/-- The handler starts, takes a command or ends its loop, comes back from a movement, clears the
flag. The edge flags change as movements go on. -/
inductive Work where
  | start
  | dequeue
  | moved
  | clear
  | edges (up dn : Bool)
  deriving DecidableEq

def Shared.work : Work → Option Shared
  | .start =>
    if s.handler = .idle ∧ s.workPending then
      some { s with workPending := false, handler := .loop }
    else none
  | .dequeue =>
    if s.handler = .loop then
      match s.motorDequeue with
      | (none, s')   => some { s' with handler := .clearing }
      | (some d, s') => some { s' with handler := .moving d }
    else none
  | .moved =>
    match s.handler with
    | .moving _ => some { s with handler := .loop }
    | _         => none
  | .clear =>
    if s.handler = .clearing then some { s with workRunning := false, handler := .idle } else none
  | .edges up dn => some { s with edgeUp := up, edgeDn := dn }

def system : System Shared Writer Bool Work where
  act s _ t alloc := t.act s alloc
  env := Shared.work
  start t := match t with
    | .store _ => true
    | _        => false

def probed : Pool Shared Writer := ⟨⟨[], 0, false, false, .idle, false, false⟩, []⟩

/-! ### Steps -/

def Writer.past : Writer → ℕ
  | .add _ _ => 1
  | _        => 0

def Writer.cares : Writer → Bool
  | .enqueue _ _ | .add _ _ | .test | .set | .submit => true
  | _ => false

/-- All that a step of a writer can be. -/
inductive Acts (s : Shared) : Writer → Shared → Writer → Prop
  | walk {t t' : Writer} (hsubmit : t ≠ .submit) (hpast : t'.past = 0)
      (hcares : t.cares = true → t'.cares = true) : Acts s t s t'
  | check (d : Dir) (n : ℕ) (hlen : s.queueLen < queueMaxLen) :
      Acts s (.enqueue d (n + 1)) s (.add d n)
  | add (d : Dir) (n : ℕ) : Acts s (.add d n) (s.addTail d) (.enqueue d n)
  | leave (hrun : s.workRunning = true) : Acts s .test s .returned
  | set : Acts s .set { s with workRunning := true } .submit
  | submit : Acts s .submit { s with workPending := true } .returned
  | flush {t' : Writer} (hpast : t'.past = 0) : Acts s .flush s.motorDequeue.2 t'

/-- All that the work queue can do. -/
inductive Works (s : Shared) : Shared → Prop
  | start : Works s { s with workPending := false, handler := .loop }
  | finish (hqueue : s.cmdQueue = []) : Works s { s with handler := .clearing }
  | take (d : Dir) (q : List Dir) (hqueue : s.cmdQueue = d :: q) :
      Works s { s with cmdQueue := q, queueLen := s.queueLen - 1, handler := .moving d }
  | moved : Works s { s with handler := .loop }
  | clear (hclear : s.handler = .clearing) :
      Works s { s with workRunning := false, handler := .idle }
  | edges (up dn : Bool) : Works s { s with edgeUp := up, edgeDn := dn }

section

variable {s s' : Shared} {t t' : Writer} {alloc : Bool} {x : Work} {p p' : Pool Shared Writer}
  {l : Label Writer Bool Work}

lemma acts_of_act (h : t.act s alloc = some (s', t')) : Acts s t s' t' := by
  cases t with
  | store val =>
    cases h
    refine .walk (fun h => by cases h) ?_ fun h => by cases h
    simp only [motorCtrlStore]
    split <;> rfl
  | edge d n fullLimit =>
    cases h
    refine .walk (fun h => by cases h) ?_ fun h => by cases h
    split_ifs <;> rfl
  | above d n =>
    cases h
    refine .walk (fun h => by cases h) ?_ fun h => by cases h
    split_ifs <;> rfl
  | equal d n =>
    cases h
    exact .walk (fun h => by cases h) rfl fun _ => rfl
  | enqueue d n =>
    cases n with
    | zero =>
      cases h
      exact .walk (fun h => by cases h) rfl fun _ => rfl
    | succ n =>
      cases h
      split_ifs with hlen
      · exact .walk (fun h => by cases h) rfl fun _ => rfl
      · exact .check d n (by omega)
  | add d n =>
    cases alloc with
    | false =>
      cases h
      exact .walk (fun h => by cases h) rfl fun _ => rfl
    | true =>
      cases h
      exact .add d n
  | test =>
    cases h
    split_ifs with hrun
    · exact .leave hrun
    · exact .walk (fun h => by cases h) rfl fun _ => rfl
  | set =>
    cases h
    exact .set
  | submit =>
    cases h
    exact .submit
  | flush =>
    have hflush : ∃ t'', t''.past = 0 ∧ (s', t') = (s.motorDequeue.2, t'') := by
      simp only [Writer.act] at h
      split at h
      · rename_i s₁ hs
        exact ⟨.returned, rfl, by rw [← Option.some.inj h, hs]⟩
      · rename_i d s₁ hs
        exact ⟨.flush, rfl, by rw [← Option.some.inj h, hs]⟩
    obtain ⟨t'', hpast, heq⟩ := hflush
    cases heq
    exact .flush hpast
  | returned => cases h

lemma works_of_work (h : s.work x = some s') : Works s s' := by
  cases x with
  | start =>
    simp only [Shared.work] at h
    split_ifs at h
    cases h
    exact .start
  | dequeue =>
    simp only [Shared.work, Shared.motorDequeue] at h
    split_ifs at h
    cases hq : s.cmdQueue with
    | nil =>
      rw [hq] at h
      cases h
      exact .finish hq
    | cons d q =>
      rw [hq] at h
      cases h
      exact .take d q hq
  | moved =>
    simp only [Shared.work] at h
    split at h
    · cases h
      exact .moved
    · cases h
  | clear =>
    simp only [Shared.work] at h
    split_ifs at h with hclear
    cases h
    exact .clear hclear
  | edges up dn =>
    cases h
    exact .edges up dn

/-! ### The length of the queue -/

def Shared.Counted (s : Shared) : Prop := s.queueLen = s.cmdQueue.length

lemma Shared.Counted.addTail (h : s.Counted) (d : Dir) : (s.addTail d).Counted := by
  simp only [Shared.Counted, Shared.addTail, length_append, length_singleton] at h ⊢
  omega

lemma Shared.Counted.motorDequeue (h : s.Counted) : s.motorDequeue.2.Counted := by
  rw [Shared.motorDequeue]
  split
  · exact h
  · rename_i d q hq
    simp only [Shared.Counted, hq, length_cons] at h ⊢
    omega

lemma Shared.Counted.step (h : p.shared.Counted) (hs : system.step p l = some p') :
    p'.shared.Counted := by
  cases System.steps_of_step hs with
  | act ht ha =>
    cases acts_of_act ha with
    | walk | check | leave | set | submit => exact h
    | add d n => exact h.addTail d
    | flush => exact h.motorDequeue
  | env hx =>
    cases works_of_work hx with
    | start | finish | moved | clear | edges => exact h
    | take d q hq =>
      simp only [Shared.Counted, hq, length_cons] at h ⊢
      omega
  | spawn _ => exact h

/-! ### The bound -/

lemma motorDequeue_length_le (s : Shared) :
    s.motorDequeue.2.cmdQueue.length ≤ s.cmdQueue.length := by
  rw [Shared.motorDequeue]
  split
  · exact Nat.le_refl _
  · rename_i d q hq
    rw [hq]
    exact Nat.le_succ _

def commands (p : Pool Shared Writer) : ℕ :=
  System.total (fun s => s.cmdQueue.length) Writer.past p

def Writer.checks : Writer → Bool
  | .enqueue _ (_ + 1) => true
  | _                  => false

def Roomy (p : Pool Shared Writer) : Label Writer Bool Work → Prop
  | .act i _ => ∀ t ∈ p.threads[i]?, t.checks = true → p.shared.queueLen < queueMaxLen →
      commands p < queueMaxLen
  | _ => True

lemma commands_step (h : commands p ≤ queueMaxLen) (hok : Roomy p l)
    (hs : system.step p l = some p') : commands p' ≤ queueMaxLen := by
  cases System.steps_of_step hs with
  | @act i e t t' s' ht ha =>
    have hsum := System.sum_map_set t' Writer.past ht
    simp only [commands, System.total] at h ⊢
    cases acts_of_act ha with
    | walk _ hpast =>
      rw [hpast] at hsum
      omega
    | check d n hlen =>
      have hroom := hok _ ht rfl hlen
      simp only [commands, System.total, Writer.past] at hroom hsum
      omega
    | add d n =>
      simp only [Writer.past, Shared.addTail, length_append, length_singleton] at hsum ⊢
      omega
    | leave =>
      simp only [Writer.past] at hsum
      omega
    | set | submit =>
      simp only [Writer.past] at hsum
      dsimp only
      omega
    | flush hpast =>
      have hle := motorDequeue_length_le p.shared
      rw [hpast] at hsum
      omega
  | env hx =>
    cases works_of_work hx with
    | start | finish | moved | clear | edges => exact h
    | take d q hq =>
      simp only [commands, System.total, hq, length_cons] at h ⊢
      omega
  | @spawn t ht =>
    have hpast : t.past = 0 := by
      cases t <;> first | rfl | cases ht
    simp only [commands, System.total, map_append, sum_append] at h ⊢
    simpa [hpast] using h

/-! ### Somebody takes the command -/

def Handler.takes : Handler → Bool
  | .loop | .moving _ => true
  | _ => false

def Prompt (p : Pool Shared Writer) : Label Writer Bool Work → Prop
  | .act i _ => ∀ t ∈ p.threads[i]?, t = .test →
      ¬ (p.shared.handler = .clearing ∧ p.shared.workRunning = true)
  | _ => True

/-- While `work_running` is set, the work item is queued, running or about to be queued. A command
in the queue will be taken, or its writer still looks at `work_running`. -/
structure Watched (p : Pool Shared Writer) : Prop where
  running : p.shared.workRunning = true →
    p.shared.workPending = true ∨ p.shared.handler ≠ .idle ∨ ∃ t ∈ p.threads, t = .submit
  queue : p.shared.cmdQueue ≠ [] →
    p.shared.workPending = true ∨ p.shared.handler.takes = true ∨ ∃ t ∈ p.threads, t.cares = true

lemma Watched.running_set (h : Watched p) {i : ℕ} (t' : Writer) (ht : p.threads[i]? = some t)
    (hsubmit : t ≠ .submit) (hrun : p.shared.workRunning = true) :
    p.shared.workPending = true ∨ p.shared.handler ≠ .idle ∨
      ∃ u ∈ p.threads.set i t', u = .submit :=
  (h.running hrun).imp_right fun h => h.imp_right
    (System.exists_mem_set ht fun h => absurd h hsubmit)

lemma Watched.queue_set (h : Watched p) {i : ℕ} (t' : Writer) (ht : p.threads[i]? = some t)
    (hcares : t.cares = true → t'.cares = true) (hqueue : p.shared.cmdQueue ≠ []) :
    p.shared.workPending = true ∨ p.shared.handler.takes = true ∨
      ∃ u ∈ p.threads.set i t', u.cares = true :=
  (h.queue hqueue).imp_right fun h => h.imp_right (System.exists_mem_set ht hcares)

lemma Watched.flush (h : Watched p) {i : ℕ} (ht : p.threads[i]? = some .flush) :
    Watched ⟨p.shared.motorDequeue.2, p.threads.set i t'⟩ := by
  have hrun := h.running_set t' ht (fun h => by cases h)
  have hqueue := h.queue_set t' ht (fun h => by cases h)
  rw [Shared.motorDequeue]
  split
  · exact ⟨hrun, hqueue⟩
  · rename_i d q hq
    exact ⟨hrun, fun _ => hqueue (hq ▸ cons_ne_nil d q)⟩

lemma Watched.step (h : Watched p) (hok : Prompt p l) (hs : system.step p l = some p') :
    Watched p' := by
  cases System.steps_of_step hs with
  | @act i e t t' s' ht ha =>
    cases acts_of_act ha with
    | walk hsubmit _ hcares => exact ⟨h.running_set _ ht hsubmit, h.queue_set _ ht hcares⟩
    | check d n hlen =>
      exact ⟨h.running_set _ ht (fun h => by cases h), h.queue_set _ ht fun _ => rfl⟩
    | add d n =>
      refine ⟨h.running_set _ ht (fun h => by cases h), fun _ => ?_⟩
      exact .inr (.inr (System.exists_mem_set_self ht rfl))
    | leave hrun =>
      refine ⟨h.running_set _ ht (fun h => by cases h), fun _ => ?_⟩
      -- whoever has set the flag is still there to take the command
      rcases h.running_set .returned ht (fun h => by cases h) hrun with
        hpend | hhandler | ⟨u, hu, rfl⟩
      · exact .inl hpend
      · refine .inr (.inl ?_)
        cases hh : p.shared.handler with
        | idle => exact absurd hh hhandler
        | loop => rfl
        | moving d => rfl
        | clearing => exact absurd ⟨hh, hrun⟩ (hok _ ht rfl)
      · exact .inr (.inr ⟨_, hu, rfl⟩)
    | set =>
      refine ⟨fun _ => .inr (.inr (System.exists_mem_set_self ht rfl)), fun hq => ?_⟩
      exact .inr (.inr (System.exists_mem_set_self ht rfl))
    | submit => exact ⟨fun _ => .inl rfl, fun _ => .inl rfl⟩
    | flush => exact h.flush ht
  | env hx =>
    cases works_of_work hx with
    | start => exact ⟨fun _ => .inr (.inl (fun h => by cases h)), fun _ => .inr (.inl rfl)⟩
    | finish hq => exact ⟨fun _ => .inr (.inl (fun h => by cases h)), fun h => absurd hq h⟩
    | take d q => exact ⟨fun _ => .inr (.inl (fun h => by cases h)), fun _ => .inr (.inl rfl)⟩
    | moved => exact ⟨fun _ => .inr (.inl (fun h => by cases h)), fun _ => .inr (.inl rfl)⟩
    | clear hclear =>
      refine ⟨(fun h => by cases h), fun hq => ?_⟩
      rcases h.queue hq with hpend | htakes | hcares
      · exact .inl hpend
      · rw [hclear] at htakes
        cases htakes
      · exact .inr (.inr hcares)
    | edges => exact ⟨h.running, h.queue⟩
  | spawn _ =>
    refine ⟨fun hr => ?_, fun hq => ?_⟩
    · exact (h.running hr).imp_right fun h => h.imp_right fun ⟨t, ht, hsub⟩ =>
        ⟨t, mem_append_left _ ht, hsub⟩
    · exact (h.queue hq).imp_right fun h => h.imp_right fun ⟨t, ht, hcares⟩ =>
        ⟨t, mem_append_left _ ht, hcares⟩

lemma exists_take {d : Dir} {q : List Dir}
    (h : s.workPending = true ∨ s.handler.takes = true) (hq : s.cmdQueue = d :: q) :
    ∃ xs s', run Shared.work s xs = some s' ∧ s'.cmdQueue = q ∧ s'.handler = .moving d := by
  obtain ⟨queue, len, running, pending, handler, up, dn⟩ := s
  obtain rfl : queue = d :: q := hq
  cases handler with
  | idle =>
    obtain rfl : pending = true := h.resolve_right fun h => by cases h
    exact ⟨[.start, .dequeue], _, rfl, rfl, rfl⟩
  | loop => exact ⟨[.dequeue], _, rfl, rfl, rfl⟩
  | moving d' => exact ⟨[.moved, .dequeue], _, rfl, rfl, rfl⟩
  | clearing =>
    obtain rfl : pending = true := h.resolve_right fun h => by cases h
    exact ⟨[.clear, .start, .dequeue], _, rfl, rfl, rfl⟩

end

/-! ### Runs -/

def Writer.inRunUpDn : Writer → Bool
  | .store _ | .flush | .returned => false
  | _ => true

lemma inRunUpDn_of_cares {t : Writer} (h : t.cares = true) : t.inRunUpDn = true := by
  cases t <;> first | rfl | cases h

instance (p : Pool Shared Writer) : ∀ l, Decidable (Roomy p l)
  | .act i _ => inferInstanceAs (Decidable (∀ t ∈ p.threads[i]?, t.checks = true →
      p.shared.queueLen < queueMaxLen → commands p < queueMaxLen))
  | .env _ | .spawn _ => .isTrue trivial

instance (p : Pool Shared Writer) : ∀ l, Decidable (Prompt p l)
  | .act i _ => inferInstanceAs (Decidable (∀ t ∈ p.threads[i]?, t = .test →
      ¬ (p.shared.handler = .clearing ∧ p.shared.workRunning = true)))
  | .env _ | .spawn _ => .isTrue trivial

/-- `queue_len` is the length of the queue. It stays within its bound if each writer that passes the
check finds room. If no writer looks at `work_running` while the handler is about to clear it, a
command in the queue is taken. -/
theorem queue_safe (ls : List (Label Writer Bool Work)) (p : Pool Shared Writer)
    (hr : run system.step probed ls = some p) :
    p.shared.queueLen = p.shared.cmdQueue.length ∧
    (Guarded system.step Roomy probed ls → p.shared.queueLen ≤ 64) ∧
    (Guarded system.step Prompt probed ls → (∀ t ∈ p.threads, t.inRunUpDn = false) →
      ∀ d q, p.shared.cmdQueue = d :: q →
        (p.shared.workPending = true ∨ p.shared.handler.takes = true) ∧
        ∃ xs s', run Shared.work p.shared xs = some s' ∧ s'.cmdQueue = q ∧
          s'.handler = .moving d) := by
  have hcounted : p.shared.Counted :=
    run_invariant (I := fun p => p.shared.Counted) (fun _ _ _ => Shared.Counted.step) rfl hr
  refine ⟨hcounted, fun hroomy => ?_, fun hprompt hout d q hq => ?_⟩
  · have hle : commands p ≤ queueMaxLen :=
      hroomy.invariant (fun _ _ _ => commands_step) (Nat.zero_le _) hr
    rw [hcounted]
    simp only [commands, System.total, queueMaxLen] at hle
    omega
  · have hstart : Watched probed := ⟨(fun h => by cases h), fun h => absurd rfl h⟩
    have hwatched : Watched p := hprompt.invariant (fun _ _ _ => Watched.step) hstart hr
    have htaken : p.shared.workPending = true ∨ p.shared.handler.takes = true := by
      rcases hwatched.queue (hq ▸ cons_ne_nil d q) with hpend | htakes | ⟨t, ht, hcares⟩
      · exact .inl hpend
      · exact .inr htakes
      · have hin := hout t ht
        rw [inRunUpDn_of_cares hcares] at hin
        cases hin
    exact ⟨htaken, exists_take htaken hq⟩

def oneStepUp (i : ℕ) : List (Label Writer Bool Work) :=
  .spawn (.store 257) :: List.replicate 8 (.act i true)

theorem queue_safe_one : ∃ p, run system.step probed (oneStepUp 0) = some p ∧
    p.shared.queueLen ≤ 64 ∧
    (p.shared.workPending = true ∨ p.shared.handler.takes = true) :=
  ⟨_, rfl, (queue_safe (oneStepUp 0) _ rfl).2.1 (by decide),
    ((queue_safe (oneStepUp 0) _ rfl).2.2 (by decide) (by decide) .up [] rfl).1⟩

def overrun : List (Label Writer Bool Work) :=
  [.spawn (.store 274) :: List.replicate 38 (.act 0 true),
    .spawn (.store 274) :: List.replicate 38 (.act 1 true),
    .spawn (.store 274) :: List.replicate 38 (.act 2 true),
    .spawn (.store 265) :: List.replicate 20 (.act 3 true),
    [.spawn (.store 257), .spawn (.store 257)],
    List.replicate 3 (.act 4 true), List.replicate 3 (.act 5 true),
    [.act 4 true, .act 5 true]].flatten

def stranded : List (Label Writer Bool Work) :=
  oneStepUp 0 ++ [.env .start, .env .dequeue, .env .moved, .env .dequeue] ++
  (.spawn (.store 257) :: List.replicate 6 (.act 1 true)) ++ [.env .clear]

theorem overrun_and_stranded :
    (∃ p, run system.step probed overrun = some p ∧ p.shared.queueLen = 65) ∧
    ∃ p, run system.step probed stranded = some p ∧ p.shared.cmdQueue = [.up] ∧
      p.threads = [.returned, .returned] ∧ p.shared.workPending = false ∧
      p.shared.handler = .idle := by
  refine ⟨?_, ⟨_, rfl, rfl, rfl, rfl, rfl⟩⟩
  have h : (run system.step probed overrun).map (fun p => p.shared.queueLen) = some 65 := by
    decide +kernel
  exact Option.map_eq_some_iff.mp h

end Keystone.Commands
