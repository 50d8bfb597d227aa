import H713.CpuComm.Socket.Steps

/-!
# The send semaphore

A thread is inside the section from the acquisition of the send semaphore, granted or given up, to
the `up` at the end. Two steps change the sum of the count and the threads inside.
-/

namespace CpuComm

open Machine

def Pc.inside : Pc → Bool
  | .locked | .slotted | .verify | .session | .peek | .take | .link | .copyBack
  | .dispatch | .ackWait | .unlink | .release | .up => true
  | _ => false

def Thread.inside (t : Thread) : ℕ := if t.pc.inside then 1 else 0

variable (p : Pool Socket Thread)

def insideCount : ℕ := (p.threads.map Thread.inside).sum

def Orderly : Label Thread Event Env → Prop
  | .act i e => ∀ t ∈ p.threads[i]?,
      ¬(t.pc = .acquire ∧ e = .timeout) ∧ ¬(t.pc = .verify ∧ e = .mismatch)
  | _ => True

instance (l : Label Thread Event Env) : Decidable (Orderly p l) :=
  match l with
  | .act i _ => inferInstanceAs (Decidable (∀ t ∈ p.threads[i]?, _))
  | .env _   => .isTrue trivial
  | .spawn _ => .isTrue trivial

lemma sendSem_act {dir : Direction} {s s' : Socket} {i : ℕ} {t t' : Thread} {e : Event}
    (h : Acts dir s i t e s' t') :
    s'.sendSem + t'.inside + (if t.pc = .verify ∧ e = .mismatch then 1 else 0) =
      s.sendSem + t.inside + (if t.pc = .acquire ∧ e = .timeout then 1 else 0) := by
  cases h with
  | acquire hpc hsem =>
    simp only [Thread.inside, Pc.inside, ↓reduceIte, hpc, reduceCtorEq, and_self, add_zero,
      Bool.false_eq_true, and_false]
    omega
  | release hpc hw hs | releaseEnd hpc hw hs =>
    rw [Socket.releaseWaitComm_frame hs]
    simp [Thread.inside, Pc.inside, hpc]
  | _ =>
    simp [Thread.inside, Pc.inside, Socket.getWaitbySessionId, Socket.takeFreeWait,
      Socket.addtoWaitComm, Socket.returnPipeLine, *]

lemma inside_act {dir : Direction} {s s' : Socket} {i : ℕ} {t t' : Thread} {e : Event}
    (h : Acts dir s i t e s' t') (hpc : t.pc ≠ .acquire) : t'.inside ≤ t.inside := by
  cases h with
  | acquire h | bypass h => exact absurd h hpc
  | _ => simp [Thread.inside, Pc.inside, *]

lemma sendSem_env {s s' : Socket} {x : Env} (h : Envs s x s') : s'.sendSem = s.sendSem := by
  cases h with
  | recvReturn e =>
    unfold Socket.addReturn2Fifo
    split_ifs <;> rfl
  | _ => rfl

/-- Where count and threads inside make one, a step keeps that exactly when it is neither a
timed-out acquisition nor a mismatch exit. -/
theorem exclusive_step {dir : Direction} {p p' : Pool Socket Thread}
    {l : Label Thread Event Env} (hp : p.shared.sendSem + insideCount p = 1)
    (h : (socket dir).step p l = some p') :
    p'.shared.sendSem + insideCount p' = 1 ↔ Orderly p l := by
  unfold insideCount at hp ⊢
  cases System.steps_of_step h with
  | @act i e t t' s' ht ha =>
    have hsum := System.sum_map_set t' Thread.inside ht
    have hact := sendSem_act (acts_of_act ha)
    have horderly : Orderly p (.act i e) ↔
        ¬(t.pc = .acquire ∧ e = .timeout) ∧ ¬(t.pc = .verify ∧ e = .mismatch) := by
      simp only [Orderly, ht, Option.mem_some_iff, forall_eq']
    rw [horderly]
    change s'.sendSem + ((p.threads.set i t').map Thread.inside).sum = 1 ↔ _
    -- a step is not both, as the program counter differs
    by_cases ha₁ : t.pc = .acquire ∧ e = .timeout
    · have ha₂ : ¬(t.pc = .verify ∧ e = .mismatch) := by simp [ha₁.1]
      rw [if_pos ha₁, if_neg ha₂] at hact
      exact iff_of_false (by omega) fun h => h.1 ha₁
    · by_cases ha₂ : t.pc = .verify ∧ e = .mismatch
      · rw [if_neg ha₁, if_pos ha₂] at hact
        exact iff_of_false (by omega) fun h => h.2 ha₂
      · rw [if_neg ha₁, if_neg ha₂] at hact
        exact iff_of_true (by omega) ⟨ha₁, ha₂⟩
  | env hx =>
    simp only [Orderly, iff_true, sendSem_env (envs_of_env hx)]
    exact hp
  | @spawn t ht =>
    have hstart : t.inside = 0 := by
      rw [(starts_spec ht).1]
      rfl
    simpa [Orderly, hstart] using hp

/-- In a run from an initialised socket, count and threads inside make one throughout exactly when
no acquisition times out and no send leaves on a slot address mismatch. -/
theorem send_section_exclusive_iff {dir : Direction} {ls : List (Label Thread Event Env)}
    {p : Pool Socket Thread} (hrun : run (socket dir).step socketInit ls = some p) :
    (∀ ms q, ms <+: ls → run (socket dir).step socketInit ms = some q →
      insideCount q ≤ 1 ∧ q.shared.sendSem + insideCount q = 1) ↔
    Guarded (socket dir).step Orderly socketInit ls := by
  rw [guarded_iff_invariant (fun _ _ _ => exclusive_step) rfl hrun]
  refine forall₄_congr fun ms q _ _ => ⟨And.right, fun h => ⟨?_, h⟩⟩
  omega

/-- Two notifications take turns, the second one is refused. -/
theorem send_section_exclusive_two_notifies :
    ∃ ls p, run (socket .call).step socketInit ls = some p ∧ p.threads.length = 2 ∧
      ∀ ms q, ms <+: ls → run (socket .call).step socketInit ms = some q →
        insideCount q ≤ 1 ∧ q.shared.sendSem + insideCount q = 1 := by
  refine ⟨[.spawn cpuCommNotify.start, .spawn cpuCommNotify.start, .act 0 .go, .act 0 .go,
    .act 1 .go, .act 0 (.bail (-1)), .act 0 .go, .act 1 .go], _, rfl, rfl, ?_⟩
  exact (send_section_exclusive_iff rfl).mpr (by decide)

/-- While one call waits for its ACK, a second one gives up after 100 ms and enters as well. -/
theorem send_section_shared_after_timeout :
    ∃ ls p, run (socket .call).step socketInit ls = some p ∧ insideCount p = 2 :=
  ⟨[.spawn cpuCommCallEx.start, .spawn cpuCommCallEx.start, .act 0 .go, .act 0 .go, .act 1 .go,
    .act 1 .timeout], _, rfl, rfl⟩

end CpuComm
