import H713.CpuComm.Routine.Register

/-!
# Bulk removal

`RemovePidRoutines` and `RoutineCleanupInCPUReset` free the slots of the entries they select and
leave every link as it is. Entries registered later stay in reach only if nothing is linked behind
the freed slots.
-/

namespace CpuComm

open Machine Function List

namespace Table

variable {t t' : Table} {d : RoutineDesc} {c i : ℕ} {r : ℤ} {l : List ℕ}
variable {sel : RoutineDesc → Prop}

/-! ### The loop over the slots -/

def Hit (t : Table) (sel : RoutineDesc → Prop) (i : ℕ) : Prop := t.compId i ≠ 0 ∧ sel (t.desc i)

def NoneBehind (t : Table) (sel : RoutineDesc → Prop) : Prop :=
  ∀ i < rtMaxIndex + 1, t.compId i ≠ 0 → sel (t.desc i) → t.next i = -1

instance (t : Table) (sel : RoutineDesc → Prop) [DecidablePred sel] :
    Decidable (t.NoneBehind sel) :=
  inferInstanceAs (Decidable (∀ i < rtMaxIndex + 1, _))

instance (t : Table) (sel : RoutineDesc → Prop) [DecidablePred sel] (i : ℕ) :
    Decidable (t.Hit sel i) :=
  inferInstanceAs (Decidable (_ ∧ _))

/-- The selected entries of the slots `is` are freed, and nothing else is changed. -/
structure Clears (sel : RoutineDesc → Prop) (t : Table) (is : List ℕ) (t' : Table) : Prop where
  next : t'.next = t.next
  count : t'.count ≤ t.count
  freed : ∀ i ∈ is, t.Hit sel i → t'.compId i = 0
  kept : ∀ i, ¬ (i ∈ is ∧ t.Hit sel i) → t'.desc i = t.desc i

lemma Clears.trans {t₁ t₂ : Table} {is js : List ℕ} (h : Clears sel t is t₁)
    (h' : Clears sel t₁ js t₂) : Clears sel t (is ++ js) t₂ := by
  refine ⟨h'.next.trans h.next, h'.count.trans h.count, fun i hi hit => ?_, fun i hi => ?_⟩
  · by_cases his : i ∈ is
    · have h0 := h.freed i his hit
      rw [compId, h'.kept i fun hn => hn.2.1 h0]
      exact h0
    · have hk := h.kept i fun hn => his hn.1
      have hjs : i ∈ js := (mem_append.mp hi).resolve_left his
      exact h'.freed i hjs (by rwa [Hit, compId, hk])
  · have hk := h.kept i fun hn => hi ⟨mem_append_left js hn.1, hn.2⟩
    rw [← hk]
    refine h'.kept i fun hn => hi ⟨mem_append_right is hn.1, ?_⟩
    have hit := hn.2
    rwa [Hit, compId, hk] at hit

lemma Clears.congr {sel' : RoutineDesc → Prop} {is : List ℕ} (h : Clears sel t is t')
    (hiff : ∀ i ∈ is, t.compId i ≠ 0 → (sel (t.desc i) ↔ sel' (t.desc i))) :
    Clears sel' t is t' := by
  refine ⟨h.next, h.count, fun i hi hit => ?_, fun i hi => h.kept i fun hn => hi ⟨hn.1, ?_⟩⟩
  · exact h.freed i hi ⟨hit.1, (hiff i hi hit.1).mpr hit.2⟩
  · exact ⟨hn.2.1, (hiff i hn.1 hn.2.1).mp hn.2.2⟩

lemma Clears.of_bumpVersion {is : List ℕ} (h : Clears sel t.bumpVersion is t') :
    Clears sel t is t'.bumpVersion :=
  ⟨h.next, h.count, h.freed, h.kept⟩

variable [DecidablePred sel]

lemma clears_clearIf (t : Table) (j : ℕ) : Clears sel t [j] (clearIf sel t j) := by
  rw [clearIf]
  split_ifs with hc hs
  · refine ⟨rfl, le_rfl, fun i hi hit => ?_, fun _ _ => rfl⟩
    obtain rfl := mem_singleton.mp hi
    exact hc
  · refine ⟨next_clearCompId t j, Int.sub_le_self _ (by decide), fun i hi _ => ?_, fun i hi => ?_⟩
    · obtain rfl := mem_singleton.mp hi
      change ((t.clearCompId i).desc i).compId = 0
      rw [desc_clearCompId, update_self]
    · have hij : i ≠ j := by
        rintro rfl
        exact hi ⟨mem_singleton.mpr rfl, hc, hs⟩
      exact (congrFun (desc_clearCompId t j) i).trans (update_of_ne hij _ _)
  · refine ⟨rfl, le_rfl, fun i hi hit => ?_, fun _ _ => rfl⟩
    obtain rfl := mem_singleton.mp hi
    exact absurd hit.2 hs

lemma clears_foldl (t : Table) (is : List ℕ) : Clears sel t is (is.foldl (clearIf sel) t) := by
  induction is generalizing t with
  | nil => exact ⟨rfl, le_rfl, by simp, fun _ _ => rfl⟩
  | cons j is ih => exact (clears_clearIf t j).trans (ih (clearIf sel t j))

lemma foldl_clearIf_eq_self {is : List ℕ} (h : ∀ i ∈ is, ¬ t.Hit sel i) :
    is.foldl (clearIf sel) t = t := by
  induction is with
  | nil => rfl
  | cons j is ih =>
    have hj : clearIf sel t j = t := by
      rw [clearIf]
      split_ifs with hc hs
      · rfl
      · exact absurd ⟨hc, hs⟩ (h j mem_cons_self)
      · rfl
    rw [foldl_cons, hj]
    exact ih fun i hi => h i (mem_cons_of_mem j hi)

lemma clears_clearWhere (sel : RoutineDesc → Prop) [DecidablePred sel] (t : Table) :
    Clears sel t (List.range (rtMaxIndex + 1)) (t.clearWhere sel) := by
  rw [clearWhere]
  exact (clears_foldl t.bumpVersion _).of_bumpVersion

lemma clearWhere_eq {n : ℕ} (hn : n ≤ rtMaxIndex + 1)
    (hlast : ∀ i < rtMaxIndex + 1, n ≤ i → ¬ t.Hit sel i) :
    t.clearWhere sel = ((List.range n).foldl (clearIf sel) t.bumpVersion).bumpVersion := by
  obtain ⟨m, hm⟩ := Nat.exists_eq_add_of_le hn
  have hcl : Clears sel t.bumpVersion (List.range n) _ := clears_foldl _ _
  rw [clearWhere, hm, range_add, foldl_append]
  congr 1
  refine foldl_clearIf_eq_self fun i hi hit => ?_
  obtain ⟨k, hk, rfl⟩ := mem_map.mp hi
  have hk' := mem_range.mp hk
  have hout : n + k ∉ List.range n := by simp
  rw [Hit, compId, hcl.kept (n + k) fun hc => hout hc.1] at hit
  exact hlast (n + k) (by omega) (by omega) hit

lemma Ok.lt_of_compId (h : t.Ok) (hi : t.compId i ≠ 0) : i < rtMaxIndex + 1 := by
  obtain ⟨l, hl, hm⟩ := h.home i hi
  have := hashIdx_lt (t.compId i)
  simp only [rtMaxIndex]
  rcases mem_cons.mp hm with hm | hm
  · omega
  · have := h.links.mem_chain hl hm
    omega

section

variable (h : t.Ok) (hcl : Clears sel t (List.range (rtMaxIndex + 1)) t')
include h hcl

omit [DecidablePred sel] in
lemma Clears.compId_eq_zero (hi : t.compId i ≠ 0) (hs : sel (t.desc i)) : t'.compId i = 0 :=
  hcl.freed i (mem_range.mpr (h.lt_of_compId hi)) ⟨hi, hs⟩

/-! ### Look-ups after a bulk removal -/

/-- Look-ups after a bulk removal find the entries that are not selected, wherever they are
linked. -/
theorem Clears.find_eq (hcount : t.count ≤ rtMaxIndex) (hc : c ≠ 0) :
    t'.findRoutineEx c = (t.findRoutineEx c).map (Option.filter fun d => ¬ sel d) := by
  obtain ⟨l, hl⟩ := h.chain _ (hashIdx_lt c)
  have hl' : Chain t'.succ (hashIdx c) l := by rwa [succ_congr hcl.next]
  have hlinks : t'.LinksOk := by
    rw [LinksOk, hcl.next]
    exact h.links
  have hback : ∀ k, t'.compId k = c → t'.desc k = t.desc k ∧ t.compId k = c := by
    intro k hk
    have hd : t'.desc k = t.desc k := hcl.kept k fun hn => hc (hk ▸ hcl.freed k hn.1 hn.2)
    exact ⟨hd, by rwa [compId, hd] at hk⟩
  rcases find_chain h.links hcount hl with ⟨j, hj, hjc, hf⟩ | ⟨hall, hf⟩
  · have hj0 : t.compId j ≠ 0 := hjc ▸ hc
    rcases find_chain hlinks (hcl.count.trans hcount) hl' with ⟨k, -, hkc, hf'⟩ | ⟨hall', hf'⟩
    · obtain ⟨hkd, hkc'⟩ := hback k hkc
      obtain rfl := h.unique j k hj0 (hjc.trans hkc'.symm)
      have hs : ¬ sel (t.desc j) := fun hs => hc (hkc ▸ hcl.compId_eq_zero h hj0 hs)
      simp [hf, hf', hkd, hs, Option.filter]
    · have hs : sel (t.desc j) := by
        by_contra hs
        refine hall' j hj ?_
        rw [compId, hcl.kept j fun hn => hs hn.2.2]
        exact hjc
      simp [hf, hf', hs, Option.filter]
  · rcases find_chain hlinks (hcl.count.trans hcount) hl' with ⟨k, hk, hkc, -⟩ | ⟨-, hf'⟩
    · exact absurd (hback k hkc).2 (hall k hk)
    · simp [hf, hf']

/-- A bulk removal of entries that nothing is linked behind leaves a table in order. -/
theorem Clears.ok (hb : t.NoneBehind sel) : t'.Ok := by
  refine h.drop hcl.next (fun i hi => ?_) fun i hi => ?_
  · exact hcl.kept i fun hn => hi (hcl.freed i hn.1 hn.2)
  by_cases hi0 : t.compId i = 0
  · exact h.free i hi0
  · refine hb i (h.lt_of_compId hi0) hi0 ?_
    by_contra hs
    rw [compId, hcl.kept i fun hn => hs hn.2.2] at hi
    exact hi0 hi

end

/-! ### Registration before and after -/

def addStep (t : Table) (d : RoutineDesc) : Option Table := (t.addInRoutine d).map Prod.fst

def StaysFindable (t : Table) : Prop :=
  ∀ ds, Guarded addStep HasRoom t ds → ∃ t₁, run addStep t ds = some t₁ ∧
    (∀ c e, c ≠ 0 → t.findRoutineEx c = some (some e) → t₁.findRoutineEx c = some (some e)) ∧
    ∀ d, t₁.HasRoom d → ∃ t₂ r, t₁.addInRoutine d = some (t₂, r) ∧
      (r = 0 → ∃ e, t₂.findRoutineEx d.compId = some (some e))

/-- The registration invariant. -/
structure Open (t : Table) : Prop where
  ok : t.Ok
  room : t.count ≤ rtMaxIndex

lemma Open.init (stale : ℕ → RoutineDesc) : (init stale).Open :=
  ⟨.init stale, (by decide : (0 : ℤ) ≤ rtMaxIndex)⟩

lemma Open.add (h : t.Open) (hd : t.HasRoom d) :
    ∃ t' r, t.addInRoutine d = some (t', r) ∧ Adds t d t' r ∧ t'.Open := by
  obtain ⟨t', r, ha, hadd⟩ := addInRoutine_adds h.ok h.room d
  exact ⟨t', r, ha, hadd, hadd.ok h.ok, hadd.count_le_max h.ok h.room hd⟩

lemma Adds.find_eq (h : t.Open) (h' : t'.Open) (ha : Adds t d t' r) {e : RoutineDesc} (hc : c ≠ 0)
    (hf : t.findRoutineEx c = some (some e)) : t'.findRoutineEx c = some (some e) := by
  obtain ⟨i, rfl, hic⟩ := (h.ok.find_eq_some_iff h.room hc).mp hf
  refine (h'.ok.find_eq_some_iff h'.room hc).mpr ⟨i, ?_, hic⟩
  exact ha.desc_eq fun h0 => hc (hic.symm.trans h0)

lemma Adds.find_added (h : t.Open) (h' : t'.Open) (ha : Adds t d t' 0) :
    ∃ e, t'.findRoutineEx d.compId = some (some e) := by
  obtain ⟨l, i, hl, hi, hic⟩ := ha.exists_slot h.ok
  rcases find_chain h'.ok.links h'.room hl with ⟨j, -, -, hf⟩ | ⟨hall, -⟩
  · exact ⟨_, hf⟩
  · exact absurd hic (hall i hi)

theorem Open.staysFindable (h : t.Open) : t.StaysFindable := by
  intro ds hg
  -- the run keeps the table open and every routine of `t` in it
  let I : Table → Prop := fun t' => t'.Open ∧
    ∀ c e, c ≠ 0 → t.findRoutineEx c = some (some e) → t'.findRoutineEx c = some (some e)
  have hstep : ∀ t₁ d, I t₁ → t₁.HasRoom d → ∃ t₂, addStep t₁ d = some t₂ ∧ I t₂ := by
    rintro t₁ d ⟨h₁, hk⟩ hd
    obtain ⟨t₂, r, ha, hadd, h₂⟩ := h₁.add hd
    exact ⟨t₂, by rw [addStep, ha]; rfl, h₂, fun c e hc hf => hadd.find_eq h₁ h₂ hc (hk c e hc hf)⟩
  obtain ⟨t₁, hr, h₁, hk⟩ := hg.exists_run hstep ⟨h, fun _ _ _ hf => hf⟩
  refine ⟨t₁, hr, hk, fun d hd => ?_⟩
  obtain ⟨t₂, r, ha, hadd, h₂⟩ := h₁.add hd
  refine ⟨t₂, r, ha, ?_⟩
  rintro rfl
  exact hadd.find_added h₁ h₂

lemma Open.staysFindable_clears (h : t.Open)
    (hcl : Clears sel t (List.range (rtMaxIndex + 1)) t') (hb : t.NoneBehind sel) :
    t'.StaysFindable :=
  Open.staysFindable ⟨hcl.ok h.ok hb, hcl.count.trans h.room⟩

lemma Open.of_run (stale : ℕ → RoutineDesc) {ds : List RoutineDesc}
    (hok : Guarded addStep HasRoom (Table.init stale) ds)
    (hr : run addStep (Table.init stale) ds = some t) : t.Open := by
  refine hok.invariant (fun t₁ d t₂ h₁ hd ha => ?_) (Open.init stale) hr
  obtain ⟨t', r, ha', -, h'⟩ := h₁.add hd
  rw [addStep, ha'] at ha
  cases ha
  exact h'

lemma find_removePid_iff (h : t.Open) (p : ℕ) :
    (∀ c, c ≠ 0 → (t.removePidRoutines p).findRoutineEx c =
        (t.findRoutineEx c).map (Option.filter fun d => d.pid ≠ p)) ↔
      ∀ i < rtMaxIndex + 1, t.compId i ≠ 0 → ((t.desc i).word28 = p ↔ (t.desc i).pid = p) := by
  have hcl : Clears (fun d => d.word28 = p) t (List.range (rtMaxIndex + 1))
      (t.removePidRoutines p) := clears_clearWhere _ t
  constructor
  · intro hfind i _ hi
    have hf := (h.ok.find_eq_some_iff h.room hi).mpr ⟨i, rfl, rfl⟩
    have heq := (hcl.find_eq h.ok h.room hi).symm.trans (hfind _ hi)
    rw [hf] at heq
    by_cases hw : (t.desc i).word28 = p <;> by_cases hp : (t.desc i).pid = p <;>
      simp_all [Option.filter]
  · intro hp c hc
    exact (hcl.congr fun i hi => hp i (mem_range.mp hi)).find_eq h.ok h.room hc

/-- After any registrations that do not fill the table, `RemovePidRoutines` removes the entries of
process `p` exactly if the word at `+28` is `p` for just these, `RoutineCleanupInCPUReset` always
those of its CPU. If nothing is linked behind them, the others stay findable. -/
theorem bulk_removal_exact (stale : ℕ → RoutineDesc) {ds : List RoutineDesc}
    (hok : Guarded addStep HasRoom (Table.init stale) ds)
    (hr : run addStep (Table.init stale) ds = some t) :
    (∀ p,
      ((∀ c, c ≠ 0 → (t.removePidRoutines p).findRoutineEx c =
          (t.findRoutineEx c).map (Option.filter fun d => d.pid ≠ p)) ↔
        ∀ i < rtMaxIndex + 1, t.compId i ≠ 0 →
          ((t.desc i).word28 = p ↔ (t.desc i).pid = p)) ∧
      (t.NoneBehind (fun d => d.word28 = p) → (t.removePidRoutines p).StaysFindable)) ∧
    ∀ cpu,
      (∀ c, c ≠ 0 → (t.routineCleanupInCPUReset cpu).findRoutineEx c =
        (t.findRoutineEx c).map (Option.filter fun d => d.cpu ≠ cpu)) ∧
      (t.NoneBehind (fun d => d.cpu = cpu) → (t.routineCleanupInCPUReset cpu).StaysFindable) := by
  have h : t.Open := .of_run stale hok hr
  refine ⟨fun p => ⟨find_removePid_iff h p, fun hb => ?_⟩, fun cpu => ⟨fun c hc => ?_,
    fun hb => ?_⟩⟩
  · exact h.staysFindable_clears (clears_clearWhere _ t) hb
  · exact (clears_clearWhere (fun d => d.cpu = cpu) t).find_eq h.ok h.room hc
  · exact h.staysFindable_clears (clears_clearWhere _ t) hb

def descOf (cpu pid word28 compId : ℕ) : RoutineDesc :=
  ⟨0, cpu, pid, compId, fun i => if i.val = 4 then word28 else 0, (0, 0)⟩

def zeroInit : Table := init fun _ => descOf 0 0 0 0

def twoProcesses : List RoutineDesc := [descOf 0 7 0 1, descOf 1 6 6 1025]

def twoProcessTable : Table where
  version := 4
  count := 2
  entry := Function.update (Function.update (Function.update zeroInit.entry 1 ⟨descOf 0 7 0 1, -1⟩)
    1024 ⟨descOf 1 6 6 1025, -1⟩) 1 ⟨descOf 0 7 0 1, 1024⟩

lemma run_twoProcesses : run addStep zeroInit twoProcesses = some twoProcessTable := rfl

lemma live_twoProcessTable (hi : twoProcessTable.compId i ≠ 0) : i = 1 ∨ i = 1024 := by
  by_contra h
  rw [not_or] at h
  refine hi ?_
  simp only [compId, desc, twoProcessTable, update_of_ne h.1, update_of_ne h.2]
  rfl

theorem bulk_removal_exact_two :
    (∀ c, c ≠ 0 → (twoProcessTable.removePidRoutines 6).findRoutineEx c =
        (twoProcessTable.findRoutineEx c).map (Option.filter fun d => d.pid ≠ 6)) ∧
      (twoProcessTable.removePidRoutines 6).StaysFindable ∧
      (twoProcessTable.routineCleanupInCPUReset 1).StaysFindable := by
  have hok : Guarded addStep HasRoom zeroInit twoProcesses := by decide +kernel
  obtain ⟨hpid, hcpu⟩ := bulk_removal_exact _ hok run_twoProcesses
  refine ⟨(hpid 6).1.mpr fun i _ hi => ?_, (hpid 6).2 fun i _ hi => ?_, (hcpu 1).2 fun i _ hi => ?_⟩
  all_goals rcases live_twoProcessTable hi with rfl | rfl <;> decide

/-- Process `7` is named at `+4` only and keeps its routine. On a reset of CPU `0`, slot `1` is
freed before its successor, and routine `2049` then gets a slot that no chain reaches. -/
theorem bulk_removal_loses_routines :
    run addStep zeroInit twoProcesses = some twoProcessTable ∧
      (twoProcessTable.removePidRoutines 7).findRoutineEx 1 = some (some (descOf 0 7 0 1)) ∧
      ∃ t, (twoProcessTable.routineCleanupInCPUReset 0).addInRoutine (descOf 0 5 5 2049) =
        some (t, 0) ∧ t.findRoutineEx 2049 = some none := by
  refine ⟨run_twoProcesses, ?_, ?_⟩
  · rw [removePidRoutines, clearWhere_eq (Nat.zero_le _)]
    · rfl
    · rintro i - - ⟨hi, hs⟩
      rcases live_twoProcessTable hi with rfl | rfl <;> revert hs <;> decide
  · rw [routineCleanupInCPUReset, clearWhere_eq (n := 2) (by decide)]
    · exact ⟨_, rfl, rfl⟩
    · rintro i - h2 ⟨hi, hs⟩
      rcases live_twoProcessTable hi with rfl | rfl
      · omega
      · exact absurd hs (by decide)

end Table

end CpuComm
