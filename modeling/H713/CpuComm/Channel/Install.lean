import H713.CpuComm.Channel.Keyed
import H713.CpuComm.Routine.Chains

/-!
# The channels of installed routines

The machine below runs any calls of the two installers and of the two removals on one routine table
and one channel pool. Its main result is what each call does to the channels.
-/

namespace CpuComm

open Machine Option

/-! ### The removal of a routine -/

namespace Table

variable {t : Table} {d : RoutineDesc}

def successor (t : Table) (i : ℕ) : RoutineDesc :=
  if 0 ≤ t.next i ∧ t.next i ≤ rtMaxIndex then t.desc (t.next i).toNat else t.desc i

def Removable (t : Table) (d : RoutineDesc) : Prop :=
  t.count ≤ rtMaxIndex ∧
    match t.walk d.compId walkFuel (hashIdx d.compId) with
    | some (.found i) => (t.desc i).cpu ≤ 1 ∧ d.name = (t.successor i).name ∧
        d.pid = (t.successor i).pid ∧ (t.successor i).cpu = getCurCPUID
    | _ => False

instance (t : Table) (d : RoutineDesc) : Decidable (t.Removable d) := by
  unfold Removable
  split <;> infer_instance

lemma exists_desc_unlink (t : Table) (i : ℕ) :
    ∃ c, (t.unlink i).desc i = { t.successor i with compId := c } := by
  have hentry (u : Table) (j : ℕ) : (u.entry j).desc = u.desc j := rfl
  unfold unlink successor
  by_cases hn : 0 ≤ t.next i ∧ t.next i ≤ rtMaxIndex
  · by_cases hi : i = (t.next i).toNat
    · exact ⟨0, by simp [hn, ← hi, hentry]⟩
    · exact ⟨t.compId (t.next i).toNat, by simp [hn, hi, hentry, compId, Ne.symm hi]⟩
  · exact ⟨0, by simp [hn]⟩

lemma removeResult_unlink (t : Table) (d : RoutineDesc) (i : ℕ) :
    (t.unlink i).removeResult d i
      = if d.name = (t.successor i).name ∧ d.pid = (t.successor i).pid ∧
          (t.successor i).cpu = getCurCPUID then 0 else 1 := by
  obtain ⟨c, hc⟩ := exists_desc_unlink t i
  rw [removeResult, hc]

lemma Removable.removeRoutine (h : t.Removable d) : ∃ t', t.removeRoutine d = some (t', 0) := by
  obtain ⟨hcount, hwalk⟩ := h
  rw [Table.removeRoutine, if_neg (by omega), removeChecked, walk_bumpVersion]
  split at hwalk
  next i hi =>
    obtain ⟨hcpu, hleft⟩ := hwalk
    have hcpu' : ¬ (t.bumpVersion.desc i).cpu > 1 := by simpa using hcpu
    simp only [hi, map_some, removeAt, if_neg hcpu', removeResult_unlink]
    exact ⟨_, by rw [if_pos (by exact hleft)]⟩
  next => exact hwalk.elim

end Table

/-! ### The installers -/

/-- The routine table and the channel pool of the driver. -/
structure Installation where
  table : Table
  pool : ChannelPool

namespace Installation

open ChannelPool

def installRoutine (s : Installation) (d : RoutineDesc) : Option (Installation × ℤ) :=
  (s.table.addInRoutine d).map fun (t, ret) =>
    if ret ≠ 0 then (⟨t, s.pool⟩, -1)
    else
      let (p, ret) := s.pool.ensureChannel d.compId d.pid
      (⟨t, p⟩, ret)

def ioctlPairs (d : RoutineDesc) (pid : ℕ) : List (ℕ × ℕ) :=
  (d.name, d.pid) :: if d.cpu = 0 then [(1, pid)] else []

def ioctlInstall (s : Installation) (d : RoutineDesc) (pid : ℕ) : Option (Installation × ℤ) :=
  (s.table.addInRoutine d).map fun (t, ret) =>
    if ret ≠ 0 then (⟨t, s.pool⟩, -14) else (⟨t, s.pool.ensureChannels (ioctlPairs d pid)⟩, 0)

def unInstallRoutine (s : Installation) (d : RoutineDesc) : Option (Installation × ℤ) :=
  (s.table.removeRoutine d).map fun (t, ret) =>
    if ret = 0 then (⟨t, (s.pool.commRemoveChannel d.compId d.pid).1⟩, 0)
    else (⟨t, s.pool⟩, if ret < 0 then ret else 0)

def ioctlUnInstall (s : Installation) (d : RoutineDesc) : Option (Installation × ℤ) :=
  (s.table.removeRoutine d).map fun (t, ret) => (⟨t, s.pool⟩, if ret < 0 then -14 else 0)

inductive Op
  | install (d : RoutineDesc)
  | ioctlInstall (d : RoutineDesc) (pid : ℕ)
  | unInstall (d : RoutineDesc)
  | ioctlUnInstall (d : RoutineDesc)

def exec (s : Installation) : Op → Option (Installation × ℤ)
  | .install d          => s.installRoutine d
  | .ioctlInstall d pid => s.ioctlInstall d pid
  | .unInstall d        => s.unInstallRoutine d
  | .ioctlUnInstall d   => s.ioctlUnInstall d

def step (s : Installation) (op : Op) : Option Installation := (s.exec op).map Prod.fst

def Delivers (r : ℤ) (p : ChannelPool) : Op → Prop
  | .install d          => r = 0 → p.HasChannel d.compId d.pid
  | .ioctlInstall d pid => r = 0 → ∀ cu ∈ ioctlPairs d pid, p.HasChannel cu.1 cu.2
  | .unInstall d        =>
    ∀ c, c % 16 = d.compId % 16 → p.commQueryChannel (queryKey c d.pid) = none
  | .ioctlUnInstall _   => True

def Ok (s : Installation) : Op → Prop
  | .install d          => Fits d.compId d.pid
  | .ioctlInstall d pid =>
    (∀ cu ∈ ioctlPairs d pid, Fits cu.1 cu.2) ∧ s.pool.RoomFor (ioctlPairs d pid)
  | .unInstall d        => Fits d.compId d.pid ∧ s.table.Removable d
  | .ioctlUnInstall _   => True

instance (s : Installation) (op : Op) : Decidable (s.Ok op) := by
  cases op <;> unfold Ok <;> infer_instance

variable {s s' : Installation} {d : RoutineDesc} {r : ℤ} {pid : ℕ}

lemma installRoutine_keyed (h : s.pool.Keyed) (hf : Fits d.compId d.pid)
    (he : s.installRoutine d = some (s', r)) :
    s'.pool.Keyed ∧ (r = 0 → s'.pool.HasChannel d.compId d.pid) := by
  obtain ⟨⟨t, ret⟩, -, heq⟩ := map_eq_some_iff.mp he
  by_cases hret : ret = 0
  · rcases hp : s.pool.ensureChannel d.compId d.pid with ⟨p, r'⟩
    simp only [hret, hp, ne_eq, not_true_eq_false, if_false] at heq
    obtain ⟨rfl, rfl⟩ := Prod.mk.inj heq
    obtain ⟨hkeyed, hnew, -⟩ := h.ensureChannel hf hp
    exact ⟨hkeyed, fun h0 => hkeyed.hasChannel hf (hnew h0)⟩
  · simp only [ne_eq, hret, not_false_eq_true, if_true] at heq
    obtain ⟨rfl, rfl⟩ := Prod.mk.inj heq
    exact ⟨h, fun h0 => absurd h0 (by decide)⟩

lemma ioctlInstall_keyed (h : s.pool.Keyed) (hf : ∀ cu ∈ ioctlPairs d pid, Fits cu.1 cu.2)
    (hroom : s.pool.RoomFor (ioctlPairs d pid)) (he : s.ioctlInstall d pid = some (s', r)) :
    s'.pool.Keyed ∧ (r = 0 → ∀ cu ∈ ioctlPairs d pid, s'.pool.HasChannel cu.1 cu.2) := by
  obtain ⟨⟨t, ret⟩, -, heq⟩ := map_eq_some_iff.mp he
  by_cases hret : ret = 0
  · simp only [hret, ne_eq, not_true_eq_false, if_false] at heq
    obtain ⟨rfl, rfl⟩ := Prod.mk.inj heq
    obtain ⟨hkeyed, hnew, -⟩ := h.ensureChannels hf hroom
    exact ⟨hkeyed, fun _ cu hcu => hkeyed.hasChannel (hf cu hcu) (hnew cu hcu)⟩
  · simp only [ne_eq, hret, not_false_eq_true, if_true] at heq
    obtain ⟨rfl, rfl⟩ := Prod.mk.inj heq
    exact ⟨h, fun h0 => absurd h0 (by decide)⟩

lemma unInstallRoutine_keyed (h : s.pool.Keyed) (hf : Fits d.compId d.pid)
    (hd : s.table.Removable d) (he : s.unInstallRoutine d = some (s', r)) :
    s'.pool.Keyed ∧
      ∀ c, c % 16 = d.compId % 16 → s'.pool.commQueryChannel (queryKey c d.pid) = none := by
  obtain ⟨t, ht⟩ := hd.removeRoutine
  rw [unInstallRoutine, ht, map_some] at he
  obtain ⟨rfl, rfl⟩ := Prod.mk.inj (Option.some.inj he)
  refine ⟨h.commRemoveChannel d.compId d.pid, fun c hc => query_eq_none ?_⟩
  have hkey : queryKey c d.pid = channelId d.compId d.pid := by
    rw [hf.channelId_eq, queryKey, queryKey, hc]
  rw [hkey]
  exact h.slotsOf_commRemoveChannel (hf.channelId_eq ▸ hf.queryKey_ne_zero)

lemma ioctlUnInstall_pool (he : s.ioctlUnInstall d = some (s', r)) : s'.pool = s.pool := by
  obtain ⟨⟨t, ret⟩, -, heq⟩ := map_eq_some_iff.mp he
  obtain ⟨rfl, -⟩ := Prod.mk.inj heq
  rfl

lemma exec_keyed {op : Op} (h : s.pool.Keyed) (hok : s.Ok op) (he : s.exec op = some (s', r)) :
    s'.pool.Keyed ∧ Delivers r s'.pool op := by
  cases op with
  | install d => exact installRoutine_keyed h hok he
  | ioctlInstall d pid => exact ioctlInstall_keyed h hok.1 hok.2 he
  | unInstall d => exact unInstallRoutine_keyed h hok.1 hok.2 he
  | ioctlUnInstall d => exact ⟨ioctlUnInstall_pool he ▸ h, trivial⟩

lemma step_keyed {op : Op} (h : s.pool.Keyed) (hok : s.Ok op) (hs : s.step op = some s') :
    s'.pool.Keyed := by
  obtain ⟨⟨s₁, r⟩, he, rfl⟩ := map_eq_some_iff.mp hs
  exact (exec_keyed h hok he).1

/-- While the calls are `Ok`, an installer that returns `0` leaves exactly one slot for each of its
channels, which its key finds, and a removal takes the channel of its descriptor away. -/
theorem installed_channels (base : ℕ) (t : Table) {ops : List Op} {op : Op}
    (hg : Guarded step Ok ⟨t, channelPoolInit base⟩ (ops ++ [op]))
    (hs : run step ⟨t, channelPoolInit base⟩ ops = some s) (he : s.exec op = some (s', r)) :
    Delivers r s'.pool op := by
  have hkeyed : s.pool.Keyed :=
    hg.append_left.invariant (I := fun s => s.pool.Keyed) (fun _ _ _ => step_keyed)
      (Keyed.init base) hs
  exact (exec_keyed hkeyed (hg.last hs) he).2

def fresh : Installation :=
  ⟨Table.init fun _ => ⟨0, 0, 0, 0, fun _ => 0, (0, 0)⟩, channelPoolInit 0⟩

def routineOf (compId : ℕ) : RoutineDesc := ⟨3, 0, 1000, compId, fun _ => 0, (0, 0)⟩

/-- A routine with component id 3 is installed twice, and removed. -/
theorem installed_channels_twice :
    ∃ s s' s'', run step fresh [.install (routineOf 3)] = some s ∧
      s.exec (.install (routineOf 3)) = some (s', 0) ∧ s'.pool.HasChannel 3 1000 ∧
      s'.exec (.unInstall (routineOf 3)) = some (s'', 0) ∧
      s''.pool.commQueryChannel (queryKey 3 1000) = none := by
  have hg₂ : Guarded step Ok fresh [.install (routineOf 3), .install (routineOf 3)] := by
    decide +kernel
  have hg₃ : Guarded step Ok fresh [.install (routineOf 3), .install (routineOf 3),
      .unInstall (routineOf 3)] := by
    decide +kernel
  obtain ⟨s, hs⟩ : ∃ s, run step fresh [.install (routineOf 3)] = some s := ⟨_, rfl⟩
  obtain ⟨s', he⟩ : ∃ s', s.exec (.install (routineOf 3)) = some (s', 0) := by
    cases hs
    exact ⟨_, rfl⟩
  obtain ⟨s'', he'⟩ : ∃ s'', s'.exec (.unInstall (routineOf 3)) = some (s'', 0) := by
    cases hs
    cases he
    exact ⟨_, rfl⟩
  have hs' : run step fresh [.install (routineOf 3), .install (routineOf 3)] = some s' := by
    cases hs
    exact congrArg (Option.map Prod.fst) he
  exact ⟨s, s', s'', hs, he, installed_channels 0 _ hg₂ hs he rfl, he',
    installed_channels 0 _ hg₃ hs' he' 3 rfl⟩

/-- With component id 16 the key of the installer does not find the channel it has added, and it
adds another one with each call. -/
theorem installed_channel_lost :
    (fresh.exec (.install (routineOf 16))).map
        (fun (s, r) => (r, s.pool.commQueryChannel (queryKey 16 1000))) = some (0, none) ∧
    (run step fresh [.install (routineOf 16), .install (routineOf 16)]).map
        (fun s => s.pool.slotsOf (channelId 16 1000)) = some {0, 1} := by
  decide +kernel

end Installation

end CpuComm
