import ClawKernel.Lib.Runs
import Mathlib.Data.List.Nodup
import Mathlib.Data.Nat.Basic

/-! `VersionedModule`: the loaded module, its version counter and the history that
`rollback` reads. Every version is written by one block of the source: count up,
append to the history, drop the oldest entry beyond `max_history`, store the pointer.
-/
namespace ClawKernel.Tools.Versioned
open Lib.Runs

structure ModuleVersion (T : Type) where
  version : Nat
  content : T
  loadedAt : Nat
  deriving DecidableEq, Repr

/-- The counter is the source's `u64`; `counter_le` bounds it by the calls made. -/
structure VersionedModule (T : Type) where
  current : T
  versions : List (ModuleVersion T)
  versionCounter : Nat
  maxHistory : Nat
  deriving DecidableEq, Repr

section Operations
variable {T : Type}

def new (initial : T) (now : Nat) : VersionedModule T where
  current := initial
  versions := [⟨1,initial,now⟩]
  versionCounter := 1
  maxHistory := 10

def withCapacity (initial : T) (maxHistory now : Nat) : VersionedModule T where
  current := initial
  versions := [⟨1,initial,now⟩]
  versionCounter := 1
  maxHistory := max maxHistory 1

def load (s : VersionedModule T) : T := s.current

def currentVersion (s : VersionedModule T) : Nat := s.versionCounter

/-- `if versions.len() > max_history { versions.remove(0) }` -/
def trimOldest (maxHistory : Nat) (versions : List (ModuleVersion T)) : List (ModuleVersion T) :=
  if maxHistory < versions.length then versions.tail else versions

/-- The loop of `set_max_history`, one `remove(0)` a turn. -/
def trimAll (maxHistory : Nat) : List (ModuleVersion T) → List (ModuleVersion T)
  | [] => []
  | oldest :: rest => if maxHistory < (oldest :: rest).length then trimAll maxHistory rest else oldest :: rest

def pushVersion (s : VersionedModule T) (content : T) (now : Nat) : VersionedModule T :=
  { s with
    versionCounter := s.versionCounter + 1
    versions := trimOldest s.maxHistory (s.versions ++ [⟨s.versionCounter + 1,content,now⟩])
    current := content }

def swap (s : VersionedModule T) (newModule : T) (now : Nat) : VersionedModule T × Nat :=
  (pushVersion s newModule now,s.versionCounter + 1)

def rollback (s : VersionedModule T) (targetVersion now : Nat) : VersionedModule T × Bool :=
  match s.versions.find? (fun v => v.version == targetVersion) with
  | some target => (pushVersion s target.content now,true)
  | none => (s,false)

def rollbackPrevious (s : VersionedModule T) (now : Nat) : VersionedModule T × Bool :=
  if 2 ≤ s.versions.length then
    match s.versions[s.versions.length - 2]? with
    | some previous => (pushVersion s previous.content now,true)
    | none => (s,false)
  else (s,false)

def setMaxHistory (s : VersionedModule T) (maxHistory : Nat) : VersionedModule T :=
  { s with
    versions := trimAll (max maxHistory 1) s.versions
    maxHistory := max maxHistory 1 }

inductive Call (T : Type) where
  | swap (newModule : T) (now : Nat)
  | rollback (targetVersion now : Nat)
  | rollbackPrevious (now : Nat)
  | setMaxHistory (maxHistory : Nat)
  deriving DecidableEq, Repr

def step (s : VersionedModule T) : Call T → VersionedModule T
  | .swap newModule now => (swap s newModule now).1
  | .rollback targetVersion now => (rollback s targetVersion now).1
  | .rollbackPrevious now => (rollbackPrevious s now).1
  | .setMaxHistory maxHistory => setMaxHistory s maxHistory

inductive Created (initial : T) : VersionedModule T → Prop where
  | new (now : Nat) : Created initial (new initial now)
  | withCapacity (maxHistory now : Nat) : Created initial (withCapacity initial maxHistory now)

end Operations

section History
variable {T : Type}

structure Consistent (s : VersionedModule T) : Prop where
  nonempty : s.versions ≠ []
  bounded : s.versions.length ≤ s.maxHistory
  increasing : s.versions.Pairwise (fun older newer => older.version < newer.version)
  newest : ∃ loadedAt, s.versions.getLast? = some ⟨currentVersion s,load s,loadedAt⟩

theorem created_consistent (initial : T) (s : VersionedModule T) (created : Created initial s) : Consistent s := by
  cases created with
  | new now => exact ⟨List.cons_ne_nil _ _,by simp [new],List.pairwise_singleton _ _,now,rfl⟩
  | withCapacity maxHistory now =>
    exact ⟨List.cons_ne_nil _ _,Nat.le_max_right maxHistory 1,List.pairwise_singleton _ _,now,rfl⟩

theorem newest_bound (s : VersionedModule T) (consistent : Consistent s) :
    ∀ v ∈ s.versions, v.version ≤ s.versionCounter := by
  obtain ⟨loadedAt,newest⟩ := consistent.newest
  obtain ⟨older,split⟩ := List.getLast?_eq_some_iff.mp newest
  have increasing := consistent.increasing
  rw [split] at increasing
  intro v member
  rw [split,List.mem_append,List.mem_singleton] at member
  cases member with
  | inl before => exact ((List.pairwise_append.mp increasing).2.2 v before _ (List.mem_singleton_self _)).le
  | inr last => exact (congrArg ModuleVersion.version last).le

theorem trimOldest_suffix (maxHistory : Nat) (versions : List (ModuleVersion T)) :
    trimOldest maxHistory versions <:+ versions := by
  unfold trimOldest
  split_ifs
  · exact List.tail_suffix versions
  · exact List.suffix_rfl

theorem trimAll_suffix (maxHistory : Nat) (versions : List (ModuleVersion T)) :
    trimAll maxHistory versions <:+ versions := by
  induction versions with
  | nil => exact List.suffix_rfl
  | cons oldest rest ih =>
    unfold trimAll
    split_ifs
    · exact ih.trans (List.suffix_cons oldest rest)
    · exact List.suffix_rfl

theorem trimOldest_length (maxHistory : Nat) (versions : List (ModuleVersion T))
    (bound : versions.length ≤ maxHistory + 1) : (trimOldest maxHistory versions).length ≤ maxHistory := by
  unfold trimOldest
  split_ifs with longer
  · rw [List.length_tail]
    omega
  · exact Nat.le_of_not_lt longer

theorem trimAll_length (maxHistory : Nat) (versions : List (ModuleVersion T)) :
    (trimAll maxHistory versions).length ≤ maxHistory := by
  induction versions with
  | nil => exact Nat.zero_le _
  | cons oldest rest ih =>
    unfold trimAll
    split_ifs with longer
    · exact ih
    · exact Nat.le_of_not_lt longer

theorem trimAll_nonempty (maxHistory : Nat) (positive : 0 < maxHistory) (versions : List (ModuleVersion T))
    (nonempty : versions ≠ []) : trimAll maxHistory versions ≠ [] := by
  induction versions with
  | nil => exact absurd rfl nonempty
  | cons oldest rest ih =>
    unfold trimAll
    split_ifs with longer
    · apply ih
      intro empty
      rw [empty,List.length_singleton] at longer
      omega
    · exact nonempty

/-- A non-empty end of the history has the same newest entry, so a shorter history that
keeps one entry stays consistent. -/
theorem consistent_of_suffix (s : VersionedModule T) (consistent : Consistent s) (kept : List (ModuleVersion T))
    (maxHistory : Nat) (suffix : kept <:+ s.versions) (nonempty : kept ≠ []) (bound : kept.length ≤ maxHistory) :
    Consistent { s with versions := kept, maxHistory := maxHistory } := by
  obtain ⟨loadedAt,newest⟩ := consistent.newest
  refine ⟨nonempty,bound,consistent.increasing.sublist suffix.sublist,loadedAt,?_⟩
  obtain ⟨dropped,split⟩ := suffix
  rw [← split,List.getLast?_append_of_ne_nil dropped nonempty] at newest
  exact newest

theorem pushVersion_consistent (s : VersionedModule T) (consistent : Consistent s) (content : T) (now : Nat) :
    Consistent (pushVersion s content now) := by
  have older : ∀ v ∈ s.versions, v.version < s.versionCounter + 1 :=
    fun v member => Nat.lt_succ_of_le (newest_bound s consistent v member)
  -- the state between `push` and the trim: one entry more than the history may keep
  have pushed : Consistent
      { s with
        versionCounter := s.versionCounter + 1
        versions := s.versions ++ [⟨s.versionCounter + 1,content,now⟩]
        current := content
        maxHistory := s.maxHistory + 1 } := by
    refine ⟨List.concat_ne_nil _ _,?_,?_,now,List.getLast?_concat⟩
    · rw [List.length_append,List.length_singleton]
      exact Nat.succ_le_succ consistent.bounded
    · apply List.pairwise_append.mpr
      refine ⟨consistent.increasing,List.pairwise_singleton _ _,?_⟩
      intro v member newest last
      rw [List.mem_singleton.mp last]
      exact older v member
  apply consistent_of_suffix _ pushed
  · exact trimOldest_suffix s.maxHistory _
  · have positive := List.length_pos_of_ne_nil consistent.nonempty
    apply List.ne_nil_of_length_pos
    unfold trimOldest
    split_ifs
    · rw [List.length_tail,List.length_append,List.length_singleton]
      omega
    · exact List.length_pos_of_ne_nil (List.concat_ne_nil _ _)
  · apply trimOldest_length
    rw [List.length_append,List.length_singleton]
    exact Nat.succ_le_succ consistent.bounded

theorem setMaxHistory_consistent (s : VersionedModule T) (consistent : Consistent s) (maxHistory : Nat) :
    Consistent (setMaxHistory s maxHistory) := by
  apply consistent_of_suffix s consistent
  · exact trimAll_suffix _ s.versions
  · exact trimAll_nonempty _ (Nat.lt_of_lt_of_le Nat.zero_lt_one (Nat.le_max_right _ _)) _ consistent.nonempty
  · exact trimAll_length _ s.versions

theorem rollback_cases (s : VersionedModule T) (targetVersion now : Nat) :
    (∃ target ∈ s.versions, target.version = targetVersion ∧
      rollback s targetVersion now = (pushVersion s target.content now,true)) ∨
    ((∀ v ∈ s.versions, v.version ≠ targetVersion) ∧ rollback s targetVersion now = (s,false)) := by
  unfold rollback
  cases found : s.versions.find? (fun v => v.version == targetVersion) with
  | some target =>
    have matched := List.find?_some found
    exact Or.inl ⟨target,List.mem_of_find?_eq_some found,by simpa using matched,rfl⟩
  | none => exact Or.inr ⟨by simpa using found,rfl⟩

theorem rollbackPrevious_cases (s : VersionedModule T) (now : Nat) :
    (∃ older previous newest, s.versions = older ++ [previous,newest] ∧
      rollbackPrevious s now = (pushVersion s previous.content now,true)) ∨
    (s.versions.length < 2 ∧ rollbackPrevious s now = (s,false)) := by
  unfold rollbackPrevious
  split_ifs with enough
  · have bound : s.versions.length - 2 < s.versions.length := by omega
    rw [List.getElem?_eq_getElem bound]
    refine Or.inl ⟨s.versions.take (s.versions.length - 2),s.versions[s.versions.length - 2],
      s.versions[s.versions.length - 1],?_,rfl⟩
    have split := List.take_append_drop (s.versions.length - 2) s.versions
    rw [List.drop_eq_getElem_cons bound,List.drop_eq_getElem_cons (by omega : s.versions.length - 2 + 1 < _),
      List.drop_of_length_le (by omega)] at split
    have next : s.versions.length - 2 + 1 = s.versions.length - 1 := by omega
    simp only [next] at split
    exact split.symm
  · exact Or.inr ⟨Nat.lt_of_not_le enough,rfl⟩

theorem step_consistent (s : VersionedModule T) (call : Call T) (consistent : Consistent s) :
    Consistent (step s call) := by
  cases call with
  | swap newModule now => exact pushVersion_consistent s consistent newModule now
  | rollback targetVersion now =>
    rcases rollback_cases s targetVersion now with ⟨target,_,_,done⟩ | ⟨_,done⟩
    · rw [step,done]
      exact pushVersion_consistent s consistent target.content now
    · rw [step,done]
      exact consistent
  | rollbackPrevious now =>
    rcases rollbackPrevious_cases s now with ⟨_,previous,_,_,done⟩ | ⟨_,done⟩
    · rw [step,done]
      exact pushVersion_consistent s consistent previous.content now
    · rw [step,done]
      exact consistent
  | setMaxHistory maxHistory => exact setMaxHistory_consistent s consistent maxHistory

/-- Each call counts up at most once: the `u64` counter cannot wrap in a run of fewer
than `2 ^ 64 - 1` calls. -/
theorem counter_le (s : VersionedModule T) (calls : List (Call T)) :
    (run step s calls).versionCounter ≤ s.versionCounter + calls.length := by
  induction calls generalizing s with
  | nil => exact le_rfl
  | cons call rest ih =>
    have now : (step s call).versionCounter ≤ s.versionCounter + 1 := by
      cases call with
      | swap newModule now => exact le_rfl
      | rollback targetVersion now =>
        rcases rollback_cases s targetVersion now with ⟨_,_,_,done⟩ | ⟨_,done⟩
        · rw [step,done]
          exact le_rfl
        · rw [step,done]
          exact Nat.le_succ _
      | rollbackPrevious now =>
        rcases rollbackPrevious_cases s now with ⟨_,_,_,_,done⟩ | ⟨_,done⟩
        · rw [step,done]
          exact le_rfl
        · rw [step,done]
          exact Nat.le_succ _
      | setMaxHistory maxHistory => exact Nat.le_succ _
    have later := ih (step s call)
    rw [List.length_cons]
    change (run step (step s call) rest).versionCounter ≤ _
    omega

/-- What a `rollback` that answers `done` on `s` and leaves `s'` may claim. -/
def RollbackSound (s s' : VersionedModule T) (targetVersion : Nat) (done : Bool) : Prop :=
  (done = true → (∃ v ∈ s.versions, v.version = targetVersion) ∧
    ∀ v ∈ s.versions, v.version = targetVersion → load s' = v.content) ∧
  (done = false → s' = s)

theorem rollback_sound (s : VersionedModule T) (consistent : Consistent s) (targetVersion now : Nat) :
    RollbackSound s (rollback s targetVersion now).1 targetVersion (rollback s targetVersion now).2 := by
  rcases rollback_cases s targetVersion now with ⟨target,member,same,done⟩ | ⟨_,done⟩
  · rw [done]
    refine ⟨fun _ => ⟨⟨target,member,same⟩,?_⟩,fun failed => Bool.noConfusion failed⟩
    intro v stored version
    have distinct : (s.versions.map ModuleVersion.version).Nodup := by
      apply List.pairwise_map.mpr
      exact consistent.increasing.imp (fun less => Nat.ne_of_lt less)
    have unique : v = target := List.inj_on_of_nodup_map distinct stored member (version.trans same.symm)
    rw [unique]
    rfl
  · rw [done]
    exact ⟨fun succeeded => Bool.noConfusion succeeded,fun _ => rfl⟩

def PreviousSound (s s' : VersionedModule T) (done : Bool) : Prop :=
  (done = true → ∃ older previous newest, s.versions = older ++ [previous,newest] ∧ load s' = previous.content) ∧
  (done = false → s' = s)

theorem rollbackPrevious_sound (s : VersionedModule T) (now : Nat) :
    PreviousSound s (rollbackPrevious s now).1 (rollbackPrevious s now).2 := by
  rcases rollbackPrevious_cases s now with ⟨older,previous,newest,split,done⟩ | ⟨_,done⟩
  · rw [done]
    exact ⟨fun _ => ⟨older,previous,newest,split,rfl⟩,fun failed => Bool.noConfusion failed⟩
  · rw [done]
    exact ⟨fun succeeded => Bool.noConfusion succeeded,fun _ => rfl⟩

theorem run_consistent (initial : T) (start : VersionedModule T) (created : Created initial start)
    (calls : List (Call T)) : Consistent (run step start calls) :=
  run_always step Consistent step_consistent start calls (created_consistent initial start created)

theorem history_consistent (initial : T) (start : VersionedModule T) (created : Created initial start)
    (calls : List (Call T)) (s : VersionedModule T) (reached : s = run step start calls) :
    Consistent s ∧
    (∀ targetVersion now,
      RollbackSound s (rollback s targetVersion now).1 targetVersion (rollback s targetVersion now).2) ∧
    ∀ now, PreviousSound s (rollbackPrevious s now).1 (rollbackPrevious s now).2 := by
  have consistent : Consistent s := reached ▸ run_consistent initial start created calls
  exact ⟨consistent,fun targetVersion now => rollback_sound s consistent targetVersion now,
    fun now => rollbackPrevious_sound s now⟩

theorem history_consistent_rolled_back :
    (run step (withCapacity "v1" 2 0) [.swap "v2" 1,.swap "v3" 2,.rollback 2 3]).versions =
      [⟨3,"v3",2⟩,⟨4,"v2",3⟩] ∧
    Consistent (run step (withCapacity "v1" 2 0) [.swap "v2" 1,.swap "v3" 2,.rollback 2 3]) :=
  ⟨by decide,(history_consistent "v1" _ (Created.withCapacity 2 0) _ _ rfl).1⟩

end History

end ClawKernel.Tools.Versioned
