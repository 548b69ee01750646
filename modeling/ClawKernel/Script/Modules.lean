import ClawKernel.Lib.Runs
import ClawKernel.Lib.Tables

/-! Script modules with their version history, and the registry that names them. A module stays
in use by whoever holds it when its name is taken by another; modules are numbered as they are
made. Arithmetic is that of a release build.
-/
namespace ClawKernel.Script.Modules
open Lib.Runs Lib.Tables

inductive EngineType where
  | lua
  | javaScript
  | typeScript
  deriving DecidableEq, Repr

structure ScriptEntry where
  name : String
  engine : EngineType
  source : String
  path : String
  version : Nat
  loadedAt : Nat
  deriving DecidableEq, Repr

def u64Values : Nat := UInt64.size

/-- `fetch_add(1) + 1`, and what the counter holds afterwards. -/
def next (counter : Nat) : Nat := (counter + 1) % u64Values

namespace ScriptEntry

def new (name : String) (engine : EngineType) (source path : String) (now : Nat) : ScriptEntry :=
  ⟨name,engine,source,path,1,now⟩

def withSource (entry : ScriptEntry) (newSource : String) (now : Nat) : ScriptEntry :=
  { entry with source := newSource,version := next entry.version,loadedAt := now }

end ScriptEntry

structure ScriptModule where
  current : ScriptEntry
  history : List ScriptEntry
  maxHistory : Nat
  versionCounter : Nat
  deriving DecidableEq, Repr

namespace ScriptModule

def new (entry : ScriptEntry) (maxHistory : Nat) : ScriptModule := ⟨entry,[],maxHistory,entry.version⟩

def trimmed (maxHistory : Nat) (history : List ScriptEntry) : List ScriptEntry :=
  if maxHistory < history.length then history.tail else history

def swap (m : ScriptModule) (newEntry : ScriptEntry) : ScriptModule × Nat :=
  ({ m with
    current := { newEntry with version := next m.versionCounter }
    history := trimmed m.maxHistory (m.history ++ [m.current])
    versionCounter := next m.versionCounter },next m.versionCounter)

/-- The entry that is found becomes current again, under a new version. -/
def restore (m : ScriptModule) (entry : ScriptEntry) (now : Nat) : ScriptModule :=
  { m with
    current := { entry with version := next m.versionCounter,loadedAt := now }
    history := m.history ++ [m.current]
    versionCounter := next m.versionCounter }

def rollbackTo (m : ScriptModule) (targetVersion now : Nat) : ScriptModule × Bool :=
  match m.history.find? (fun entry => entry.version = targetVersion) with
  | some entry => (m.restore entry now,true)
  | none => (m,false)

def rollback (m : ScriptModule) (now : Nat) : ScriptModule × Bool :=
  match m.history.getLast? with
  | some entry => m.rollbackTo entry.version now
  | none => (m,false)

end ScriptModule

/-- `modules` are all that were made; a name refers to one of them. -/
structure ScriptRegistry where
  modules : List ScriptModule
  names : Table String Nat
  maxHistory : Nat

namespace ScriptRegistry

def new (maxHistory : Nat) : ScriptRegistry := ⟨[],∅,maxHistory⟩

/-- `get_or_create`, with the number of the module. -/
def getOrCreate (s : ScriptRegistry) (name : String) : Option (Nat × ScriptModule) :=
  (s.names.lookup name).bind (fun i => s.modules[i]?.map (fun m => (i,m)))

def put (s : ScriptRegistry) (i : Nat) (m : ScriptModule) : ScriptRegistry := { s with modules := s.modules.set i m }

def register (s : ScriptRegistry) (entry : ScriptEntry) : ScriptRegistry × Nat :=
  ({ s with
    modules := s.modules ++ [.new entry s.maxHistory]
    names := s.names.insert entry.name s.modules.length },s.modules.length)

def update (s : ScriptRegistry) (name source : String) (now : Nat) : ScriptRegistry × Option Nat :=
  match s.getOrCreate name with
  | some (i,m) => (s.put i (m.swap (m.current.withSource source now)).1,some (m.swap (m.current.withSource source now)).2)
  | none => (s,none)

def unregister (s : ScriptRegistry) (name : String) : ScriptRegistry × Bool :=
  ({ s with names := s.names.erase name },decide (name ∈ s.names))

def rollback (s : ScriptRegistry) (name : String) (now : Nat) : ScriptRegistry × Bool :=
  match s.getOrCreate name with
  | some (i,m) => (s.put i (m.rollback now).1,(m.rollback now).2)
  | none => (s,false)

def clear (s : ScriptRegistry) : ScriptRegistry := { s with names := ∅ }

def versionOf (s : ScriptRegistry) (name : String) : Option Nat :=
  (s.getOrCreate name).map (fun found => found.2.current.version)

end ScriptRegistry

/-- Calls on the registry, and on the module of a number; `newModule` makes one that no
registry knows. -/
inductive Call where
  | register (entry : ScriptEntry)
  | update (name source : String) (now : Nat)
  | unregister (name : String)
  | rollback (name : String) (now : Nat)
  | clear
  | newModule (entry : ScriptEntry) (maxHistory : Nat)
  | moduleSwap (i : Nat) (newEntry : ScriptEntry)
  | moduleRollbackTo (i targetVersion now : Nat)
  | moduleRollback (i now : Nat)
  deriving DecidableEq, Repr

def onModule (s : ScriptRegistry) (i : Nat) (change : ScriptModule → ScriptModule) : ScriptRegistry :=
  match s.modules[i]? with
  | some m => s.put i (change m)
  | none => s

def step (s : ScriptRegistry) : Call → ScriptRegistry
  | .register entry => (s.register entry).1
  | .update name source now => (s.update name source now).1
  | .unregister name => (s.unregister name).1
  | .rollback name now => (s.rollback name now).1
  | .clear => s.clear
  | .newModule entry maxHistory => { s with modules := s.modules ++ [.new entry maxHistory] }
  | .moduleSwap i newEntry => onModule s i (fun m => (m.swap newEntry).1)
  | .moduleRollbackTo i targetVersion now => onModule s i (fun m => (m.rollbackTo targetVersion now).1)
  | .moduleRollback i now => onModule s i (fun m => (m.rollback now).1)

/-- A bounded history whose versions increase up to the current one. -/
structure Versioned (m : ScriptModule) : Prop where
  bounded : m.history.length ≤ m.maxHistory
  increasing : m.history.Pairwise (fun older newer => older.version < newer.version)
  below : ∀ entry ∈ m.history, entry.version < m.current.version

/-- A rollback that succeeds makes the source of the version it was given current, or of the
last one if it was given none. -/
structure Restores (m : ScriptModule) : Prop where
  chosen : ∀ targetVersion now, (m.rollbackTo targetVersion now).2 = true →
    ∃ entry ∈ m.history, entry.version = targetVersion ∧ (m.rollbackTo targetVersion now).1.current.source = entry.source
  last : ∀ now, (m.rollback now).2 = true →
    ∃ entry, m.history.getLast? = some entry ∧ (m.rollback now).1.current.source = entry.source

def Sound (s : ScriptRegistry) : Prop := ∀ m ∈ s.modules, Versioned m ∧ Restores m

/-- No version seen under a name decreases while the name stays registered. -/
def GrowsTo (s after : ScriptRegistry) : Prop :=
  ∀ name old new, s.versionOf name = some old → after.versionOf name = some new → old ≤ new

def Grows (s : ScriptRegistry) (call : Call) : Prop := GrowsTo s (step s call)

/-- Room for one more version in the history, and a number for it. -/
def Room (m : ScriptModule) : Prop := m.history.length < m.maxHistory ∧ m.versionCounter + 1 < u64Values

/-- The condition on a call: a rollback that succeeds finds room in the history, an entry
registered under a name in use is not older than what is there, and no counter wraps. -/
def Meets (s : ScriptRegistry) : Call → Prop
  | .register entry => ∀ old, s.versionOf entry.name = some old → old ≤ entry.version
  | .update name _ _ => ∀ i m, s.getOrCreate name = some (i,m) → m.versionCounter + 1 < u64Values
  | .rollback name _ => ∀ i m, s.getOrCreate name = some (i,m) → m.history ≠ [] → Room m
  | .moduleSwap i _ => ∀ m, s.modules[i]? = some m →
      m.versionCounter + 1 < u64Values ∨ m.maxHistory = 0 ∧ ∀ name, s.names.lookup name ≠ some i
  | .moduleRollbackTo i targetVersion _ => ∀ m, s.modules[i]? = some m →
      (∃ entry ∈ m.history, entry.version = targetVersion) → Room m
  | .moduleRollback i _ => ∀ m, s.modules[i]? = some m → m.history ≠ [] → Room m
  | _ => True

section Module
variable (m : ScriptModule)

theorem lt_next_iff (counter : Nat) : counter < next counter ↔ counter + 1 < u64Values := by
  unfold next u64Values UInt64.size
  omega

theorem le_next_iff (counter : Nat) : counter ≤ next counter ↔ counter + 1 < u64Values := by
  unfold next u64Values UInt64.size
  omega

theorem trimmed_sublist (maxHistory : Nat) (history : List ScriptEntry) :
    (ScriptModule.trimmed maxHistory history).Sublist history := by
  unfold ScriptModule.trimmed
  split
  · exact List.tail_sublist history
  · exact List.Sublist.refl history

theorem pushed_increasing (versioned : Versioned m) :
    (m.history ++ [m.current]).Pairwise (fun older newer => older.version < newer.version) := by
  apply List.pairwise_append.mpr
  refine ⟨versioned.increasing,List.pairwise_singleton _ _,?_⟩
  intro entry member last same
  rw [List.mem_singleton.mp same]
  exact versioned.below entry member

theorem trimmed_bounded (versioned : Versioned m) :
    (ScriptModule.trimmed m.maxHistory (m.history ++ [m.current])).length ≤ m.maxHistory := by
  have short := versioned.bounded
  unfold ScriptModule.trimmed
  split
  · rw [List.length_tail,List.length_append,List.length_singleton]
    omega
  · omega

/-- The version that was current is kept, unless nothing is. -/
theorem mem_trimmed (some : m.maxHistory ≠ 0) :
    m.current ∈ ScriptModule.trimmed m.maxHistory (m.history ++ [m.current]) := by
  unfold ScriptModule.trimmed
  split
  · rename_i long
    rw [List.length_append,List.length_singleton] at long
    cases kept : m.history with
    | nil =>
      rw [kept,List.length_nil] at long
      omega
    | cons oldest rest => exact List.mem_append_right rest List.mem_cons_self
  · exact List.mem_append_right m.history List.mem_cons_self

theorem pushed_below (same : m.versionCounter = m.current.version) (versioned : Versioned m)
    (fits : m.versionCounter + 1 < u64Values) :
    ∀ entry ∈ m.history ++ [m.current], entry.version < next m.versionCounter := by
  have grows := (lt_next_iff m.versionCounter).mpr fits
  intro entry member
  rcases List.mem_append.mp member with earlier | last
  · have before := versioned.below entry earlier
    omega
  · rw [List.mem_singleton.mp last,← same]
    exact grows

theorem swap_versioned_iff (newEntry : ScriptEntry) (same : m.versionCounter = m.current.version) (versioned : Versioned m) :
    Versioned (m.swap newEntry).1 ↔ m.maxHistory = 0 ∨ m.versionCounter + 1 < u64Values := by
  have sublist := trimmed_sublist m.maxHistory (m.history ++ [m.current])
  have bounded := trimmed_bounded m versioned
  constructor
  · intro after
    by_cases none : m.maxHistory = 0
    · exact Or.inl none
    · have below := after.below m.current (mem_trimmed m none)
      rw [← same] at below
      exact Or.inr ((lt_next_iff m.versionCounter).mp below)
  · intro fits
    refine ⟨bounded,(pushed_increasing m versioned).sublist sublist,?_⟩
    intro entry member
    rcases fits with none | fits
    · rw [none] at bounded
      have empty := List.eq_nil_of_length_eq_zero (Nat.le_zero.mp bounded)
      change entry ∈ ScriptModule.trimmed m.maxHistory (m.history ++ [m.current]) at member
      rw [none,empty] at member
      cases member
    · exact pushed_below m same versioned fits entry (sublist.mem member)

theorem restore_versioned_iff (entry : ScriptEntry) (now : Nat) (same : m.versionCounter = m.current.version)
    (versioned : Versioned m) : Versioned (m.restore entry now) ↔ Room m := by
  constructor
  · intro after
    have room := after.bounded
    have below := after.below m.current (List.mem_append_right m.history List.mem_cons_self)
    change (m.history ++ [m.current]).length ≤ m.maxHistory at room
    rw [List.length_append,List.length_singleton] at room
    rw [← same] at below
    exact ⟨room,(lt_next_iff m.versionCounter).mp below⟩
  · rintro ⟨room,fits⟩
    refine ⟨?_,pushed_increasing m versioned,pushed_below m same versioned fits⟩
    change (m.history ++ [m.current]).length ≤ m.maxHistory
    rw [List.length_append,List.length_singleton]
    exact room

/-- A rollback finds an entry of the version, or leaves the module alone. -/
theorem rollbackTo_cases (targetVersion now : Nat) :
    (∃ entry ∈ m.history, entry.version = targetVersion ∧ m.rollbackTo targetVersion now = (m.restore entry now,true)) ∨
      (¬∃ entry ∈ m.history, entry.version = targetVersion) ∧ m.rollbackTo targetVersion now = (m,false) := by
  unfold ScriptModule.rollbackTo
  cases found : m.history.find? (fun entry => entry.version = targetVersion) with
  | some entry =>
    have version := List.find?_some found
    exact Or.inl ⟨entry,List.mem_of_find?_eq_some found,of_decide_eq_true version,rfl⟩
  | none =>
    refine Or.inr ⟨?_,rfl⟩
    rintro ⟨entry,member,version⟩
    exact List.find?_eq_none.mp found entry member (decide_eq_true version)

/-- With versions that increase, the entry of the last version is the last. -/
theorem rollback_cases (now : Nat) (versioned : Versioned m) :
    (∃ entry, m.history.getLast? = some entry ∧ m.rollback now = (m.restore entry now,true)) ∨
      m.history = [] ∧ m.rollback now = (m,false) := by
  unfold ScriptModule.rollback
  cases last : m.history.getLast? with
  | none => exact Or.inr ⟨List.getLast?_eq_none_iff.mp last,rfl⟩
  | some entry =>
    left
    refine ⟨entry,rfl,?_⟩
    obtain ⟨older,parts⟩ := List.getLast?_eq_some_iff.mp last
    have increasing := versioned.increasing
    rw [parts] at increasing
    have before := (List.pairwise_append.mp increasing).2.2
    rcases rollbackTo_cases m entry.version now with ⟨found,member,version,done⟩ | ⟨missing,_⟩
    · rw [parts] at member
      rcases List.mem_append.mp member with earlier | last
      · exact absurd version (Nat.ne_of_lt (before found earlier entry List.mem_cons_self))
      · rw [List.mem_singleton.mp last] at done
        exact done
    · exact absurd ⟨entry,List.mem_of_getLast? last,rfl⟩ missing

theorem versioned_restores (versioned : Versioned m) : Restores m where
  chosen := by
    intro targetVersion now done
    rcases rollbackTo_cases m targetVersion now with ⟨entry,member,version,result⟩ | ⟨_,result⟩
    · exact ⟨entry,member,version,by rw [result]; rfl⟩
    · rw [result] at done
      cases done
  last := by
    intro now done
    rcases rollback_cases m now versioned with ⟨entry,last,result⟩ | ⟨_,result⟩
    · exact ⟨entry,last,by rw [result]; rfl⟩
    · rw [result] at done
      cases done

end Module

/-- A name refers to a module that was made, and a module counts from its current version. -/
structure Known (s : ScriptRegistry) : Prop where
  names : ∀ name i, s.names.lookup name = some i → i < s.modules.length
  counters : ∀ m ∈ s.modules, m.versionCounter = m.current.version

section Registry
variable (s : ScriptRegistry)

theorem getOrCreate_iff (name : String) (i : Nat) (m : ScriptModule) :
    s.getOrCreate name = some (i,m) ↔ s.names.lookup name = some i ∧ s.modules[i]? = some m := by
  unfold ScriptRegistry.getOrCreate
  rw [Option.bind_eq_some_iff]
  constructor
  · rintro ⟨j,named,found⟩
    obtain ⟨m',there,same⟩ := Option.map_eq_some_iff.mp found
    cases same
    exact ⟨named,there⟩
  · rintro ⟨named,there⟩
    exact ⟨i,named,by rw [there]; rfl⟩

theorem versionOf_iff (name : String) (version : Nat) :
    s.versionOf name = some version ↔
      ∃ i m, s.names.lookup name = some i ∧ s.modules[i]? = some m ∧ m.current.version = version := by
  unfold ScriptRegistry.versionOf
  rw [Option.map_eq_some_iff]
  constructor
  · rintro ⟨⟨i,m⟩,found,same⟩
    obtain ⟨named,there⟩ := (getOrCreate_iff s name i m).mp found
    exact ⟨i,m,named,there,same⟩
  · rintro ⟨i,m,named,there,same⟩
    exact ⟨(i,m),(getOrCreate_iff s name i m).mpr ⟨named,there⟩,same⟩

theorem sound_of_versioned (versioned : ∀ m ∈ s.modules, Versioned m) : Sound s :=
  fun m member => ⟨versioned m member,versioned_restores m (versioned m member)⟩

theorem growsTo_refl : GrowsTo s s := by
  intro name old new before after
  rw [before] at after
  exact Nat.le_of_eq (Option.some_inj.mp after)

/-- A change of one module is judged by that module. -/
theorem put_iff (i : Nat) (m changed : ScriptModule) (found : s.modules[i]? = some m) (sound : Sound s) :
    Sound (s.put i changed) ∧ GrowsTo s (s.put i changed) ↔
      Versioned changed ∧ ((∃ name, s.names.lookup name = some i) → m.current.version ≤ changed.current.version) := by
  obtain ⟨inside,_⟩ := List.getElem?_eq_some_iff.mp found
  have there : (s.put i changed).modules[i]? = some changed := List.getElem?_set_self inside
  constructor
  · rintro ⟨after,grows⟩
    refine ⟨(after changed (List.mem_of_getElem? there)).1,?_⟩
    rintro ⟨name,named⟩
    exact grows name _ _ ((versionOf_iff s name _).mpr ⟨i,m,named,found,rfl⟩)
      ((versionOf_iff (s.put i changed) name _).mpr ⟨i,changed,named,there,rfl⟩)
  · rintro ⟨versioned,grows⟩
    constructor
    · apply sound_of_versioned
      intro other member
      rcases List.mem_or_eq_of_mem_set member with before | same
      · exact (sound other before).1
      · exact same ▸ versioned
    · intro name old new before after
      obtain ⟨j,m',named,found',rfl⟩ := (versionOf_iff s name old).mp before
      obtain ⟨k,m'',named',there',rfl⟩ := (versionOf_iff (s.put i changed) name new).mp after
      obtain rfl := Option.some_inj.mp (named.symm.trans named')
      by_cases same : j = i
      · subst same
        rw [there] at there'
        rw [found] at found'
        cases there'
        cases found'
        exact grows ⟨name,named⟩
      · have kept : (s.put i changed).modules[j]? = s.modules[j]? := List.getElem?_set_ne (Ne.symm same)
        rw [kept,found'] at there'
        exact Nat.le_of_eq (congrArg (fun m => m.current.version) (Option.some_inj.mp there'))

/-- Whether or not the module has a name: a swap. -/
theorem put_swap_iff (i : Nat) (m : ScriptModule) (newEntry : ScriptEntry) (found : s.modules[i]? = some m)
    (known : Known s) (sound : Sound s) :
    Sound (s.put i (m.swap newEntry).1) ∧ GrowsTo s (s.put i (m.swap newEntry).1) ↔
      m.versionCounter + 1 < u64Values ∨ m.maxHistory = 0 ∧ ∀ name, s.names.lookup name ≠ some i := by
  have member := List.mem_of_getElem? found
  have same := known.counters m member
  rw [put_iff s i m _ found sound,swap_versioned_iff m newEntry same (sound m member).1]
  have grows : m.current.version ≤ (m.swap newEntry).1.current.version ↔ m.versionCounter + 1 < u64Values := by
    rw [← same]
    exact le_next_iff m.versionCounter
  rw [grows]
  constructor
  · rintro ⟨none | fits,named⟩
    · by_cases fits : m.versionCounter + 1 < u64Values
      · exact Or.inl fits
      · exact Or.inr ⟨none,fun name there => fits (named ⟨name,there⟩)⟩
    · exact Or.inl fits
  · rintro (fits | ⟨none,unnamed⟩)
    · exact ⟨Or.inr fits,fun _ => fits⟩
    · exact ⟨Or.inl none,fun ⟨name,there⟩ => absurd there (unnamed name)⟩

theorem put_restore_iff (i : Nat) (m : ScriptModule) (entry : ScriptEntry) (now : Nat) (found : s.modules[i]? = some m)
    (known : Known s) (sound : Sound s) :
    Sound (s.put i (m.restore entry now)) ∧ GrowsTo s (s.put i (m.restore entry now)) ↔ Room m := by
  have member := List.mem_of_getElem? found
  have same := known.counters m member
  rw [put_iff s i m _ found sound,restore_versioned_iff m entry now same (sound m member).1]
  refine and_iff_left_of_imp (fun room _ => ?_)
  rw [← same]
  exact (le_next_iff m.versionCounter).mpr room.2

theorem put_same (i : Nat) (m : ScriptModule) (found : s.modules[i]? = some m) : s.put i m = s := by
  obtain ⟨inside,rfl⟩ := List.getElem?_eq_some_iff.mp found
  unfold ScriptRegistry.put
  rw [List.set_getElem_self]

theorem put_rollback_iff (i : Nat) (m : ScriptModule) (now : Nat) (found : s.modules[i]? = some m) (known : Known s)
    (sound : Sound s) :
    Sound (s.put i (m.rollback now).1) ∧ GrowsTo s (s.put i (m.rollback now).1) ↔ (m.history ≠ [] → Room m) := by
  rcases rollback_cases m now (sound m (List.mem_of_getElem? found)).1 with ⟨entry,last,result⟩ | ⟨none,result⟩
  · have some : m.history ≠ [] := List.ne_nil_of_mem (List.mem_of_getLast? last)
    rw [result,put_restore_iff s i m entry now found known sound]
    exact ⟨fun room _ => room,fun room => room some⟩
  · rw [result,put_same s i m found]
    exact iff_of_true ⟨sound,growsTo_refl s⟩ (fun some => absurd none some)

theorem put_rollbackTo_iff (i : Nat) (m : ScriptModule) (targetVersion now : Nat) (found : s.modules[i]? = some m)
    (known : Known s) (sound : Sound s) :
    Sound (s.put i (m.rollbackTo targetVersion now).1) ∧ GrowsTo s (s.put i (m.rollbackTo targetVersion now).1) ↔
      ((∃ entry ∈ m.history, entry.version = targetVersion) → Room m) := by
  rcases rollbackTo_cases m targetVersion now with ⟨entry,member,version,result⟩ | ⟨missing,result⟩
  · rw [result,put_restore_iff s i m entry now found known sound]
    exact ⟨fun room _ => room,fun room => room ⟨entry,member,version⟩⟩
  · rw [result,put_same s i m found]
    exact iff_of_true ⟨sound,growsTo_refl s⟩ (fun there => absurd there missing)

theorem new_versioned (entry : ScriptEntry) (maxHistory : Nat) : Versioned (.new entry maxHistory) :=
  ⟨Nat.zero_le _,List.Pairwise.nil,List.forall_mem_nil _⟩

theorem append_sound (entry : ScriptEntry) (maxHistory : Nat) (names : Table String Nat) (sound : Sound s) :
    Sound { s with modules := s.modules ++ [.new entry maxHistory],names := names } := by
  apply sound_of_versioned
  intro m member
  rcases List.mem_append.mp member with before | new
  · exact (sound m before).1
  · rw [List.mem_singleton.mp new]
    exact new_versioned entry maxHistory

/-- What a name refers to does not change while it refers to the same module. -/
theorem append_module (known : Known s) (made m : ScriptModule) (name : String) (i : Nat)
    (named : s.names.lookup name = some i) (found : (s.modules ++ [made])[i]? = some m) : s.modules[i]? = some m :=
  (List.getElem?_append_left (known.names name i named)).symm.trans found

theorem register_iff (entry : ScriptEntry) (known : Known s) (sound : Sound s) :
    Sound (s.register entry).1 ∧ GrowsTo s (s.register entry).1 ↔
      ∀ old, s.versionOf entry.name = some old → old ≤ entry.version := by
  have after : Sound (s.register entry).1 := append_sound s entry s.maxHistory _ sound
  rw [and_iff_right after]
  have own : (s.register entry).1.versionOf entry.name = some entry.version := by
    apply (versionOf_iff _ entry.name entry.version).mpr
    exact ⟨s.modules.length,.new entry s.maxHistory,AList.lookup_insert s.names,List.getElem?_concat_length,rfl⟩
  constructor
  · exact fun grows old before => grows entry.name old entry.version before own
  · intro newer name old new before after
    by_cases same : name = entry.name
    · rw [same] at before after
      rw [own] at after
      exact Option.some_inj.mp after ▸ newer old before
    · obtain ⟨i,m,named,found,rfl⟩ := (versionOf_iff s name old).mp before
      obtain ⟨j,m',named',found',rfl⟩ := (versionOf_iff _ name new).mp after
      have kept : s.names.lookup name = some j := (AList.lookup_insert_ne same).symm.trans named'
      have there := append_module s known _ m' name j kept found'
      obtain rfl := Option.some_inj.mp (named.symm.trans kept)
      rw [found] at there
      exact Nat.le_of_eq (congrArg (fun m => m.current.version) (Option.some_inj.mp there))

/-- Names that are given up, or modules that nobody named yet. -/
theorem fewer_growsTo (modules : List ScriptModule) (names : Table String Nat)
    (same : ∀ name i m, names.lookup name = some i → modules[i]? = some m →
      s.names.lookup name = some i ∧ s.modules[i]? = some m) :
    GrowsTo s { s with modules := modules,names := names } := by
  intro name old new before after
  obtain ⟨i,m,named,found,rfl⟩ := (versionOf_iff s name old).mp before
  obtain ⟨j,m',named',found',rfl⟩ := (versionOf_iff _ name new).mp after
  obtain ⟨kept,there⟩ := same name j m' named' found'
  obtain rfl := Option.some_inj.mp (named.symm.trans kept)
  rw [found] at there
  exact Nat.le_of_eq (congrArg (fun m => m.current.version) (Option.some_inj.mp there))

theorem onModule_iff (i : Nat) (change : ScriptModule → ScriptModule) (meets : ScriptModule → Prop) (sound : Sound s)
    (exact : ∀ m, s.modules[i]? = some m → (Sound (s.put i (change m)) ∧ GrowsTo s (s.put i (change m)) ↔ meets m)) :
    Sound (onModule s i change) ∧ GrowsTo s (onModule s i change) ↔ ∀ m, s.modules[i]? = some m → meets m := by
  unfold onModule
  cases found : s.modules[i]? with
  | none => exact iff_of_true ⟨sound,growsTo_refl s⟩ (fun m clash => by cases clash)
  | some m => exact (exact m found).trans ⟨fun holds m' same => Option.some_inj.mp same ▸ holds,fun all => all m rfl⟩

theorem step_iff (call : Call) (known : Known s) (sound : Sound s) :
    Sound (step s call) ∧ Grows s call ↔ Meets s call := by
  unfold Grows
  cases call with
  | register entry => exact register_iff s entry known sound
  | update name source now =>
    rw [step,ScriptRegistry.update,Meets]
    cases found : s.getOrCreate name with
    | none => exact iff_of_true ⟨sound,growsTo_refl s⟩ (fun i m clash => by cases clash)
    | some named =>
      obtain ⟨i,m⟩ := named
      obtain ⟨there,member⟩ := (getOrCreate_iff s name i m).mp found
      refine (put_swap_iff s i m _ member known sound).trans ?_
      constructor
      · rintro fits j m' same
        cases same
        exact fits.resolve_right (fun unnamed => unnamed.2 name there)
      · exact fun fits => Or.inl (fits i m rfl)
  | unregister name =>
    refine iff_of_true ⟨sound,fewer_growsTo s s.modules (s.names.erase name) (fun other i m named found => ?_)⟩ trivial
    exact ⟨(lookup_of_erase s.names name other i named).2,found⟩
  | rollback name now =>
    rw [step,ScriptRegistry.rollback,Meets]
    cases found : s.getOrCreate name with
    | none => exact iff_of_true ⟨sound,growsTo_refl s⟩ (fun i m clash => by cases clash)
    | some named =>
      obtain ⟨i,m⟩ := named
      have member := ((getOrCreate_iff s name i m).mp found).2
      refine (put_rollback_iff s i m now member known sound).trans ?_
      constructor
      · rintro room j m' same
        cases same
        exact room
      · exact fun room => room i m rfl
  | clear =>
    refine iff_of_true ⟨sound,fewer_growsTo s s.modules ∅ (fun other i m named _ => ?_)⟩ trivial
    rw [AList.lookup_empty] at named
    cases named
  | newModule entry maxHistory =>
    refine iff_of_true ⟨append_sound s entry maxHistory s.names sound,?_⟩ trivial
    apply fewer_growsTo s _ s.names
    exact fun other i m named found => ⟨named,append_module s known _ m other i named found⟩
  | moduleSwap i newEntry =>
    exact onModule_iff s i _ _ sound (fun m found => put_swap_iff s i m newEntry found known sound)
  | moduleRollbackTo i targetVersion now =>
    exact onModule_iff s i _ _ sound (fun m found => put_rollbackTo_iff s i m targetVersion now found known sound)
  | moduleRollback i now =>
    exact onModule_iff s i _ _ sound (fun m found => put_rollback_iff s i m now found known sound)

theorem put_known (i : Nat) (changed : ScriptModule) (same : changed.versionCounter = changed.current.version)
    (known : Known s) : Known (s.put i changed) where
  names := fun name j named => (known.names name j named).trans_eq List.length_set.symm
  counters := by
    intro m member
    rcases List.mem_or_eq_of_mem_set member with before | new
    · exact known.counters m before
    · rw [new]
      exact same

theorem append_known (entry : ScriptEntry) (maxHistory : Nat) (names : Table String Nat)
    (inside : ∀ name i, names.lookup name = some i → i ≤ s.modules.length) (known : Known s) :
    Known { s with modules := s.modules ++ [.new entry maxHistory],names := names } where
  names := by
    intro name i named
    change i < (s.modules ++ [ScriptModule.new entry maxHistory]).length
    rw [List.length_append,List.length_singleton]
    exact Nat.lt_succ_of_le (inside name i named)
  counters := by
    intro m member
    rcases List.mem_append.mp member with before | new
    · exact known.counters m before
    · rw [List.mem_singleton.mp new]
      rfl

theorem rollbackTo_counter (m : ScriptModule) (targetVersion now : Nat) (same : m.versionCounter = m.current.version) :
    (m.rollbackTo targetVersion now).1.versionCounter = (m.rollbackTo targetVersion now).1.current.version := by
  rcases rollbackTo_cases m targetVersion now with ⟨_,_,_,result⟩ | ⟨_,result⟩
  · rw [result]
    rfl
  · rw [result]
    exact same

theorem rollback_counter (m : ScriptModule) (now : Nat) (same : m.versionCounter = m.current.version) :
    (m.rollback now).1.versionCounter = (m.rollback now).1.current.version := by
  unfold ScriptModule.rollback
  split
  · exact rollbackTo_counter m _ now same
  · exact same

theorem onModule_known (i : Nat) (change : ScriptModule → ScriptModule) (known : Known s)
    (counts : ∀ m, m.versionCounter = m.current.version → (change m).versionCounter = (change m).current.version) :
    Known (onModule s i change) := by
  unfold onModule
  split
  · rename_i m found
    exact put_known s i (change m) (counts m (known.counters m (List.mem_of_getElem? found))) known
  · exact known

theorem known_step (call : Call) (known : Known s) : Known (step s call) := by
  cases call with
  | register entry =>
    apply append_known s entry s.maxHistory _ _ known
    intro name i named
    rcases lookup_of_insert s.names entry.name name s.modules.length i named with ⟨_,same⟩ | ⟨_,before⟩
    · exact Nat.le_of_eq same
    · exact Nat.le_of_lt (known.names name i before)
  | update name source now =>
    rw [step,ScriptRegistry.update]
    split
    · exact put_known s _ _ rfl known
    · exact known
  | unregister name =>
    exact ⟨fun other i named => known.names other i (lookup_of_erase s.names name other i named).2,known.counters⟩
  | rollback name now =>
    rw [step,ScriptRegistry.rollback]
    split
    · rename_i i m found
      have member := List.mem_of_getElem? ((getOrCreate_iff s name i m).mp found).2
      exact put_known s i _ (rollback_counter m now (known.counters m member)) known
    · exact known
  | clear =>
    refine ⟨fun name i named => ?_,known.counters⟩
    change (∅ : Table String Nat).lookup name = some i at named
    rw [AList.lookup_empty] at named
    cases named
  | newModule entry maxHistory =>
    exact append_known s entry maxHistory s.names (fun name i named => Nat.le_of_lt (known.names name i named)) known
  | moduleSwap i newEntry => exact onModule_known s i _ known (fun _ _ => rfl)
  | moduleRollbackTo i targetVersion now =>
    exact onModule_known s i _ known (fun m same => rollbackTo_counter m targetVersion now same)
  | moduleRollback i now => exact onModule_known s i _ known (fun m same => rollback_counter m now same)

end Registry

theorem new_known (maxHistory : Nat) : Known (.new maxHistory) where
  names := by
    intro name i named
    change (∅ : Table String Nat).lookup name = some i at named
    rw [AList.lookup_empty] at named
    cases named
  counters := List.forall_mem_nil _

/-- Every module keeps a bounded history of increasing versions that a rollback restores, and no
version seen under a name decreases, exactly if every call of the run meets the condition. -/
theorem versioned_throughout_iff (maxHistory : Nat) (calls : List Call) :
    (Always step Sound (.new maxHistory) calls ∧ Along step Grows (.new maxHistory) calls) ↔
      Along step Meets (.new maxHistory) calls := by
  apply always_along_iff_under step Meets Grows Sound Known
  · exact fun s call known => known_step s call known
  · exact fun s call known sound => step_iff s call known sound
  · exact new_known maxHistory
  · exact List.forall_mem_nil _

def first : ScriptEntry := .new "greet" .lua "return 1" "/scripts/greet.lua" 0

/-- One version is to be kept, and a rollback adds a second; a script that has been updated is
registered again with the version of a new entry. -/
theorem history_overflows :
    ((run step (.new 1) [.register first,.update "greet" "return 2" 1,.rollback "greet" 2]).modules.map
        (fun m => (m.history.map ScriptEntry.version,m.maxHistory))) = [([1,2],1)] ∧
      (run step (.new 1) [.register first,.update "greet" "return 2" 1]).versionOf "greet" = some 2 ∧
      (run step (.new 1) [.register first,.update "greet" "return 2" 1,.register first]).versionOf "greet" = some 1 :=
  ⟨by decide,by decide,by decide⟩

end ClawKernel.Script.Modules
