import ClawKernel.Script.Modules

/-! Hot reload of script files: files of the watched directories are created, edited and
deleted, the watcher's events pass a bounded channel, a debouncer that batches their paths and
a second channel, and the manager loads or unloads the script of each path. Paths are UTF-8 and
as the watcher reports them, without a trailing slash.
-/
namespace ClawKernel.Script.HotReload
open Lib.Runs Lib.Tables Modules

inductive WatchEvent where
  | fileChanged (path : String)
  | fileCreated (path : String)
  | fileRemoved (path : String)
  deriving DecidableEq, Repr

def WatchEvent.path : WatchEvent → String
  | .fileChanged path => path
  | .fileCreated path => path
  | .fileRemoved path => path

structure HotReloadConfig where
  extensions : List String
  maxHistorySize : Nat
  validateBeforeReload : Bool
  engineFilter : Option EngineType

/-- What `validate` of an engine is given. -/
structure Script where
  name : String
  source : String
  engine : EngineType

/-- The parts before and after the last mark. -/
def splitLast (mark : Char) : List Char → Option (List Char × List Char)
  | [] => none
  | c :: rest =>
    match splitLast mark rest with
    | some (before,after) => some (c :: before,after)
    | none => if c = mark then some ([],rest) else none

def fileName (path : String) : Option (List Char) :=
  let name := ((splitLast '/' path.toList).map Prod.snd).getD path.toList
  if name = [] ∨ name = ['.','.'] then none else some name

/-- A dot in front does not begin an extension. -/
def fileStem (path : String) : Option String :=
  (fileName path).map (fun name =>
    match splitLast '.' name with
    | some (c :: before,_) => String.ofList (c :: before)
    | _ => String.ofList name)

def extension (path : String) : Option String :=
  (fileName path).bind (fun name =>
    match splitLast '.' name with
    | some (_ :: _,after) => some (String.ofList after)
    | _ => none)

def get (registry : ScriptRegistry) (name : String) : Option ScriptEntry :=
  (registry.getOrCreate name).map (fun found => found.2.current)

/-- `entries`, in the order of the table. -/
def entries (registry : ScriptRegistry) : List ScriptEntry :=
  registry.names.entries.filterMap (fun entry => get registry entry.1)

def rawCapacity : Nat := 256

def eventCapacity : Nat := 128

/-- A file that cannot be read as text has none. `notified` are the events the watcher has
still to hand on, `handling` is the rest of a batch, and `loading` a path that has been seen to
exist. `written` is what was written last to the file of a path, and `validated` what the file
passed validation with last. -/
structure State where
  files : String → Option (Option String)
  notified : List WatchEvent
  raw : List WatchEvent
  pending : List (String × WatchEvent)
  batches : List (List String)
  handling : List String
  loading : Option String
  registry : ScriptRegistry
  written : String → Option String
  validated : String → Option String

inductive Act where
  | create (path : String) (text : Option String)
  | edit (path : String) (text : Option String)
  | delete (path : String)
  | notify
  | accumulate
  | flush (paths : List String)
  | recv
  | handle
  | load (now : Nat)

section Manager
variable (engineV8 : Bool) (validate : Script → Bool) (config : HotReloadConfig)

def start (files : String → Option (Option String)) : State :=
  ⟨files,[],[],[],[],[],none,.new config.maxHistorySize,fun _ => none,fun _ => none⟩

def isWatchedExtension (path : String) : Bool :=
  (extension path).any (fun ext => config.extensions.contains ext)

/-- JavaScript is in a build with V8 only. -/
def engineTypeFromExtension (path : String) : Option EngineType :=
  (extension path).bind (fun ext =>
    if ext = "lua" then some .lua
    else if engineV8 = true ∧ (ext = "js" ∨ ext = "ts" ∨ ext = "mjs") then some .javaScript
    else none)

def toScript (entry : ScriptEntry) : Script := ⟨entry.name,entry.source,entry.engine⟩

/-- `accumulate_event`: a change does not replace what is pending for its path. -/
def accumulateEvent (pending : List (String × WatchEvent)) (event : WatchEvent) : List (String × WatchEvent) :=
  match event with
  | .fileChanged path => if path ∈ pending.map Prod.fst then pending else pending ++ [(path,event)]
  | _ => pending.filter (fun other => other.1 ≠ event.path) ++ [(event.path,event)]

/-- The entry `handle_file_change` makes of a text, if nothing is wrong with it. -/
def checkedEntry (path content : String) (now : Nat) : Option ScriptEntry :=
  if isWatchedExtension config path then
    match engineTypeFromExtension engineV8 path with
    | none => none
    | some engine =>
      if config.engineFilter.any (fun filter => engine ≠ filter) then none
      else
        match fileStem path with
        | none => none
        | some name =>
          let entry := ScriptEntry.new name engine content path now
          if config.validateBeforeReload && !validate (toScript entry) then none else some entry
  else none

/-- The end of `handle_file_change`: a name in use is swapped, whatever file it is used for. -/
def install (registry : ScriptRegistry) (entry : ScriptEntry) : ScriptRegistry :=
  if entry.name ∈ registry.names then
    match registry.getOrCreate entry.name with
    | some (i,m) => registry.put i (m.swap entry).1
    | none => registry
  else (registry.register entry).1

/-- The file may have gone since it was seen, and then nothing is done. -/
def handleFileChange (s : State) (path : String) (now : Nat) : State :=
  match s.files path with
  | some (some content) =>
    match checkedEntry engineV8 validate config path content now with
    | some entry =>
      {s with
        registry := install s.registry entry
        validated := fun other => if other = path then some content else s.validated other}
    | none => s
  | _ => s

def handleFileRemoved (registry : ScriptRegistry) (path : String) : ScriptRegistry :=
  match (entries registry).find? (fun entry => entry.path = path) with
  | some entry => (registry.unregister entry.name).1
  | none => registry

def step (s : State) : Act → State
  | .create path text =>
    match s.files path with
    | some _ => s
    | none =>
      {s with
        files := fun other => if other = path then some text else s.files other
        written := fun other => if other = path then text else s.written other
        validated := fun other => if other = path then none else s.validated other
        notified := s.notified ++ [.fileCreated path]}
  | .edit path text =>
    match s.files path with
    | none => s
    | some _ =>
      {s with
        files := fun other => if other = path then some text else s.files other
        written := fun other => if other = path then text else s.written other
        notified := s.notified ++ [.fileChanged path]}
  | .delete path =>
    match s.files path with
    | none => s
    | some _ =>
      {s with
        files := fun other => if other = path then none else s.files other
        written := fun other => if other = path then none else s.written other
        validated := fun other => if other = path then none else s.validated other
        notified := s.notified ++ [.fileRemoved path]}
  | .notify =>
    match s.notified with
    | [] => s
    | event :: rest =>
      -- `try_send`, whose failure is ignored
      if isWatchedExtension config event.path = true ∧ s.raw.length < rawCapacity then
        {s with notified := rest, raw := s.raw ++ [event]}
      else {s with notified := rest}
  | .accumulate =>
    match s.raw with
    | [] => s
    | event :: rest => {s with raw := rest, pending := accumulateEvent s.pending event}
  | .flush paths =>
    -- a map gives its keys in any order, and the send waits for room
    if paths.isPerm (s.pending.map Prod.fst) = true ∧ paths ≠ [] ∧ s.batches.length < eventCapacity then
      {s with pending := [], batches := s.batches ++ [paths]}
    else s
  | .recv =>
    match s.batches, s.handling, s.loading with
    | paths :: rest, [], none => {s with batches := rest, handling := paths}
    | _, _, _ => s
  | .handle =>
    match s.handling, s.loading with
    | path :: rest, none =>
      match s.files path with
      | some _ => {s with handling := rest, loading := some path}
      | none => {s with handling := rest, registry := handleFileRemoved s.registry path}
    | _, _ => s
  | .load now =>
    match s.loading with
    | none => s
    | some path => handleFileChange engineV8 validate config {s with loading := none} path now

/-- All events are handled. -/
def State.Quiet (s : State) : Prop :=
  s.notified = [] ∧ s.raw = [] ∧ s.pending = [] ∧ s.batches = [] ∧ s.handling = [] ∧ s.loading = none

/-- The scripts registered from each path: one with what its file passed validation with
last, or none. -/
def State.Mirrors (s : State) : Prop :=
  ∀ path, ((entries s.registry).filter (fun entry => entry.path = path)).map ScriptEntry.source = (s.validated path).toList

def Passes (path content : String) : Prop := ∃ now, checkedEntry engineV8 validate config path content now ≠ none

/-- Each text that was written last and passes validation was validated. -/
def State.Current (s : State) : Prop :=
  ∀ path content, s.written path = some content → Passes engineV8 validate config path content →
    s.validated path = some content

def Mirrored (s : State) : Prop := s.Quiet → s.Mirrors ∧ s.Current engineV8 validate config

/-- The paths of all events that are to be handled from the beginning. -/
def State.way (s : State) : List String :=
  s.notified.map WatchEvent.path ++ s.raw.map WatchEvent.path ++ s.pending.map Prod.fst ++ s.batches.flatten ++ s.handling

/-- The condition on a step. No event of a watched file is dropped, unless another for the
path is to come. A script that passes validation finds its name free, or used for its own file
or for one that has gone since it was loaded. A file that does not pass has nothing of an
earlier file registered for its path, unless an event for it is to come. -/
def Separate (s : State) : Act → Prop
  | .notify => ∀ event rest, s.notified = event :: rest → isWatchedExtension config event.path = true →
      rawCapacity ≤ s.raw.length → event.path ∈ State.way {s with notified := rest}
  | .load now => ∀ path text, s.loading = some path → s.files path = some text →
      match text.bind (fun content => checkedEntry engineV8 validate config path content now) with
      | some entry => ∀ other, get s.registry entry.name = some other →
          other.path = path ∨ s.validated other.path = none
      | none => ∀ name other, get s.registry name = some other → other.path = path →
          s.validated path ≠ none ∨ path ∈ s.way
  | _ => True

theorem get_iff (registry : ScriptRegistry) (name : String) (entry : ScriptEntry) : get registry name = some entry ↔
    ∃ i m, registry.names.lookup name = some i ∧ registry.modules[i]? = some m ∧ m.current = entry := by
  unfold get
  rw [Option.map_eq_some_iff]
  constructor
  · rintro ⟨⟨i,m⟩,found,same⟩
    obtain ⟨named,there⟩ := (getOrCreate_iff registry name i m).mp found
    exact ⟨i,m,named,there,same⟩
  · rintro ⟨i,m,named,there,same⟩
    exact ⟨(i,m),(getOrCreate_iff registry name i m).mpr ⟨named,there⟩,same⟩

theorem mem_entries (registry : ScriptRegistry) (entry : ScriptEntry) :
    entry ∈ entries registry ↔ ∃ name, get registry name = some entry := by
  unfold entries
  rw [List.mem_filterMap]
  constructor
  · rintro ⟨named,_,found⟩
    exact ⟨named.1,found⟩
  · rintro ⟨name,found⟩
    obtain ⟨i,_,named,_⟩ := (get_iff registry name entry).mp found
    exact ⟨⟨name,i⟩,(entry_iff registry.names name i).mpr named,found⟩

theorem get_register (registry : ScriptRegistry) (entry : ScriptEntry) (name : String) (known : Known registry) :
    get (registry.register entry).1 name = if name = entry.name then some entry else get registry name := by
  split
  · rename_i same
    rw [same]
    refine (get_iff _ entry.name entry).mpr ⟨registry.modules.length,.new entry registry.maxHistory,?_,?_,rfl⟩
    · exact AList.lookup_insert registry.names
    · exact List.getElem?_concat_length
  · rename_i other
    have kept : (registry.register entry).1.names.lookup name = registry.names.lookup name :=
      AList.lookup_insert_ne other
    apply Option.ext
    intro found
    rw [get_iff,get_iff,kept]
    constructor
    · rintro ⟨i,m,named,there,same⟩
      exact ⟨i,m,named,append_module registry known _ m name i named there,same⟩
    · rintro ⟨i,m,named,there,same⟩
      refine ⟨i,m,named,?_,same⟩
      exact (List.getElem?_append_left (known.names name i named)).trans there

theorem get_unregister (registry : ScriptRegistry) (gone name : String) :
    get (registry.unregister gone).1 name = if name = gone then none else get registry name := by
  have kept : (registry.unregister gone).1.names.lookup name = if name = gone then none else registry.names.lookup name :=
    lookup_erase_if registry.names gone name
  apply Option.ext
  intro found
  rw [get_iff,kept]
  split
  · simp
  · exact (get_iff registry name found).symm

theorem get_put (registry : ScriptRegistry) (i : Nat) (m changed : ScriptModule) (name : String)
    (found : registry.modules[i]? = some m) :
    get (registry.put i changed) name = if registry.names.lookup name = some i then some changed.current
      else get registry name := by
  have inside := (List.getElem?_eq_some_iff.mp found).1
  split
  · rename_i named
    exact (get_iff _ name _).mpr ⟨i,changed,named,List.getElem?_set_self inside,rfl⟩
  · rename_i other
    apply Option.ext
    intro entry
    rw [get_iff,get_iff]
    refine exists_congr (fun j => exists_congr (fun m' => and_congr_right (fun named => and_congr_left (fun _ => ?_))))
    have apart : i ≠ j := fun same => other (same ▸ named)
    change (registry.modules.set i changed)[j]? = some m' ↔ _
    rw [List.getElem?_set_ne apart]

/-- Every entry is registered under its own name. -/
def Named (registry : ScriptRegistry) : Prop := ∀ name entry, get registry name = some entry → entry.name = name

theorem get_install (registry : ScriptRegistry) (entry : ScriptEntry) (known : Known registry) (named : Named registry)
    (name : String) : (name ≠ entry.name ∧ get (install registry entry) name = get registry name) ∨
      (name = entry.name ∧ ∃ version, get (install registry entry) name = some {entry with version := version}) := by
  unfold install
  by_cases used : entry.name ∈ registry.names
  · rw [if_pos used]
    obtain ⟨i,there⟩ := Option.isSome_iff_exists.mp (AList.lookup_isSome.mpr used)
    have inside := known.names entry.name i there
    have found := List.getElem?_eq_getElem inside
    have created := (getOrCreate_iff registry entry.name i _).mpr ⟨there,found⟩
    rw [created]
    simp only
    rw [get_put registry i _ _ name found]
    by_cases same : name = entry.name
    · rw [same,if_pos there]
      exact Or.inr ⟨rfl,_,rfl⟩
    · left
      refine ⟨same,if_neg (fun other => same ?_)⟩
      have own := named entry.name _ ((get_iff registry entry.name _).mpr ⟨i,_,there,found,rfl⟩)
      have others := named name _ ((get_iff registry name _).mpr ⟨i,_,other,found,rfl⟩)
      exact others.symm.trans own
  · rw [if_neg used,get_register registry entry name known]
    by_cases same : name = entry.name
    · rw [if_pos same]
      exact Or.inr ⟨same,entry.version,rfl⟩
    · rw [if_neg same]
      exact Or.inl ⟨same,rfl⟩

theorem known_install (registry : ScriptRegistry) (entry : ScriptEntry) (known : Known registry) :
    Known (install registry entry) := by
  unfold install
  split
  · split
    · rename_i i m found
      exact put_known registry i _ rfl known
    · exact known
  · exact known_step registry (.register entry) known

theorem known_removed (registry : ScriptRegistry) (path : String) (known : Known registry) :
    Known (handleFileRemoved registry path) := by
  unfold handleFileRemoved
  split
  · exact known_step registry (.unregister _) known
  · exact known

/-- The removal of a path takes the one script registered from it. -/
theorem get_removed (registry : ScriptRegistry) (path : String) (named : Named registry)
    (stems : ∀ name entry, get registry name = some entry → fileStem entry.path = some name) (name : String)
    (entry : ScriptEntry) : get (handleFileRemoved registry path) name = some entry ↔
      get registry name = some entry ∧ entry.path ≠ path := by
  unfold handleFileRemoved
  cases found : (entries registry).find? (fun entry => entry.path = path) with
  | none =>
    have none := List.find?_eq_none.mp found
    refine ⟨fun there => ⟨there,fun same => ?_⟩,fun both => both.1⟩
    exact none entry ((mem_entries registry entry).mpr ⟨name,there⟩) (decide_eq_true same)
  | some first =>
    have own : first.path = path := by simpa using List.find?_some found
    obtain ⟨key,there⟩ := (mem_entries registry first).mp (List.mem_of_find?_eq_some found)
    have title := named key first there
    have stem := stems key first there
    simp only
    rw [get_unregister]
    split
    · rename_i same
      refine iff_of_false (fun clash => by cases clash) ?_
      rintro ⟨other,away⟩
      rw [same,title,there] at other
      cases other
      exact away own
    · rename_i other
      refine ⟨fun kept => ⟨kept,fun same => other ?_⟩,fun both => both.1⟩
      have other_stem := stems name entry kept
      rw [same,← own,stem] at other_stem
      rw [title]
      exact (Option.some_inj.mp other_stem).symm

end Manager
end ClawKernel.Script.HotReload
