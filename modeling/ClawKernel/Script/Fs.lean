import ClawKernel.Lib.FileCalls

/-! `FsBridge`: the file operations of scripts behind a check of the path against the
allowed directories. Reading checks the canonical path; writing, asking and making a
directory check the canonical parent and then hand the path as it is to the system.
-/
namespace ClawKernel.Script.Fs
open Lib Lib.FileTree Lib.FileCalls

def maxReadFileSize : Nat := 8 * 1024 * 1024

def maxListDirEntries : Nat := 10000

structure FsBridge where
  allowedPaths : List String
  baseDir : String
  deriving DecidableEq, Repr

/-- The refusals, with what their texts name. -/
inductive FsError where
  | noAccess (path : String)
  | baseDir (cause : IoError)
  | outsideBase (path : String)
  | noSuchFile (path : String)
  | outside (canonical : Loc)
  | tooLarge (validPath : Loc) (size : Nat)
  | readFile (validPath : Loc) (cause : IoError)
  | rootPath (path : String)
  | parentDir (parent : Path) (cause : IoError)
  | writeFile (targetPath : Path) (cause : IoError)
  | resolvePath (path : String) (cause : IoError)
  | notADirectory (validPath : Loc)
  | createDir (resolved : Path) (cause : IoError)
  deriving DecidableEq, Repr

structure DirEntry where
  name : String
  isDir : Bool
  deriving DecidableEq, Repr

/-- What an operation leaves: its answer, the tree, and the nodes it read, made, changed
or told of. -/
structure Outcome (α : Type) where
  value : α
  root : Node
  touched : List Loc

section Bridge
variable (bridge : FsBridge) (root : Node) (cwd : Loc)

def resolved (path : String) : Path :=
  if (parse path).absolute then parse path else (parse bridge.baseDir).join (parse path)

/-- `starts_with` on the canonical allowed path, or on its text where it does not resolve. -/
def covers (allowed : String) (canonical : Loc) : Bool :=
  match canonicalize root cwd (parse allowed) with
  | .ok allowedCanonical => allowedCanonical.isPrefixOf canonical
  | .error _ => (parse allowed).startsLoc canonical

def isAllowed (canonical : Loc) : Bool := bridge.allowedPaths.any fun allowed => covers root cwd allowed canonical

def normalizePath (p : Path) : Path where
  absolute := p.absolute
  segments := p.components.foldl (fun result seg =>
    if seg = ".." then result.dropLast else if seg = "." then result else result ++ [seg]) []
  slash := false

def validatePath (path : String) : Except FsError Loc :=
  if bridge.allowedPaths = [] then .error (.noAccess path)
  else
    match canonicalize root cwd (resolved bridge path) with
    | .ok canonical => if isAllowed bridge root cwd canonical then .ok canonical else .error (.outside canonical)
    | .error _ =>
      match canonicalize root cwd (parse bridge.baseDir) with
      | .error cause => .error (.baseDir cause)
      | .ok baseCanonical =>
        if (parse path).absolute = false ∧ ((normalizePath (resolved bridge path)).absolute &&
            baseCanonical.isPrefixOf (normalizePath (resolved bridge path)).segments) = false then
          .error (.outsideBase path)
        else .error (.noSuchFile path)

def sizeAt (loc : Loc) : Nat :=
  match root.find loc with
  | some (.file content) => content.length
  | _ => 0

def readFile (path : String) : Except FsError (Outcome String) :=
  match validatePath bridge root cwd path with
  | .error refusal => .error refusal
  | .ok validPath =>
    if maxReadFileSize < sizeAt root validPath then .error (.tooLarge validPath (sizeAt root validPath))
    else
      match readToString root validPath with
      | .error cause => .error (.readFile validPath cause)
      | .ok content => .ok ⟨content,root,[validPath]⟩

def validateParentDir (path : String) : Except FsError Path :=
  if bridge.allowedPaths = [] then .error (.noAccess path)
  else
    match (resolved bridge path).parent with
    | none => .error (.rootPath path)
    | some parent =>
      match canonicalize root cwd parent with
      | .error cause => .error (.parentDir parent cause)
      | .ok parentCanonical =>
        if isAllowed bridge root cwd parentCanonical then .ok (resolved bridge path)
        else .error (.outside parentCanonical)

def writeFile (path content : String) : Except FsError (Outcome Unit) :=
  match validateParentDir bridge root cwd path with
  | .error refusal => .error refusal
  | .ok targetPath =>
    match write root cwd targetPath (Utf8.encode content.toList) with
    | .error cause => .error (.writeFile targetPath cause)
    | .ok (written,loc) => .ok ⟨(),written,[loc]⟩

/-- `exists`: a node is told of where the answer is yes. -/
def existsPath (path : String) : Except FsError (Outcome Bool) :=
  if bridge.allowedPaths = [] then .error (.noAccess path)
  else
    match canonicalize root cwd ((resolved bridge path).parent.getD (resolved bridge path)) with
    | .error cause => .error (.resolvePath path cause)
    | .ok parentCanonical =>
      if isAllowed bridge root cwd parentCanonical then
        match canonicalize root cwd (resolved bridge path) with
        | .ok loc => .ok ⟨true,root,[loc]⟩
        | .error _ => .ok ⟨false,root,[]⟩
      else .error (.outside parentCanonical)

def entryOf (child : String × Node) : DirEntry where
  name := child.1
  isDir := child.2.label = .dir

def listDir (path : String) : Except FsError (Outcome (List DirEntry)) :=
  match validatePath bridge root cwd path with
  | .error refusal => .error refusal
  | .ok validPath =>
    match root.find validPath with
    | some (.dir children) =>
      .ok ⟨(children.take maxListDirEntries).map entryOf,root,
        validPath :: (children.take maxListDirEntries).map fun child => validPath ++ [child.1]⟩
    | _ => .error (.notADirectory validPath)

/-- The directory that `mkdir` checks: the base directory for a path without a parent. -/
def mkdirParent (path : String) : Path :=
  match (resolved bridge path).parent with
  | none => parse bridge.baseDir
  | some parent => if parent.isEmpty then parse bridge.baseDir else parent

def mkdir (path : String) : Except FsError (Outcome Unit) :=
  if bridge.allowedPaths = [] then .error (.noAccess path)
  else
    match canonicalize root cwd (mkdirParent bridge path) with
    | .error cause => .error (.parentDir (mkdirParent bridge path) cause)
    | .ok parentCanonical =>
      if isAllowed bridge root cwd parentCanonical then
        match createDirAll cwd root (resolved bridge path) with
        | .error cause => .error (.createDir (resolved bridge path) cause)
        | .ok (made,dirs) => .ok ⟨(),made,dirs⟩
      else .error (.outside parentCanonical)

inductive Operation where
  | readFile (path : String)
  | writeFile (path content : String)
  | existsPath (path : String)
  | listDir (path : String)
  | mkdir (path : String)
  deriving DecidableEq, Repr

def Outcome.forget {α : Type} (outcome : Outcome α) : Outcome Unit := ⟨(),outcome.root,outcome.touched⟩

def perform : Operation → Except FsError (Outcome Unit)
  | .readFile path => (readFile bridge root cwd path).map Outcome.forget
  | .writeFile path content => writeFile bridge root cwd path content
  | .existsPath path => (existsPath bridge root cwd path).map Outcome.forget
  | .listDir path => (listDir bridge root cwd path).map Outcome.forget
  | .mkdir path => mkdir bridge root cwd path

/-! The sandbox: the locations under the canonical location of an allowed path. -/

def Inside (loc : Loc) : Prop :=
  ∃ allowed ∈ bridge.allowedPaths, ∃ place, canonicalize root cwd (parse allowed) = .ok place ∧ place <+: loc

def Contained (op : Operation) : Prop :=
  ∀ outcome, perform bridge root cwd op = .ok outcome →
    (∀ loc ∈ outcome.touched, Inside bridge root cwd loc) ∧
    ∀ loc, labelAt outcome.root loc ≠ labelAt root loc → Inside bridge root cwd loc

/-! Where an operation goes: the location its check is made on, and the one at which the
system then works. -/

def vets : Operation → Option Loc
  | .readFile path => (canonicalize root cwd (resolved bridge path)).toOption
  | .listDir path => (canonicalize root cwd (resolved bridge path)).toOption
  | .writeFile path _ => (resolved bridge path).parent.bind fun parent => (canonicalize root cwd parent).toOption
  | .existsPath path =>
    (canonicalize root cwd ((resolved bridge path).parent.getD (resolved bridge path))).toOption
  | .mkdir path => (canonicalize root cwd (mkdirParent bridge path)).toOption

def readable (loc : Loc) : Bool := sizeAt root loc ≤ maxReadFileSize && (readToString root loc).isOk

def reaches : Operation → Option Loc
  | .readFile path => (canonicalize root cwd (resolved bridge path)).toOption.filter (readable root)
  | .listDir path => foundDir root cwd (resolved bridge path)
  | .writeFile path content => (write root cwd (resolved bridge path) (Utf8.encode content.toList)).toOption.map (·.2)
  | .existsPath path => (canonicalize root cwd (resolved bridge path)).toOption
  | .mkdir path => madeOrFound root cwd (resolved bridge path)

/-- The path has a parent of its own, and its last component is a plain name that is no link there. -/
def EndsPlainly (p : Path) (vetted : Loc) : Prop :=
  ∃ parent name, p.parent = some parent ∧ parent.isEmpty = false ∧ p.components.getLast? = some name ∧
    name ≠ "." ∧ name ≠ ".." ∧ isLink root (vetted ++ [name]) = false

def Direct (vetted : Loc) : Operation → Prop
  | .readFile _ => True
  | .listDir _ => True
  | .writeFile path _ => EndsPlainly root (resolved bridge path) vetted
  | .existsPath path => EndsPlainly root (resolved bridge path) vetted
  | .mkdir path => EndsPlainly root (resolved bridge path) vetted

/-- The check does not speak for what follows: no allowed path that resolves covers the place
it is made on, or the last component leads elsewhere. -/
def Loose (op : Operation) (vetted : Loc) : Prop :=
  ¬Inside bridge root cwd vetted ∨ ¬Direct bridge root vetted op

theorem toOption_eq_some {ε α : Type} (result : Except ε α) (value : α) :
    result.toOption = some value ↔ result = .ok value := by
  cases result with
  | error cause => simp [Except.toOption]
  | ok other => simp [Except.toOption]

theorem allowed_some (canonical : Loc) (allowed : isAllowed bridge root cwd canonical = true) :
    bridge.allowedPaths ≠ [] := by
  intro none
  rw [isAllowed,none] at allowed
  cases allowed

theorem validatePath_iff (path : String) (canonical : Loc) :
    validatePath bridge root cwd path = .ok canonical ↔
      canonicalize root cwd (resolved bridge path) = .ok canonical ∧ isAllowed bridge root cwd canonical = true := by
  constructor
  · intro ok
    unfold validatePath at ok
    split at ok
    · cases ok
    · split at ok
      · rename_i place there
        split at ok
        · rename_i allowed
          rw [← Except.ok.inj ok]
          exact ⟨there,allowed⟩
        · cases ok
      · split at ok
        · cases ok
        · split at ok <;> cases ok
  · intro both
    unfold validatePath
    rw [if_neg (allowed_some bridge root cwd canonical both.2),both.1]
    exact if_pos both.2

theorem validateParentDir_iff (path : String) (target : Path) :
    validateParentDir bridge root cwd path = .ok target ↔
      target = resolved bridge path ∧ ∃ parent vetted, (resolved bridge path).parent = some parent ∧
        canonicalize root cwd parent = .ok vetted ∧ isAllowed bridge root cwd vetted = true := by
  constructor
  · intro ok
    unfold validateParentDir at ok
    split at ok
    · cases ok
    · split at ok
      · cases ok
      · rename_i parent above
        split at ok
        · cases ok
        · rename_i vetted there
          split at ok
          · rename_i allowed
            exact ⟨(Except.ok.inj ok).symm,parent,vetted,above,there,allowed⟩
          · cases ok
  · intro given
    obtain ⟨same,parent,vetted,above,there,allowed⟩ := given
    unfold validateParentDir
    rw [if_neg (allowed_some bridge root cwd vetted allowed),above,same]
    simp only [there]
    exact if_pos allowed

theorem readFile_iff (path : String) (outcome : Outcome String) :
    readFile bridge root cwd path = .ok outcome ↔
      ∃ loc content, canonicalize root cwd (resolved bridge path) = .ok loc ∧ isAllowed bridge root cwd loc = true ∧
        sizeAt root loc ≤ maxReadFileSize ∧ readToString root loc = .ok content ∧ outcome = ⟨content,root,[loc]⟩ := by
  unfold readFile
  constructor
  · intro ok
    split at ok
    · cases ok
    · rename_i loc valid
      obtain ⟨there,allowed⟩ := (validatePath_iff bridge root cwd path loc).mp valid
      split at ok
      · cases ok
      · rename_i small
        split at ok
        · cases ok
        · rename_i content read
          exact ⟨loc,content,there,allowed,Nat.le_of_not_lt small,read,(Except.ok.inj ok).symm⟩
  · intro given
    obtain ⟨loc,content,there,allowed,small,read,same⟩ := given
    rw [(validatePath_iff bridge root cwd path loc).mpr ⟨there,allowed⟩,same]
    simp only [if_neg (Nat.not_lt_of_le small),read]

theorem listDir_iff (path : String) (outcome : Outcome (List DirEntry)) :
    listDir bridge root cwd path = .ok outcome ↔
      ∃ loc children, canonicalize root cwd (resolved bridge path) = .ok loc ∧
        isAllowed bridge root cwd loc = true ∧ root.find loc = some (.dir children) ∧
        outcome = ⟨(children.take maxListDirEntries).map entryOf,root,
          loc :: (children.take maxListDirEntries).map fun child => loc ++ [child.1]⟩ := by
  unfold listDir
  constructor
  · intro ok
    split at ok
    · cases ok
    · rename_i loc valid
      obtain ⟨there,allowed⟩ := (validatePath_iff bridge root cwd path loc).mp valid
      split at ok
      · rename_i children found
        exact ⟨loc,children,there,allowed,found,(Except.ok.inj ok).symm⟩
      · cases ok
  · intro given
    obtain ⟨loc,children,there,allowed,found,same⟩ := given
    rw [(validatePath_iff bridge root cwd path loc).mpr ⟨there,allowed⟩,same]
    simp only [found]

theorem writeFile_iff (path content : String) (outcome : Outcome Unit) :
    writeFile bridge root cwd path content = .ok outcome ↔
      ∃ parent vetted written loc, (resolved bridge path).parent = some parent ∧
        canonicalize root cwd parent = .ok vetted ∧ isAllowed bridge root cwd vetted = true ∧
        write root cwd (resolved bridge path) (Utf8.encode content.toList) = .ok (written,loc) ∧
        outcome = ⟨(),written,[loc]⟩ := by
  unfold writeFile
  constructor
  · intro ok
    split at ok
    · cases ok
    · rename_i target valid
      obtain ⟨rfl,parent,vetted,above,there,allowed⟩ := (validateParentDir_iff bridge root cwd path target).mp valid
      split at ok
      · cases ok
      · rename_i written loc put
        exact ⟨parent,vetted,written,loc,above,there,allowed,put,(Except.ok.inj ok).symm⟩
  · intro given
    obtain ⟨parent,vetted,written,loc,above,there,allowed,put,same⟩ := given
    rw [(validateParentDir_iff bridge root cwd path _).mpr ⟨rfl,parent,vetted,above,there,allowed⟩,same]
    simp only [put]

theorem existsPath_iff (path : String) (outcome : Outcome Bool) :
    existsPath bridge root cwd path = .ok outcome ↔
      ∃ vetted, canonicalize root cwd ((resolved bridge path).parent.getD (resolved bridge path)) = .ok vetted ∧
        isAllowed bridge root cwd vetted = true ∧
        outcome =
          match canonicalize root cwd (resolved bridge path) with
          | .ok loc => ⟨true,root,[loc]⟩
          | .error _ => ⟨false,root,[]⟩ := by
  unfold existsPath
  constructor
  · intro ok
    split at ok
    · cases ok
    · split at ok
      · cases ok
      · rename_i vetted there
        split at ok
        · rename_i allowed
          refine ⟨vetted,there,allowed,?_⟩
          split at ok <;> exact (Except.ok.inj ok).symm
        · cases ok
  · intro given
    obtain ⟨vetted,there,allowed,same⟩ := given
    rw [if_neg (allowed_some bridge root cwd vetted allowed),there,same]
    simp only [if_pos allowed]
    cases canonicalize root cwd (resolved bridge path) with
    | ok loc => rfl
    | error cause => rfl

theorem mkdir_iff (path : String) (outcome : Outcome Unit) :
    mkdir bridge root cwd path = .ok outcome ↔
      ∃ vetted made dirs, canonicalize root cwd (mkdirParent bridge path) = .ok vetted ∧
        isAllowed bridge root cwd vetted = true ∧ createDirAll cwd root (resolved bridge path) = .ok (made,dirs) ∧
        outcome = ⟨(),made,dirs⟩ := by
  unfold mkdir
  constructor
  · intro ok
    split at ok
    · cases ok
    · split at ok
      · cases ok
      · rename_i vetted there
        split at ok
        · rename_i allowed
          split at ok
          · cases ok
          · rename_i made dirs all
            exact ⟨vetted,made,dirs,there,allowed,all,(Except.ok.inj ok).symm⟩
        · cases ok
  · intro given
    obtain ⟨vetted,made,dirs,there,allowed,all,same⟩ := given
    rw [if_neg (allowed_some bridge root cwd vetted allowed),there,same]
    simp only [if_pos allowed,all]

/-- The parent of what is made is there, or it is not asked for. -/
theorem parent_there (path : String) (vetted : Loc)
    (there : canonicalize root cwd (mkdirParent bridge path) = .ok vetted) (parent : Path)
    (above : (resolved bridge path).parent = some parent) :
    parent.isEmpty = true ∨ ∃ loc, canonicalize root cwd parent = .ok loc := by
  cases full : parent.isEmpty with
  | true => exact .inl rfl
  | false =>
    rw [mkdirParent,above] at there
    simp only [full,Bool.false_eq_true,if_false] at there
    exact .inr ⟨vetted,there⟩

theorem map_forget_iff {α : Type} (result : Except FsError (Outcome α)) (outcome : Outcome Unit) :
    result.map Outcome.forget = .ok outcome ↔ ∃ whole, result = .ok whole ∧ whole.forget = outcome := by
  cases result with
  | error refusal => simp [Except.map]
  | ok whole => simp [Except.map]

/-- What is touched lies at or below the location that is reached, after a check that passes. -/
theorem touched_reached (op : Operation) (outcome : Outcome Unit) (ok : perform bridge root cwd op = .ok outcome)
    (node : Loc) (touched : node ∈ outcome.touched) :
    ∃ vetted loc, vets bridge root cwd op = some vetted ∧ isAllowed bridge root cwd vetted = true ∧
      reaches bridge root cwd op = some loc ∧ loc <+: node := by
  cases op with
  | readFile path =>
    obtain ⟨whole,read,rfl⟩ := (map_forget_iff _ _).mp ok
    obtain ⟨loc,content,there,allowed,small,text,rfl⟩ := (readFile_iff bridge root cwd path whole).mp read
    obtain rfl := List.mem_singleton.mp touched
    refine ⟨node,node,(toOption_eq_some _ _).mpr there,allowed,?_,List.prefix_refl _⟩
    rw [reaches,(toOption_eq_some _ _).mpr there,Option.filter_some,readable,text,decide_eq_true small]
    rfl
  | listDir path =>
    obtain ⟨whole,listed,rfl⟩ := (map_forget_iff _ _).mp ok
    obtain ⟨loc,children,there,allowed,found,rfl⟩ := (listDir_iff bridge root cwd path whole).mp listed
    refine ⟨loc,loc,(toOption_eq_some _ _).mpr there,allowed,?_,?_⟩
    · rw [reaches,foundDir,there]
      simp only [found]
    · rcases List.mem_cons.mp touched with rfl | child
      · exact List.prefix_refl _
      · obtain ⟨entry,_,rfl⟩ := List.mem_map.mp child
        exact List.prefix_append _ _
  | writeFile path content =>
    obtain ⟨parent,vetted,written,loc,above,there,allowed,put,rfl⟩ :=
      (writeFile_iff bridge root cwd path content outcome).mp ok
    obtain rfl := List.mem_singleton.mp touched
    refine ⟨vetted,node,?_,allowed,?_,List.prefix_refl _⟩
    · rw [vets,above,Option.bind_some]
      exact (toOption_eq_some _ _).mpr there
    · rw [reaches,put]
      rfl
  | existsPath path =>
    obtain ⟨whole,asked,rfl⟩ := (map_forget_iff _ _).mp ok
    obtain ⟨vetted,there,allowed,rfl⟩ := (existsPath_iff bridge root cwd path whole).mp asked
    refine ⟨vetted,node,(toOption_eq_some _ _).mpr there,allowed,?_,List.prefix_refl _⟩
    rw [reaches]
    cases found : canonicalize root cwd (resolved bridge path) with
    | error cause =>
      rw [found] at touched
      cases touched
    | ok loc =>
      rw [found] at touched
      rw [List.mem_singleton.mp touched]
      rfl
  | mkdir path =>
    obtain ⟨vetted,made,dirs,there,allowed,all,rfl⟩ := (mkdir_iff bridge root cwd path outcome).mp ok
    rcases createDirAll_cases root cwd _ (parent_there bridge root cwd path vetted there) made dirs all with
      ⟨rfl,_⟩ | ⟨loc,reached,rfl,_⟩
    · cases touched
    · rw [List.mem_singleton.mp touched]
      exact ⟨vetted,loc,(toOption_eq_some _ _).mpr there,allowed,reached,List.prefix_refl _⟩

theorem reached_touched (op : Operation) (vetted loc : Loc) (vet : vets bridge root cwd op = some vetted)
    (allowed : isAllowed bridge root cwd vetted = true) (reached : reaches bridge root cwd op = some loc) :
    ∃ outcome, perform bridge root cwd op = .ok outcome ∧ loc ∈ outcome.touched := by
  cases op with
  | readFile path =>
    have there := (toOption_eq_some _ _).mp vet
    rw [reaches,(toOption_eq_some _ _).mpr there,Option.filter_some] at reached
    split at reached
    · rename_i fits
      obtain ⟨small,text⟩ := Bool.and_eq_true_iff.mp fits
      cases read : readToString root vetted with
      | error cause =>
        rw [read] at text
        cases text
      | ok content =>
        refine ⟨⟨(),root,[vetted]⟩,(map_forget_iff _ _).mpr ⟨_,(readFile_iff bridge root cwd path _).mpr
          ⟨vetted,content,there,allowed,of_decide_eq_true small,read,rfl⟩,rfl⟩,?_⟩
        exact List.mem_singleton.mpr (Option.some.inj reached).symm
    · cases reached
  | listDir path =>
    have there := (toOption_eq_some _ _).mp vet
    rw [reaches,foundDir,there] at reached
    simp only at reached
    split at reached
    · rename_i children found
      refine ⟨_,(map_forget_iff _ _).mpr ⟨_,(listDir_iff bridge root cwd path _).mpr
        ⟨vetted,children,there,allowed,found,rfl⟩,rfl⟩,?_⟩
      rw [← Option.some.inj reached]
      exact List.mem_cons_self
    · cases reached
  | writeFile path content =>
    obtain ⟨parent,above,there⟩ := Option.bind_eq_some_iff.mp vet
    obtain ⟨⟨written,place⟩,put,rfl⟩ := Option.map_eq_some_iff.mp reached
    exact ⟨_,(writeFile_iff bridge root cwd path content _).mpr ⟨parent,vetted,written,place,above,
      (toOption_eq_some _ _).mp there,allowed,(toOption_eq_some _ _).mp put,rfl⟩,List.mem_singleton.mpr rfl⟩
  | existsPath path =>
    refine ⟨_,(map_forget_iff _ _).mpr ⟨_,(existsPath_iff bridge root cwd path _).mpr
      ⟨vetted,(toOption_eq_some _ _).mp vet,allowed,rfl⟩,rfl⟩,?_⟩
    rw [(toOption_eq_some _ _).mp reached]
    exact List.mem_singleton.mpr rfl
  | mkdir path =>
    have there := (toOption_eq_some _ _).mp vet
    obtain ⟨made,all⟩ := createDirAll_of_madeOrFound root cwd _ loc reached
    exact ⟨_,(mkdir_iff bridge root cwd path _).mpr ⟨vetted,made,[loc],there,allowed,all,rfl⟩,
      List.mem_singleton.mpr rfl⟩

/-- Only what is touched can change. -/
theorem changed_touched (op : Operation) (outcome : Outcome Unit) (ok : perform bridge root cwd op = .ok outcome)
    (loc : Loc) (changed : labelAt outcome.root loc ≠ labelAt root loc) : loc ∈ outcome.touched := by
  cases op with
  | readFile path =>
    obtain ⟨whole,read,rfl⟩ := (map_forget_iff _ _).mp ok
    obtain ⟨_,_,_,_,_,_,rfl⟩ := (readFile_iff bridge root cwd path whole).mp read
    exact absurd rfl changed
  | listDir path =>
    obtain ⟨whole,listed,rfl⟩ := (map_forget_iff _ _).mp ok
    obtain ⟨_,_,_,_,_,rfl⟩ := (listDir_iff bridge root cwd path whole).mp listed
    exact absurd rfl changed
  | writeFile path content =>
    obtain ⟨_,_,written,place,_,_,_,put,rfl⟩ := (writeFile_iff bridge root cwd path content outcome).mp ok
    apply List.mem_singleton.mpr
    by_contra apart
    exact changed (write_frame root cwd _ _ written place loc put apart)
  | existsPath path =>
    obtain ⟨whole,asked,rfl⟩ := (map_forget_iff _ _).mp ok
    obtain ⟨_,_,_,rfl⟩ := (existsPath_iff bridge root cwd path whole).mp asked
    cases found : canonicalize root cwd (resolved bridge path) with
    | error cause =>
      rw [found] at changed
      exact absurd rfl changed
    | ok place =>
      rw [found] at changed
      exact absurd rfl changed
  | mkdir path =>
    obtain ⟨vetted,made,dirs,there,_,all,rfl⟩ := (mkdir_iff bridge root cwd path outcome).mp ok
    rcases createDirAll_cases root cwd _ (parent_there bridge root cwd path vetted there) made dirs all with
      ⟨_,rfl⟩ | ⟨place,_,rfl,frame⟩
    · exact absurd rfl changed
    · apply List.mem_singleton.mpr
      by_contra apart
      exact changed (frame loc apart)

theorem prefix_of_plain (create : Bool) (p parent : Path) (segs : List String) (vetted loc : Loc)
    (plain : EndsPlainly root p vetted) (above : p.parent = some parent)
    (there : canonicalize root cwd parent = .ok vetted) (trimmed : Trimmed segs p.components)
    (leads : Leads root create maxLinks (start cwd p) segs loc) : vetted <+: loc := by
  obtain ⟨_,name,_,_,last,dot,dots,stays⟩ := plain
  rw [direct_of_leads root cwd create p parent segs name vetted loc above there last dot dots stays trimmed leads]
  exact List.prefix_append _ _

theorem prefix_of_resolve (create : Bool) (p parent : Path) (vetted loc : Loc)
    (plain : EndsPlainly root p vetted) (above : p.parent = some parent)
    (there : canonicalize root cwd parent = .ok vetted) (ok : resolve root cwd create p = .ok loc) :
    vetted <+: loc := by
  obtain ⟨_,leads⟩ := leads_of_resolve root cwd create p loc ok
  exact prefix_of_plain root cwd create p parent p.walked vetted loc plain above there
    (trimmed_walked p _ (trimmed_components p)) leads

theorem resolve_of_write (p : Path) (content : List UInt8) (written : Node) (loc : Loc)
    (put : write root cwd p content = .ok (written,loc)) : resolve root cwd true p = .ok loc := by
  unfold write at put
  split at put
  · cases put
  · rename_i place ok
    split at put
    · cases put
    · rw [ok,(Prod.mk.inj (Except.ok.inj put)).2]

/-- Where the last component is plain, the system works at or below the place of the check. -/
theorem reached_below (op : Operation) (vetted loc : Loc) (vet : vets bridge root cwd op = some vetted)
    (reached : reaches bridge root cwd op = some loc) (direct : Direct bridge root vetted op) : vetted <+: loc := by
  cases op with
  | readFile path =>
    rw [vets] at vet
    rw [reaches,vet,Option.filter_some] at reached
    split at reached
    · obtain rfl := Option.some.inj reached
      exact List.prefix_refl vetted
    · cases reached
  | listDir path =>
    have there := canonicalize_of_foundDir root cwd _ loc reached
    rw [vets,there] at vet
    obtain rfl := Option.some.inj vet
    exact List.prefix_refl loc
  | writeFile path content =>
    obtain ⟨parent,above,there⟩ := Option.bind_eq_some_iff.mp vet
    obtain ⟨⟨written,place⟩,put,rfl⟩ := Option.map_eq_some_iff.mp reached
    exact prefix_of_resolve root cwd true _ parent vetted place direct above ((toOption_eq_some _ _).mp there)
      (resolve_of_write root cwd _ _ written place ((toOption_eq_some _ _).mp put))
  | existsPath path =>
    obtain ⟨parent,_,above,_⟩ := id direct
    rw [vets,above] at vet
    exact prefix_of_resolve root cwd false _ parent vetted loc direct above ((toOption_eq_some _ _).mp vet)
      ((toOption_eq_some _ _).mp reached)
  | mkdir path =>
    obtain ⟨parent,_,above,full,_⟩ := id direct
    rw [vets,mkdirParent,above] at vet
    simp only [full,Bool.false_eq_true,if_false] at vet
    have there := (toOption_eq_some _ _).mp vet
    rw [reaches,madeOrFound] at reached
    split at reached
    · rename_i place made
      rw [← Option.some.inj reached]
      exact prefix_of_plain root cwd true _ parent _ vetted place direct above there (trimmed_components _)
        (leads_of_makeDir root cwd _ place made).1
    · exact prefix_of_resolve root cwd false _ parent vetted loc direct above there
        (canonicalize_of_foundDir root cwd _ loc reached)

theorem inside_below (loc below : Loc) (inside : Inside bridge root cwd loc) (down : loc <+: below) :
    Inside bridge root cwd below := by
  obtain ⟨allowed,mem,place,there,up⟩ := inside
  exact ⟨allowed,mem,place,there,up.trans down⟩

/-- An operation keeps to the sandbox exactly when, where its check does not speak for what
follows, the place it leads to lies in the sandbox all the same. -/
theorem contained_iff (op : Operation) :
    Contained bridge root cwd op ↔
      ∀ vetted loc, vets bridge root cwd op = some vetted → isAllowed bridge root cwd vetted = true →
        reaches bridge root cwd op = some loc → Loose bridge root cwd op vetted → Inside bridge root cwd loc := by
  constructor
  · intro contained vetted loc vet allowed reached _
    obtain ⟨outcome,ok,touched⟩ := reached_touched bridge root cwd op vetted loc vet allowed reached
    exact (contained outcome ok).1 loc touched
  · intro sound outcome ok
    have inside : ∀ loc ∈ outcome.touched, Inside bridge root cwd loc := by
      intro node touched
      obtain ⟨vetted,loc,vet,allowed,reached,down⟩ := touched_reached bridge root cwd op outcome ok node touched
      apply inside_below bridge root cwd loc node _ down
      by_cases loose : Loose bridge root cwd op vetted
      · exact sound vetted loc vet allowed reached loose
      · obtain ⟨within,direct⟩ := not_or.mp loose
        exact inside_below bridge root cwd vetted loc (not_not.mp within)
          (reached_below bridge root cwd op vetted loc vet reached (not_not.mp direct))
    exact ⟨inside,fun loc changed => inside loc (changed_touched bridge root cwd op outcome ok loc changed)⟩

end Bridge

def linkedTree : Node :=
  .dir [("box",.dir [("out",.link "/etc/passwd")]),("etc",.dir [("passwd",.file [])])]

def boxBridge : FsBridge := ⟨["/box"],"/box"⟩

theorem inside_box (loc : Loc) (inside : Inside boxBridge linkedTree [] loc) : ["box"] <+: loc := by
  obtain ⟨allowed,mem,place,there,up⟩ := inside
  rw [List.mem_singleton.mp mem] at there
  have same : Except.ok ["box"] = Except.ok place := there
  rw [Except.ok.inj same]
  exact up

/-- A link out of the sandbox is written through, and the directory above it is told of. -/
theorem sandbox_escaped :
    boxBridge.allowedPaths ≠ [] ∧ ¬Contained boxBridge linkedTree [] (.writeFile "out" "x") ∧
      ¬Contained boxBridge linkedTree [] (.existsPath "..") := by
  refine ⟨by decide,?_,?_⟩
  · intro contained
    have inside := (contained ⟨(),Node.put (.file [120]) ["etc","passwd"] linkedTree,[["etc","passwd"]]⟩ rfl).1
      ["etc","passwd"] (List.mem_singleton.mpr rfl)
    exact absurd (inside_box _ inside) (by decide)
  · intro contained
    have inside := (contained ⟨(),linkedTree,[[]]⟩ rfl).1 [] (List.mem_singleton.mpr rfl)
    exact absurd (inside_box _ inside) (by decide)

end ClawKernel.Script.Fs
