import ClawKernel.Lib.FileGrowth
import ClawKernel.Lib.Json
import ClawKernel.Lib.Runs
import ClawKernel.Script.Fs
import ClawKernel.Tools.Registry

/-! The built-in tools `file_read` and `file_write`, each with the directory it may be restricted to. The texts of
the system's errors are a parameter.
-/
namespace ClawKernel.Tools.FileTools
open Lib Lib.FileTree Lib.FileCalls Lib.FileGrowth Lib.Runs
open Lib.Json (Value)
open Tools.Registry (ToolError)

/-- What a call comes to: its result, the tree it leaves, and the files whose text it gives away. -/
structure Outcome where
  result : Except ToolError Value
  root : Node
  read : List Loc

inductive Call where
  | read (args : Value)
  | write (args : Value)

section Tools
variable (display : IoError → String) (cwd : Loc)

/-- `Path::exists`. -/
def pathExists (root : Node) (p : Path) : Bool := (canonicalize root cwd p).isOk

/-- The check of a path against the allowed directory, by the canonical places of both. -/
def refused (root : Node) (checked : Path) (text allowed : String) : Option ToolError :=
  match canonicalize root cwd checked, canonicalize root cwd (parse allowed) with
  | .ok canonical, .ok allowedCanonical =>
    if allowedCanonical.isPrefixOf canonical then none
    else some ⟨.permissionDenied,"Access denied: '" ++ text ++ "' is outside allowed directory '" ++ allowed ++ "'"⟩
  | .error cause, _ => some ⟨.invalidParameter,"Cannot resolve path '" ++ text ++ "': " ++ display cause⟩
  | _, .error cause => some (.internal ("Cannot resolve allowed directory '" ++ allowed ++ "': " ++ display cause))

/-- `FileReadTool::execute`. -/
def fileRead (allowedDir : Option String) (root : Node) (args : Value) : Outcome :=
  match (args.get "path").bind Value.asStr with
  | none => ⟨.error ⟨.invalidParameter,"'path' parameter is required"⟩,root,[]⟩
  | some text =>
    match allowedDir.bind (refused display cwd root (parse text) text) with
    | some error => ⟨.error error,root,[]⟩
    | none =>
      match canonicalize root cwd (parse text) with
      | .error cause => ⟨.error (.internal ("Failed to read file '" ++ text ++ "': " ++ display cause)),root,[]⟩
      | .ok loc =>
        match readToString root loc with
        | .error cause => ⟨.error (.internal ("Failed to read file '" ++ text ++ "': " ++ display cause)),root,[]⟩
        | .ok content => ⟨.ok (.object [("content",.string content),("path",.string text)]),root,[loc]⟩

/-- What `file_write` checks: the path, or its parent where the path is not there. -/
def checkPath (root : Node) (p : Path) : Path := if pathExists cwd root p then p else p.parent.getD p

/-- The check is made only where there is something to resolve. -/
def refusedWrite (root : Node) (text allowed : String) : Option ToolError :=
  if pathExists cwd root (checkPath cwd root (parse text)) then
    refused display cwd root (checkPath cwd root (parse text)) text allowed
  else none

/-- The parent directories are made as far as they are missing. -/
def makeParents (root : Node) (p : Path) : Node × Except IoError Unit :=
  match p.parent with
  | some parent => makeDirs cwd root parent
  | none => (root,.ok ())

def writeFile (root : Node) (text content : String) : Outcome :=
  match makeParents cwd root (parse text) with
  | (made,.error cause) =>
    ⟨.error (.internal ("Failed to create parent directories for '" ++ text ++ "': " ++ display cause)),made,[]⟩
  | (made,.ok ()) =>
    match write made cwd (parse text) (Utf8.encode content.toList) with
    | .error cause => ⟨.error (.internal ("Failed to write file '" ++ text ++ "': " ++ display cause)),made,[]⟩
    | .ok (written,_) =>
      ⟨.ok (.object [("success",.bool true),("path",.string text),("bytes_written",.integer content.utf8ByteSize)]),written,[]⟩

def overwrites (args : Value) : Bool :=
  match args.get "overwrite" with
  | some (.bool overwrite) => overwrite
  | _ => false

/-- `FileWriteTool::execute`. -/
def fileWrite (allowedDir : Option String) (root : Node) (args : Value) : Outcome :=
  match (args.get "path").bind Value.asStr with
  | none => ⟨.error ⟨.invalidParameter,"'path' parameter is required"⟩,root,[]⟩
  | some text =>
    match (args.get "content").bind Value.asStr with
    | none => ⟨.error ⟨.invalidParameter,"'content' parameter is required"⟩,root,[]⟩
    | some content =>
      match allowedDir.bind (refusedWrite display cwd root text) with
      | some error => ⟨.error error,root,[]⟩
      | none =>
        if !overwrites args && pathExists cwd root (parse text) then
          ⟨.error ⟨.permissionDenied,"File '" ++ text ++ "' already exists. Set overwrite=true to replace it."⟩,root,[]⟩
        else writeFile display cwd root text content

def perform (allowedDir : Option String) (root : Node) : Call → Outcome
  | .read args => fileRead display cwd allowedDir root args
  | .write args => fileWrite display cwd allowedDir root args

def step (allowedDir : Option String) (root : Node) (call : Call) : Node := (perform display cwd allowedDir root call).root

/-- All that is read or changed lies in the place. -/
def Confined (place : Loc) (root : Node) (outcome : Outcome) : Prop :=
  (∀ loc ∈ outcome.read, place <+: loc) ∧ ∀ loc, labelAt outcome.root loc ≠ labelAt root loc → place <+: loc

/-- A write to a path that does not resolve, where its parent does not either, or lies in the place and has a link under
the last name of the path. -/
def Loose (place : Loc) (root : Node) : Call → Prop
  | .read _ => False
  | .write args =>
    ∃ text, (args.get "path").bind Value.asStr = some text ∧ pathExists cwd root (parse text) = false ∧
      ((∀ parent, (parse text).parent = some parent → pathExists cwd root parent = false) ∨
        ∃ parent vetted name, (parse text).parent = some parent ∧ canonicalize root cwd parent = .ok vetted ∧
          place <+: vetted ∧ (parse text).components.getLast? = some name ∧ isLink root (vetted ++ [name]) = true)

theorem pathExists_iff (root : Node) (p : Path) : pathExists cwd root p = true ↔ ∃ loc, canonicalize root cwd p = .ok loc := by
  unfold pathExists
  cases canonicalize root cwd p <;> simp [Except.isOk,Except.toBool]

theorem refused_iff (root : Node) (checked : Path) (text allowed : String) (place : Loc)
    (there : canonicalize root cwd (parse allowed) = .ok place) :
    refused display cwd root checked text allowed = none ↔ ∃ canonical, canonicalize root cwd checked = .ok canonical ∧ place <+: canonical := by
  unfold refused
  rw [there]
  cases canonicalize root cwd checked with
  | error cause => simp
  | ok canonical => simp [List.isPrefixOf_iff_prefix]

/-- The check lets a write pass that it does not look at, or whose path or parent lies in the place. -/
theorem refusedWrite_iff (root : Node) (text allowed : String) (place : Loc)
    (there : canonicalize root cwd (parse allowed) = .ok place) :
    refusedWrite display cwd root text allowed = none ↔
      pathExists cwd root (checkPath cwd root (parse text)) = false ∨
        ∃ canonical, canonicalize root cwd (checkPath cwd root (parse text)) = .ok canonical ∧ place <+: canonical := by
  unfold refusedWrite
  split_ifs with exists_
  · rw [refused_iff display cwd root _ text allowed place there,exists_]
    simp
  · simp [Bool.eq_false_iff.mpr exists_]

theorem pathExists_false (root : Node) (p : Path) (missing : pathExists cwd root p = false) (loc : Loc) :
    canonicalize root cwd p ≠ .ok loc := by
  intro there
  rw [(pathExists_iff cwd root p).mpr ⟨loc,there⟩] at missing
  cases missing

theorem checkPath_missing (root : Node) (p : Path) (missing : pathExists cwd root p = false) :
    checkPath cwd root p = p.parent.getD p := by
  rw [checkPath,if_neg (by rw [missing]; exact Bool.false_ne_true)]

/-- Where the check does not speak for what follows, the restricted tool is the plain one. -/
theorem loose_same (root : Node) (allowed : String) (place : Loc) (call : Call)
    (there : canonicalize root cwd (parse allowed) = .ok place) (loose : Loose cwd place root call) :
    perform display cwd (some allowed) root call = perform display cwd none root call := by
  cases call with
  | read args => cases loose
  | write args =>
    obtain ⟨text,named,missing,unchecked⟩ := loose
    have passes : refusedWrite display cwd root text allowed = none := by
      rw [refusedWrite_iff display cwd root text allowed place there,checkPath_missing cwd root _ missing]
      rcases unchecked with nothing | ⟨parent,vetted,name,above,resolves,within,_⟩
      · left
        cases above : (parse text).parent with
        | none => exact missing
        | some parent => exact nothing parent above
      · right
        rw [above]
        exact ⟨vetted,resolves,within⟩
    change fileWrite display cwd (some allowed) root args = fileWrite display cwd none root args
    unfold fileWrite
    rw [named]
    simp only [Option.bind_some,Option.bind_none,passes]

/-- A refused call, and one that stops at its checks. -/
theorem confined_still (place : Loc) (root : Node) (result : Except ToolError Value) : Confined place root ⟨result,root,[]⟩ :=
  ⟨fun _ member => (nomatch member),fun _ changed => absurd rfl changed⟩

/-- A file is written, with no directory to be made, at a location in the place. -/
theorem confined_write (place : Loc) (root : Node) (text content : String)
    (parents : (makeParents cwd root (parse text)).1 = root)
    (inside : (makeParents cwd root (parse text)).2 = .ok () → ∀ written loc,
      write root cwd (parse text) (Utf8.encode content.toList) = .ok (written,loc) → place <+: loc) :
    Confined place root (writeFile display cwd root text content) := by
  unfold writeFile
  cases made : makeParents cwd root (parse text) with
  | mk tree done =>
    rw [made] at parents inside
    obtain rfl : tree = root := parents
    cases done with
    | error cause => exact confined_still place tree _
    | ok _ =>
      simp only
      cases wrote : write tree cwd (parse text) (Utf8.encode content.toList) with
      | error cause => exact confined_still place tree _
      | ok pair =>
        obtain ⟨written,loc⟩ := pair
        refine ⟨fun _ member => (nomatch member),fun other changed => ?_⟩
        have same : other = loc := by
          by_contra apart
          exact changed (write_frame tree cwd _ _ written loc other wrote apart)
        rw [same]
        exact inside rfl written loc wrote

/-- What resolves is written where it is. -/
theorem confined_there (place canonical : Loc) (root : Node) (text content : String)
    (there : canonicalize root cwd (parse text) = .ok canonical) (within : place <+: canonical) :
    Confined place root (writeFile display cwd root text content) := by
  apply confined_write display cwd place root text content
  · unfold makeParents
    cases above : (parse text).parent with
    | none => rfl
    | some parent => exact makeDirs_there cwd root parent (parent_there cwd root _ parent canonical above there)
  · intro _ written loc wrote
    rw [write_there cwd root _ _ written loc canonical there wrote]
    exact within

/-- A last component that is a dot is the only one. -/
theorem components_dot (p parent : Path) (above : p.parent = some parent) (last : p.components.getLast? = some ".") :
    parent.isEmpty = true := by
  obtain ⟨_,rfl⟩ := parent_eq p parent above
  have undotted (segs : List String) (member : "." ∈ segs.filter (· ≠ ".")) : False := by simp at member
  unfold Path.components at last ⊢
  split at last
  · next rest absolute _ =>
    cases kept : rest.filter (· ≠ ".") with
    | nil => simp [Path.isEmpty,absolute]
    | cons first others =>
      rw [kept,List.getLast?_cons_cons,← kept] at last
      exact (undotted rest (List.mem_of_getLast? last)).elim
  · exact (undotted _ (List.mem_of_getLast? last)).elim

/-- A place that nothing is at is not reached by a last step upwards. -/
theorem no_step_up (root : Node) (p parent : Path) (vetted loc : Loc) (above : p.parent = some parent)
    (there : canonicalize root cwd parent = .ok vetted) (leads : Leads root true maxLinks (start cwd p) p.components loc)
    (missing : root.find loc = none) : p.components.getLast? ≠ some ".." := by
  intro last
  obtain ⟨_,rfl⟩ := parent_eq p parent above
  obtain ⟨_,upward⟩ := leads_of_resolve root cwd false _ vetted there
  rw [(List.dropLast_append_getLast? ".." last).symm] at leads
  obtain ⟨fewer,middle,before,after⟩ := leads_snoc root true _ _ _ _ _ leads
  have same : middle = vetted := Except.ok.inj
    ((walk_of_leads root false _ _ _ _ before).symm.trans (walk_of_leads root false _ _ _ _ upward))
  obtain ⟨children,here⟩ := dir_of_leads root true _ _ _ _ _ after
  have ends : loc = middle.dropLast := by
    generalize whole : [".."] = segs at after
    cases after with
    | done => cases whole
    | stay => exact absurd (List.cons.inj whole).1 (by decide)
    | up _ _ _ rest _ _ onward =>
      obtain ⟨_,rfl⟩ := List.cons.inj whole
      cases onward
      rfl
    | new _ _ seg _ _ _ dots => exact absurd (List.cons.inj whole).1.symm dots
    | follow _ _ _ seg _ _ _ _ _ dots => exact absurd (List.cons.inj whole).1.symm dots
    | enter _ _ _ seg _ _ _ _ _ dots => exact absurd (List.cons.inj whole).1.symm dots
  rcases List.eq_nil_or_concat middle with rfl | ⟨up,name,rfl⟩
  · rw [ends] at missing
    exact absurd (missing.symm.trans here) (by simp)
  · rw [List.concat_eq_append] at here ends
    rw [ends,List.dropLast_concat] at missing
    rw [find_snoc,missing] at here
    cases here

/-- A new name under a parent in the place, where no link has it. -/
theorem confined_new (place vetted : Loc) (root : Node) (text content : String) (parent : Path)
    (missing : pathExists cwd root (parse text) = false) (above : (parse text).parent = some parent)
    (there : canonicalize root cwd parent = .ok vetted) (within : place <+: vetted)
    (unlinked : ∀ name, (parse text).components.getLast? = some name → isLink root (vetted ++ [name]) = false) :
    Confined place root (writeFile display cwd root text content) := by
  apply confined_write display cwd place root text content
  · rw [makeParents,above]
    exact makeDirs_there cwd root parent (.inr ⟨vetted,there⟩)
  · intro _ written loc wrote
    have resolved := Script.Fs.resolve_of_write root cwd _ _ written loc wrote
    obtain ⟨full,leads⟩ := leads_of_resolve root cwd true _ loc resolved
    have nowhere : root.find loc = none := by
      refine (leads_made root _ _ _ _ leads).resolve_left (fun found => pathExists_false cwd root _ missing loc ?_)
      rw [canonicalize,resolve,full]
      exact walk_of_leads root false _ _ _ _ found
    have trimmed := leads_trimmed root true _ _ _ _ _ leads (trimmed_walked _ _ (trimmed_components (parse text)))
    obtain ⟨filled,_⟩ := leads_of_resolve root cwd false parent vetted there
    obtain ⟨some_,_⟩ := parent_eq _ parent above
    have last : (parse text).components.getLast? = some ((parse text).components.getLast some_) := List.getLast?_eq_some_getLast some_
    have plain : Script.Fs.EndsPlainly root (parse text) vetted := by
      refine ⟨parent,_,above,filled,last,fun dot => ?_,fun dots => ?_,unlinked _ last⟩
      · rw [dot] at last
        rw [components_dot _ parent above last] at filled
        cases filled
      · rw [dots] at last
        exact no_step_up cwd root _ parent vetted loc above there trimmed nowhere last
    exact within.trans (Script.Fs.prefix_of_resolve root cwd true _ parent vetted loc plain above there resolved)

/-- Where the check speaks for what follows, the restricted tool keeps to the place. -/
theorem tight_confined (root : Node) (allowed : String) (place : Loc) (call : Call)
    (there : canonicalize root cwd (parse allowed) = .ok place) (tight : ¬Loose cwd place root call) :
    Confined place root (perform display cwd (some allowed) root call) := by
  cases call with
  | read args =>
    change Confined place root (fileRead display cwd (some allowed) root args)
    unfold fileRead
    cases (args.get "path").bind Value.asStr with
    | none => exact confined_still place root _
    | some text =>
      simp only [Option.bind_some]
      cases refuses : refused display cwd root (parse text) text allowed with
      | some error => exact confined_still place root _
      | none =>
        obtain ⟨canonical,found,within⟩ := (refused_iff display cwd root _ text allowed place there).mp refuses
        simp only [found]
        cases readToString root canonical with
        | error cause => exact confined_still place root _
        | ok content =>
          refine ⟨fun loc member => ?_,fun _ changed => absurd rfl changed⟩
          rw [List.mem_singleton.mp member]
          exact within
  | write args =>
    change Confined place root (fileWrite display cwd (some allowed) root args)
    unfold fileWrite
    cases named : (args.get "path").bind Value.asStr with
    | none => exact confined_still place root _
    | some text =>
      cases (args.get "content").bind Value.asStr with
      | none => exact confined_still place root _
      | some content =>
        simp only [Option.bind_some]
        cases refuses : refusedWrite display cwd root text allowed with
        | some error => exact confined_still place root _
        | none =>
          simp only
          split_ifs
          · exact confined_still place root _
          · have passed := (refusedWrite_iff display cwd root text allowed place there).mp refuses
            cases exists_ : pathExists cwd root (parse text) with
            | true =>
              have itself : checkPath cwd root (parse text) = parse text := by rw [checkPath,if_pos exists_]
              rw [itself,exists_] at passed
              obtain ⟨canonical,found,within⟩ := passed.resolve_left (by simp)
              exact confined_there display cwd place canonical root text content found within
            | false =>
              rw [checkPath_missing cwd root _ exists_] at passed
              cases above : (parse text).parent with
              | none => exact absurd ⟨text,named,exists_,.inl (by simp [above])⟩ tight
              | some parent =>
                rw [above] at passed
                rcases passed with unchecked | ⟨vetted,found,within⟩
                · refine absurd ⟨text,named,exists_,.inl (fun other up => ?_)⟩ tight
                  rw [above] at up
                  rw [← Option.some_inj.mp up]
                  exact unchecked
                · apply confined_new display cwd place vetted root text content parent exists_ above found within
                  intro name last
                  by_contra linked
                  exact tight ⟨text,named,exists_,.inr ⟨parent,vetted,name,above,found,within,last,by simpa using linked⟩⟩

/-- A path that a text gives is walked somewhere: a text of slashes alone ends with one. -/
theorem parse_walks (text : String) (full : (parse text).isEmpty = false) : (parse text).walked ≠ [] := by
  intro still
  unfold Path.walked at still
  split at still
  · simp at still
  · next unslashed =>
    have absolute : (parse text).absolute = true := by
      rw [Path.isEmpty,still] at full
      simpa using full
    obtain ⟨last,ends⟩ : ∃ last, text.toList.getLast? = some last := by
      cases list : text.toList with
      | nil => simp [parse,list] at absolute
      | cons first rest => exact ⟨_,List.getLast?_eq_some_getLast (List.cons_ne_nil first rest)⟩
    have plain : (last == '/') = false := by simpa [parse,ends] using unslashed
    rcases Pieces.mem_flatten_pieces (· == '/') text.toList last (List.mem_of_getLast? ends) with slash | inside
    · rw [plain] at slash
      cases slash
    · obtain ⟨piece,member,inside⟩ := List.mem_flatten.mp inside
      have kept : String.ofList piece ∈ (parse text).segments := by
        refine List.mem_filter.mpr ⟨List.mem_map_of_mem member,decide_eq_true (fun empty => ?_)⟩
        have none : piece = [] := by simpa using congrArg String.toList empty
        rw [none] at inside
        cases inside
      rw [still] at kept
      cases kept

theorem makeParents_grows (root : Node) (p : Path) : Grows root (makeParents cwd root p).1 := by
  unfold makeParents
  cases p.parent with
  | none => exact grows_refl root
  | some parent => exact makeDirs_grows cwd root parent

theorem writeFile_grows (root : Node) (text content : String) (rooted : labelAt root [] = some .dir) :
    Grows root (writeFile display cwd root text content).root := by
  have parents := makeParents_grows cwd root (parse text)
  unfold writeFile
  cases made : makeParents cwd root (parse text) with
  | mk tree done =>
    rw [made] at parents
    cases done with
    | error cause => exact parents
    | ok _ =>
      simp only
      cases wrote : write tree cwd (parse text) (Utf8.encode content.toList) with
      | error cause => exact parents
      | ok pair =>
        obtain ⟨written,loc⟩ := pair
        obtain ⟨full,_⟩ := leads_of_resolve tree cwd true _ loc (Script.Fs.resolve_of_write tree cwd _ _ written loc wrote)
        exact grows_trans root tree written parents
          (write_grows cwd tree (parents.dirs [] rooted) _ (parse_walks text full) _ written loc wrote)

theorem step_grows (allowedDir : Option String) (root : Node) (call : Call) (rooted : labelAt root [] = some .dir) :
    Grows root (step display cwd allowedDir root call) := by
  cases call with
  | read args =>
    change Grows root (fileRead display cwd allowedDir root args).root
    unfold fileRead
    cases (args.get "path").bind Value.asStr with
    | none => exact grows_refl root
    | some text =>
      simp only
      cases allowedDir.bind (refused display cwd root (parse text) text) with
      | some error => exact grows_refl root
      | none =>
        cases canonicalize root cwd (parse text) with
        | error cause => exact grows_refl root
        | ok loc =>
          simp only
          cases readToString root loc <;> exact grows_refl root
  | write args =>
    change Grows root (fileWrite display cwd allowedDir root args).root
    unfold fileWrite
    cases (args.get "path").bind Value.asStr with
    | none => exact grows_refl root
    | some text =>
      cases (args.get "content").bind Value.asStr with
      | none => exact grows_refl root
      | some content =>
        simp only
        cases allowedDir.bind (refusedWrite display cwd root text) with
        | some error => exact grows_refl root
        | none =>
          simp only
          split_ifs
          · exact grows_refl root
          · exact writeFile_grows display cwd root text content rooted

/-- Over every run of calls, whatever they make on the way: all that the restricted tools read and change lies in the
allowed directory, if and only if that is so of what the plain tools would do at each write whose path and parent are
missing or that goes through a link under its last name. -/
theorem confined_iff (allowed : String) (place : Loc) (tree : Node) (calls : List Call) (rooted : labelAt tree [] = some .dir)
    (there : canonicalize tree cwd (parse allowed) = .ok place) :
    Along (step display cwd (some allowed))
        (fun root call => Confined place root (perform display cwd (some allowed) root call)) tree calls ↔
      Along (step display cwd (some allowed))
        (fun root call => Loose cwd place root call → Confined place root (perform display cwd none root call)) tree calls := by
  have kept (root : Node) (call : Call)
      (now : labelAt root [] = some .dir ∧ canonicalize root cwd (parse allowed) = .ok place) :
      labelAt (step display cwd (some allowed) root call) [] = some .dir ∧
        canonicalize (step display cwd (some allowed) root call) cwd (parse allowed) = .ok place := by
    have grows := step_grows display cwd (some allowed) root call now.1
    exact ⟨grows.dirs [] now.1,canonicalize_grows root _ grows cwd _ place now.2⟩
  constructor
  · apply along_of_along (step display cwd (some allowed)) _ _
      (fun root => labelAt root [] = some .dir ∧ canonicalize root cwd (parse allowed) = .ok place)
      (fun root call now _ => kept root call now) _ tree calls ⟨rooted,there⟩
    intro root call now confined loose
    rw [← loose_same display cwd root allowed place call now.2 loose]
    exact confined
  · apply along_of_along (step display cwd (some allowed)) _ _
      (fun root => labelAt root [] = some .dir ∧ canonicalize root cwd (parse allowed) = .ok place)
      (fun root call now _ => kept root call now) _ tree calls ⟨rooted,there⟩
    intro root call now plain
    by_cases loose : Loose cwd place root call
    · rw [loose_same display cwd root allowed place call now.2 loose]
      exact plain loose
    · exact tight_confined display cwd root allowed place call now.2 loose

end Tools

/-- A directory for the tools beside another one. -/
def boxTree : Node := .dir [("box",.dir [("note",.file [104,105])]),("etc",.dir [])]

def boxCalls : List Call :=
  [.read (.object [("path",.string "/box/note")]),.write (.object [("path",.string "/box/new"),("content",.string "x")]),
    .write (.object [("path",.string "/etc/x"),("content",.string "x")])]

theorem confined_iff_box :
    Along (step (fun _ => "") [] (some "/box"))
        (fun root call => Confined ["box"] root (perform (fun _ => "") [] (some "/box") root call)) boxTree boxCalls ↔
      Along (step (fun _ => "") [] (some "/box"))
        (fun root call => Loose [] ["box"] root call → Confined ["box"] root (perform (fun _ => "") [] none root call))
        boxTree boxCalls :=
  confined_iff (fun _ => "") [] "/box" ["box"] boxTree boxCalls rfl rfl

theorem makeParents_new : makeParents [] boxTree (parse "/new/x") = (Node.put (.dir []) ["new"] boxTree,.ok ()) := by
  rw [makeParents]
  change makeDirs [] boxTree ⟨true,["new"],false⟩ = _
  rw [makeDirs]
  rfl

/-- No check is made of a path under a directory that is not there yet. -/
example : labelAt (step (fun _ => "") [] (some "/box") boxTree
    (.write (.object [("path",.string "/new/x"),("content",.string "x")]))) ["new","x"] = some (.file [120]) := by
  change labelAt (writeFile (fun _ => "") [] boxTree "/new/x" "x").root _ = _
  rw [writeFile,makeParents_new]
  rfl

end ClawKernel.Tools.FileTools
