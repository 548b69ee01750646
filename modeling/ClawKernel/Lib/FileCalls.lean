import ClawKernel.Lib.FileTree
import ClawKernel.Lib.Utf8

/-! The file calls of the operating system and the standard library over a file tree: each
resolves its path from the working directory and says which location it works on.
-/
namespace ClawKernel.Lib.FileCalls
open FileTree

def maxLinks : Nat := 40

section Calls
variable (root : Node) (cwd : Loc)

def start (p : Path) : Loc := if p.absolute then [] else cwd

def resolve (create : Bool) (p : Path) : Except IoError Loc :=
  if p.isEmpty then .error .notFound else walk root create maxLinks (start cwd p) p.walked

def canonicalize (p : Path) : Except IoError Loc := resolve root cwd false p

/-- `is_dir`, with the location of the directory. -/
def foundDir (p : Path) : Option Loc :=
  match canonicalize root cwd p with
  | .error _ => none
  | .ok loc =>
    match root.find loc with
    | some (.dir _) => some loc
    | _ => none

/-- The text of the file at a location, which must be valid UTF-8. -/
def readToString (loc : Loc) : Except IoError String :=
  match root.find loc with
  | some (.file content) =>
    if Utf8.encode (Utf8.lossy content) = content then .ok (String.ofList (Utf8.lossy content))
    else .error .invalidData
  | some (.dir _) => .error .isADirectory
  | _ => .error .notFound

/-- Opens for writing, following a last link, and replaces the content. -/
def write (p : Path) (content : List UInt8) : Except IoError (Node × Loc) :=
  match resolve root cwd true p with
  | .error cause => .error cause
  | .ok loc =>
    match root.find loc with
    | some (.dir _) => .error .isADirectory
    | _ => .ok (Node.put (.file content) loc root,loc)

/-- The system's `mkdir`: the location of the new directory. It does not follow a last link. -/
def makeDir (p : Path) : Except IoError Loc :=
  match p.segments.getLast? with
  | none => .error (if p.absolute then .alreadyExists else .notFound)
  | some last =>
    match walk root false maxLinks (start cwd p) p.segments.dropLast with
    | .error cause => .error cause
    | .ok loc =>
      match root.find loc with
      | some (.dir children) =>
        if last = "." ∨ last = ".." ∨ (children.lookup last).isSome then .error .alreadyExists
        else .ok (loc ++ [last])
      | _ => .error .notADirectory

/-- The directory that making one ends with: a new one, or one that is there. -/
def madeOrFound (p : Path) : Option Loc :=
  match makeDir root cwd p with
  | .ok loc => some loc
  | .error _ => foundDir root cwd p

end Calls

theorem components_length (p : Path) : p.components.length ≤ p.segments.length := by
  unfold Path.components
  split
  · rename_i rest _ leading
    rw [leading]
    exact Nat.succ_le_succ (List.length_filter_le _ rest)
  · exact List.length_filter_le _ _

theorem parent_eq (p parent : Path) (above : p.parent = some parent) :
    p.components ≠ [] ∧ parent = ⟨p.absolute,p.components.dropLast,false⟩ := by
  unfold Path.parent at above
  split at above
  · cases above
  · rename_i some
    exact ⟨some,(Option.some.inj above).symm⟩

theorem components_parent (p parent : Path) (above : p.parent = some parent) :
    parent.components.length < p.components.length := by
  obtain ⟨some,rfl⟩ := parent_eq p parent above
  apply Nat.lt_of_le_of_lt (components_length _)
  rw [List.length_dropLast]
  exact Nat.sub_lt (List.length_pos_of_ne_nil some) Nat.one_pos

/-- `create_dir_all`, with the new tree and the directories made or found. -/
def createDirAll (cwd : Loc) (root : Node) (p : Path) : Except IoError (Node × List Loc) :=
  if p.isEmpty then .ok (root,[])
  else
    match makeDir root cwd p with
    | .ok loc => .ok (Node.put (.dir []) loc root,[loc])
    | .error .notFound =>
      match _above : p.parent with
      | none => .error .uncategorized
      | some parent =>
        match createDirAll cwd root parent with
        | .error cause => .error cause
        | .ok (made,before) =>
          match makeDir made cwd p with
          | .ok loc => .ok (Node.put (.dir []) loc made,before ++ [loc])
          | .error cause =>
            match foundDir made cwd p with
            | some loc => .ok (made,before ++ [loc])
            | none => .error cause
    | .error cause =>
      match foundDir root cwd p with
      | some loc => .ok (root,[loc])
      | none => .error cause
termination_by p.components.length
decreasing_by exact components_parent p parent _above

section Spec
variable (root : Node) (cwd : Loc)

theorem leads_of_resolve (create : Bool) (p : Path) (loc : Loc) (ok : resolve root cwd create p = .ok loc) :
    p.isEmpty = false ∧ Leads root create maxLinks (start cwd p) p.walked loc := by
  unfold resolve at ok
  split at ok
  · cases ok
  · rename_i full
    exact ⟨Bool.eq_false_iff.mpr full,leads_of_walk root create _ _ _ _ ok⟩

theorem dir_of_leads (create : Bool) (links : Nat) (loc final : Loc) (seg : String) (rest : List String)
    (leads : Leads root create links loc (seg :: rest) final) :
    ∃ children, root.find loc = some (.dir children) := by
  cases leads with
  | stay _ _ _ _ children here => exact ⟨children,here⟩
  | up _ _ _ _ children here => exact ⟨children,here⟩
  | new _ _ _ children here => exact ⟨children,here⟩
  | follow _ _ _ _ _ children _ here => exact ⟨children,here⟩
  | enter _ _ _ _ _ children _ here => exact ⟨children,here⟩

theorem present_of_leads (links : Nat) (loc final : Loc) (last : String) (children : List (String × Node))
    (here : root.find loc = some (.dir children)) (leads : Leads root false links loc [last] final) :
    last = "." ∨ last = ".." ∨ (children.lookup last).isSome := by
  generalize whole : [last] = segs at leads
  cases leads with
  | done => cases whole
  | stay => exact .inl (List.cons.inj whole).1
  | up => exact .inr (.inl (List.cons.inj whole).1)
  | new _ _ _ _ _ _ _ _ may => cases may
  | follow _ _ _ seg rest kin target there _ _ link =>
    rw [here] at there
    obtain rfl := Node.dir.inj (Option.some.inj there)
    rw [(List.cons.inj whole).1,link]
    exact .inr (.inr rfl)
  | enter _ _ _ seg rest kin node there _ _ present =>
    rw [here] at there
    obtain rfl := Node.dir.inj (Option.some.inj there)
    rw [(List.cons.inj whole).1,present]
    exact .inr (.inr rfl)

/-- What resolves is there, so that it cannot be made. -/
theorem makeDir_of_canonicalize (p : Path) (loc : Loc) (there : canonicalize root cwd p = .ok loc) :
    makeDir root cwd p = .error .alreadyExists := by
  obtain ⟨full,leads⟩ := leads_of_resolve root cwd false p loc there
  have plain := leads_trimmed root false _ _ _ _ _ leads (trimmed_walked p _ (trimmed_refl _))
  unfold makeDir
  rcases List.eq_nil_or_concat p.segments with none | ⟨init,last,whole⟩
  · have absolute : p.absolute = true := by
      rw [Path.isEmpty,none] at full
      simpa using full
    rw [none,absolute]
    rfl
  · rw [List.concat_eq_append] at whole
    rw [whole] at plain
    obtain ⟨fewer,middle,before,after⟩ := leads_snoc root false _ _ _ _ _ plain
    obtain ⟨children,here⟩ := dir_of_leads root false _ _ _ _ _ after
    rw [whole,List.getLast?_concat,List.dropLast_concat]
    simp only [walk_of_leads root false _ _ _ _ before,here]
    exact if_pos (present_of_leads root _ _ _ _ children here after)

theorem canonicalize_of_foundDir (p : Path) (loc : Loc) (found : foundDir root cwd p = some loc) :
    canonicalize root cwd p = .ok loc := by
  unfold foundDir at found
  split at found
  · cases found
  · rename_i other there
    split at found
    · rw [there,Option.some.inj found]
    · cases found

theorem foundDir_of_missing (p : Path) (missing : makeDir root cwd p = .error .notFound) :
    foundDir root cwd p = none := by
  cases found : foundDir root cwd p with
  | none => rfl
  | some loc =>
    rw [makeDir_of_canonicalize root cwd p loc (canonicalize_of_foundDir root cwd p loc found)] at missing
    cases missing

theorem createDirAll_made (p : Path) (loc : Loc) (full : p.isEmpty = false) (made : makeDir root cwd p = .ok loc) :
    createDirAll cwd root p = .ok (Node.put (.dir []) loc root,[loc]) := by
  rw [createDirAll,full,made]
  rfl

theorem createDirAll_there (p : Path) (cause : IoError) (full : p.isEmpty = false)
    (failed : makeDir root cwd p = .error cause) (other : cause ≠ .notFound) :
    createDirAll cwd root p =
      match foundDir root cwd p with
      | some loc => .ok (root,[loc])
      | none => .error cause := by
  rw [createDirAll,full,failed]
  cases cause with
  | notFound => exact absurd rfl other
  | _ => rfl

/-- Under a directory that is there nothing is left to make but the last one. -/
theorem createDirAll_parent (parent : Path) (there : parent.isEmpty = true ∨ ∃ loc, canonicalize root cwd parent = .ok loc)
    (made : Node) (touched : List Loc) (ok : createDirAll cwd root parent = .ok (made,touched)) : made = root := by
  cases full : parent.isEmpty with
  | true =>
    rw [createDirAll,full] at ok
    exact (congrArg Prod.fst (Except.ok.inj ok)).symm
  | false =>
    rw [full] at there
    obtain ⟨loc,there⟩ := there.resolve_left Bool.false_ne_true
    have taken := makeDir_of_canonicalize root cwd parent loc there
    rw [createDirAll_there root cwd parent .alreadyExists full taken (by decide)] at ok
    split at ok
    · exact (congrArg Prod.fst (Except.ok.inj ok)).symm
    · cases ok

theorem createDirAll_missing (p : Path) (missing : makeDir root cwd p = .error .notFound) (full : p.isEmpty = false)
    (there : ∀ parent, p.parent = some parent → parent.isEmpty = true ∨ ∃ loc, canonicalize root cwd parent = .ok loc)
    (made : Node) (touched : List Loc) : createDirAll cwd root p ≠ .ok (made,touched) := by
  intro ok
  rw [createDirAll,full,missing] at ok
  simp only [Bool.false_eq_true,if_false] at ok
  split at ok
  · cases ok
  · rename_i parent above
    split at ok
    · cases ok
    · rename_i other before inner
      obtain rfl := createDirAll_parent root cwd parent (there parent above) other before inner
      simp only [missing,foundDir_of_missing other cwd p missing] at ok
      cases ok

/-- A path whose last component is a plain name and no link leads to a child of its parent. -/
theorem direct_of_leads (create : Bool) (p parent : Path) (segs : List String) (name : String) (vetted loc : Loc)
    (above : p.parent = some parent) (there : canonicalize root cwd parent = .ok vetted)
    (last : p.components.getLast? = some name) (dot : name ≠ ".") (dots : name ≠ "..")
    (plain : isLink root (vetted ++ [name]) = false) (trimmed : Trimmed segs p.components)
    (leads : Leads root create maxLinks (start cwd p) segs loc) : loc = vetted ++ [name] := by
  obtain ⟨_,rfl⟩ := parent_eq p parent above
  obtain ⟨_,upward⟩ := leads_of_resolve root cwd false _ vetted there
  have whole : p.components = p.components.dropLast ++ [name] :=
    (List.dropLast_append_getLast? name last).symm
  have all := leads_trimmed root create _ _ _ _ _ leads trimmed
  rw [whole] at all
  obtain ⟨fewer,middle,before,after⟩ := leads_snoc root create _ _ _ _ _ all
  have same : middle = vetted := Except.ok.inj
    ((walk_of_leads root false _ _ _ _ before).symm.trans (walk_of_leads root false _ _ _ _ upward))
  rw [same] at after
  exact leads_plain root create _ _ _ _ dot dots plain after

theorem leads_of_makeDir (p : Path) (loc : Loc) (made : makeDir root cwd p = .ok loc) :
    Leads root true maxLinks (start cwd p) p.segments loc ∧ root.find loc = none := by
  unfold makeDir at made
  rcases List.eq_nil_or_concat p.segments with none | ⟨init,last,whole⟩
  · rw [none] at made
    cases made
  · rw [List.concat_eq_append] at whole
    rw [whole,List.getLast?_concat,List.dropLast_concat] at made
    rw [whole]
    simp only at made
    split at made
    · cases made
    · rename_i middle walked
      split at made
      · rename_i children here
        split at made
        · cases made
        · rename_i fresh
          obtain ⟨dot,rest⟩ := not_or.mp fresh
          obtain ⟨dots,absent⟩ := not_or.mp rest
          have missing : children.lookup last = none := by
            rw [Option.isSome_iff_ne_none,not_not] at absent
            exact absent
          rw [← Except.ok.inj made,find_snoc,here]
          exact ⟨leads_missing root _ _ _ _ _ children (leads_of_walk root false _ _ _ _ walked) here dot dots missing,
            missing⟩
      · cases made

theorem start_placed (create : Bool) (p : Path) (loc : Loc) (ok : resolve root cwd create p = .ok loc) :
    Placed root loc := by
  obtain ⟨full,leads⟩ := leads_of_resolve root cwd create p loc ok
  apply leads_placed root create _ _ _ _ leads
  intro none
  have empty : p.segments = [] := by
    unfold Path.walked at none
    split at none
    · exact (List.append_eq_nil_iff.mp none).1
    · exact none
  have absolute : p.absolute = true := by
    rw [Path.isEmpty,empty] at full
    simpa using full
  rw [start,if_pos absolute]
  exact .inl rfl

theorem leaf_file (content : List UInt8) : Leaf (.file content) := fun _ => rfl

theorem leaf_emptyDir : Leaf (.dir []) := fun _ => rfl

theorem write_frame (p : Path) (content : List UInt8) (made : Node) (loc other : Loc)
    (ok : write root cwd p content = .ok (made,loc)) (apart : other ≠ loc) :
    labelAt made other = labelAt root other := by
  unfold write at ok
  split at ok
  · cases ok
  · rename_i place resolved
    split at ok
    · cases ok
    · rename_i file
      obtain ⟨rfl,rfl⟩ := Prod.mk.inj (Except.ok.inj ok)
      apply labelAt_put root _ place other (start_placed root cwd true p place resolved) (leaf_file content) _ apart
      intro node found
      cases node with
      | file old => exact leaf_file old
      | link target => exact fun _ => rfl
      | dir children => exact absurd found (file children)

theorem makeDir_frame (p : Path) (loc other : Loc) (made : makeDir root cwd p = .ok loc) (apart : other ≠ loc) :
    labelAt (Node.put (.dir []) loc root) other = labelAt root other := by
  obtain ⟨leads,missing⟩ := leads_of_makeDir root cwd p loc made
  apply labelAt_put root _ loc other _ leaf_emptyDir _ apart
  · apply leads_placed root true _ _ _ _ leads
    intro none
    unfold makeDir at made
    rw [none] at made
    cases made
  · intro node found
    rw [missing] at found
    cases found

theorem createDirAll_cases (p : Path)
    (there : ∀ parent, p.parent = some parent → parent.isEmpty = true ∨ ∃ loc, canonicalize root cwd parent = .ok loc)
    (made : Node) (dirs : List Loc) (ok : createDirAll cwd root p = .ok (made,dirs)) :
    (dirs = [] ∧ made = root) ∨ ∃ loc, madeOrFound root cwd p = some loc ∧ dirs = [loc] ∧
      ∀ other, other ≠ loc → labelAt made other = labelAt root other := by
  cases full : p.isEmpty with
  | true =>
    rw [createDirAll,full] at ok
    obtain ⟨rfl,rfl⟩ := Prod.mk.inj (Except.ok.inj ok)
    exact .inl ⟨rfl,rfl⟩
  | false =>
    right
    cases result : makeDir root cwd p with
    | ok loc =>
      rw [createDirAll_made root cwd p loc full result] at ok
      obtain ⟨rfl,rfl⟩ := Prod.mk.inj (Except.ok.inj ok)
      refine ⟨loc,?_,rfl,fun other apart => makeDir_frame root cwd p loc other result apart⟩
      rw [madeOrFound,result]
    | error cause =>
      by_cases missing : cause = .notFound
      · rw [missing] at result
        exact absurd ok (createDirAll_missing root cwd p result full there made dirs)
      · rw [createDirAll_there root cwd p cause full result missing] at ok
        split at ok
        · rename_i loc found
          obtain ⟨rfl,rfl⟩ := Prod.mk.inj (Except.ok.inj ok)
          refine ⟨loc,?_,rfl,fun _ _ => rfl⟩
          rw [madeOrFound,result]
          exact found
        · cases ok

theorem createDirAll_of_madeOrFound (p : Path) (loc : Loc) (reached : madeOrFound root cwd p = some loc) :
    ∃ made, createDirAll cwd root p = .ok (made,[loc]) := by
  unfold madeOrFound at reached
  split at reached
  · rename_i place made
    obtain rfl := Option.some.inj reached
    refine ⟨_,createDirAll_made root cwd p place ?_ made⟩
    cases full : p.isEmpty with
    | false => rfl
    | true =>
      obtain ⟨_,empty⟩ := Bool.and_eq_true_iff.mp full
      rw [makeDir,List.isEmpty_iff.mp empty] at made
      cases made
  · have there := canonicalize_of_foundDir root cwd p loc reached
    obtain ⟨full,_⟩ := leads_of_resolve root cwd false p loc there
    have taken := makeDir_of_canonicalize root cwd p loc there
    rw [createDirAll_there root cwd p .alreadyExists full taken (by decide),reached]
    exact ⟨root,rfl⟩

end Spec
end ClawKernel.Lib.FileCalls
