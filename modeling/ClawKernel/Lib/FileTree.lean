import ClawKernel.Lib.Pieces

/-! File trees with symbolic links, paths and their resolution as the operating system does it.
A location is the list of names from the root, with no link on the way.
-/
namespace ClawKernel.Lib.FileTree
open Pieces

inductive Node where
  | file (content : List UInt8)
  | link (target : String)
  | dir (children : List (String × Node))

abbrev Loc := List String

def Node.child (node : Node) (name : String) : Option Node :=
  match node with
  | .dir children => children.lookup name
  | _ => none

def Node.find : Node → Loc → Option Node
  | node, [] => some node
  | node, name :: rest =>
    match node.child name with
    | none => none
    | some next => next.find rest

theorem find_snoc (node : Node) (loc : Loc) (name : String) :
    node.find (loc ++ [name]) = (node.find loc).bind (·.child name) := by
  induction loc generalizing node with
  | nil =>
    rw [List.nil_append,Node.find,Node.find,Option.bind_some]
    cases node.child name with
    | none => rfl
    | some next => rfl
  | cons first rest ih =>
    rw [List.cons_append,Node.find,Node.find]
    cases node.child first with
    | none => rfl
    | some next => exact ih next

def isLink (root : Node) (loc : Loc) : Bool :=
  match root.find loc with
  | some (.link _) => true
  | _ => false

inductive IoError where
  | notFound
  | notADirectory
  | isADirectory
  | alreadyExists
  | tooManyLinks
  | invalidData
  | uncategorized
  deriving DecidableEq, Repr

/-- A path as text gives it: its segments between slashes, none of them empty, and whether
it starts and ends with a slash. -/
structure Path where
  absolute : Bool
  segments : List String
  slash : Bool
  deriving DecidableEq, Repr

def parse (text : String) : Path where
  absolute := text.toList.head? == some '/'
  segments := ((pieces (· == '/') text.toList).map String.ofList).filter (· ≠ "")
  slash := text.toList.getLast? == some '/'

def Path.isEmpty (p : Path) : Bool := !p.absolute && p.segments.isEmpty

/-- What is walked: a last slash asks for a directory, as a last dot does. -/
def Path.walked (p : Path) : List String := if p.slash then p.segments ++ ["."] else p.segments

/-- The standard library's view of a path, in which dots count only at the start. -/
def Path.components (p : Path) : List String :=
  match p.absolute, p.segments with
  | false, "." :: rest => "." :: rest.filter (· ≠ ".")
  | _, segments => segments.filter (· ≠ ".")

def Path.parent (p : Path) : Option Path :=
  if p.components = [] then none else some ⟨p.absolute,p.components.dropLast,false⟩

def Path.join (base p : Path) : Path :=
  if p.absolute || base.isEmpty then p
  else ⟨base.absolute,base.segments ++ p.segments,p.slash || p.segments.isEmpty⟩

/-- `starts_with` of a location on a path as it is written. -/
def Path.startsLoc (p : Path) (loc : Loc) : Bool :=
  if p.absolute then p.components.isPrefixOf loc else p.components.isEmpty

section Walk
variable (root : Node) (create : Bool)

/-- Follows the segments from a location. A link is left to `again`; where a last segment may
be created, it need not be there. -/
def walkWith (again : Loc → List String → Except IoError Loc) : Loc → List String → Except IoError Loc
  | loc, [] => .ok loc
  | loc, seg :: rest =>
    match root.find loc with
    | some (.dir children) =>
      if seg = "." then walkWith again loc rest
      else if seg = ".." then walkWith again loc.dropLast rest
      else
        match children.lookup seg with
        | none => if create && rest.isEmpty then .ok (loc ++ [seg]) else .error .notFound
        | some (.link target) => again (if (parse target).absolute then [] else loc) ((parse target).walked ++ rest)
        | some _ => walkWith again (loc ++ [seg]) rest
    | _ => .error .notADirectory

/-- The walk with a budget of links. -/
def walk : Nat → Loc → List String → Except IoError Loc
  | 0 => walkWith root create (fun _ _ => .error .tooManyLinks)
  | links+1 => walkWith root create (walk links)

def followed : Nat → Loc → List String → Except IoError Loc
  | 0 => fun _ _ => .error .tooManyLinks
  | links+1 => walk root create links

theorem walk_eq (links : Nat) : walk root create links = walkWith root create (followed root create links) := by
  cases links <;> rfl

/-- The walks that succeed, segment by segment. -/
inductive Leads : Nat → Loc → List String → Loc → Prop where
  | done (links : Nat) (loc : Loc) : Leads links loc [] loc
  | stay (links : Nat) (loc final : Loc) (rest : List String) (children : List (String × Node))
    (here : root.find loc = some (.dir children)) (onward : Leads links loc rest final) :
    Leads links loc ("." :: rest) final
  | up (links : Nat) (loc final : Loc) (rest : List String) (children : List (String × Node))
    (here : root.find loc = some (.dir children)) (onward : Leads links loc.dropLast rest final) :
    Leads links loc (".." :: rest) final
  | new (links : Nat) (loc : Loc) (seg : String) (children : List (String × Node))
    (here : root.find loc = some (.dir children)) (dot : seg ≠ ".") (dots : seg ≠ "..")
    (missing : children.lookup seg = none) (may : create = true) : Leads links loc [seg] (loc ++ [seg])
  | follow (links : Nat) (loc final : Loc) (seg : String) (rest : List String) (children : List (String × Node))
    (target : String) (here : root.find loc = some (.dir children)) (dot : seg ≠ ".") (dots : seg ≠ "..")
    (link : children.lookup seg = some (.link target))
    (onward : Leads links (if (parse target).absolute then [] else loc) ((parse target).walked ++ rest) final) :
    Leads (links + 1) loc (seg :: rest) final
  | enter (links : Nat) (loc final : Loc) (seg : String) (rest : List String) (children : List (String × Node))
    (node : Node) (here : root.find loc = some (.dir children)) (dot : seg ≠ ".") (dots : seg ≠ "..")
    (present : children.lookup seg = some node) (plain : ∀ target, node = .link target → False)
    (onward : Leads links (loc ++ [seg]) rest final) : Leads links loc (seg :: rest) final

theorem leads_of_walkWith (links : Nat) (loc final : Loc) (segs : List String)
    (shorter : ∀ fewer, links = fewer + 1 → ∀ loc segs, walk root create fewer loc segs = .ok final →
      Leads root create fewer loc segs final)
    (reached : walkWith root create (followed root create links) loc segs = .ok final) :
    Leads root create links loc segs final := by
  induction segs generalizing loc with
  | nil =>
    rw [← Except.ok.inj reached]
    exact .done links loc
  | cons seg rest ih =>
    unfold walkWith at reached
    split at reached
    · rename_i children here
      split at reached
      · rename_i dot
        rw [dot]
        exact .stay links loc final rest children here (ih loc reached)
      · rename_i dot
        split at reached
        · rename_i dots
          rw [dots]
          exact .up links loc final rest children here (ih loc.dropLast reached)
        · rename_i dots
          split at reached
          · rename_i missing
            split at reached
            · rename_i last
              obtain ⟨may,none⟩ := Bool.and_eq_true_iff.mp last
              rw [← Except.ok.inj reached,List.isEmpty_iff.mp none]
              exact .new links loc seg children here dot dots missing may
            · cases reached
          · rename_i target link
            cases links with
            | zero => cases reached
            | succ fewer =>
              exact .follow fewer loc final seg rest children target here dot dots link (shorter fewer rfl _ _ reached)
          · rename_i node plain present
            exact .enter links loc final seg rest children node here dot dots present plain (ih (loc ++ [seg]) reached)
    · cases reached

theorem leads_of_walk (links : Nat) (loc final : Loc) (segs : List String)
    (reached : walk root create links loc segs = .ok final) : Leads root create links loc segs final := by
  induction links generalizing loc segs with
  | zero =>
    apply leads_of_walkWith root create 0 loc final segs _ (by rw [← walk_eq]; exact reached)
    intro fewer impossible
    cases impossible
  | succ links ih =>
    apply leads_of_walkWith root create (links + 1) loc final segs _ (by rw [← walk_eq]; exact reached)
    intro fewer same other others walked
    obtain rfl := Nat.succ.inj same
    exact ih other others walked

theorem walk_of_leads (links : Nat) (loc final : Loc) (segs : List String)
    (leads : Leads root create links loc segs final) : walk root create links loc segs = .ok final := by
  induction leads with
  | done links loc =>
    rw [walk_eq]
    rfl
  | stay links loc final rest children here onward ih =>
    rw [walk_eq] at ih ⊢
    simp only [walkWith,here,if_pos]
    exact ih
  | up links loc final rest children here onward ih =>
    rw [walk_eq] at ih ⊢
    simp only [walkWith,here]
    exact ih
  | new links loc seg children here dot dots missing may =>
    rw [walk_eq]
    simp only [walkWith,here,if_neg dot,if_neg dots,missing,may]
    rfl
  | follow links loc final seg rest children target here dot dots link onward ih =>
    rw [walk_eq]
    simp only [walkWith,here,if_neg dot,if_neg dots,link]
    exact ih
  | enter links loc final seg rest children node here dot dots present plain onward ih =>
    rw [walk_eq] at ih ⊢
    simp only [walkWith,here,if_neg dot,if_neg dots,present]
    exact ih

/-- The second list is the first with some of its dots left out. -/
inductive Trimmed : List String → List String → Prop where
  | nil : Trimmed [] []
  | keep (seg : String) (xs ys : List String) (rest : Trimmed xs ys) : Trimmed (seg :: xs) (seg :: ys)
  | skip (seg : String) (xs ys : List String) (dot : seg = ".") (rest : Trimmed xs ys) : Trimmed (seg :: xs) ys

theorem trimmed_refl (xs : List String) : Trimmed xs xs := by
  induction xs with
  | nil => exact .nil
  | cons seg rest ih => exact .keep seg rest rest ih

theorem trimmed_append (first xs ys : List String) (trimmed : Trimmed xs ys) : Trimmed (first ++ xs) (first ++ ys) := by
  induction first with
  | nil => exact trimmed
  | cons seg rest ih => exact .keep seg _ _ ih

theorem leads_trimmed (links : Nat) (loc final : Loc) (xs ys : List String)
    (leads : Leads root create links loc xs final) (trimmed : Trimmed xs ys) :
    Leads root create links loc ys final := by
  induction leads generalizing ys with
  | done links loc =>
    cases trimmed
    exact .done links loc
  | stay links loc final rest children here onward ih =>
    cases trimmed with
    | keep _ _ kept more => exact .stay links loc final kept children here (ih kept more)
    | skip _ _ _ _ more => exact ih ys more
  | up links loc final rest children here onward ih =>
    cases trimmed with
    | keep _ _ kept more => exact .up links loc final kept children here (ih kept more)
    | skip _ _ _ dot => exact absurd dot (by decide)
  | new links loc seg children here dot dots missing may =>
    cases trimmed with
    | keep _ _ kept more =>
      cases more
      exact .new links loc seg children here dot dots missing may
    | skip _ _ _ same => exact absurd same dot
  | follow links loc final seg rest children target here dot dots link onward ih =>
    cases trimmed with
    | keep _ _ kept more =>
      exact .follow links loc final seg kept children target here dot dots link (ih _ (trimmed_append _ _ _ more))
    | skip _ _ _ same => exact absurd same dot
  | enter links loc final seg rest children node here dot dots present plain onward ih =>
    cases trimmed with
    | keep _ _ kept more =>
      exact .enter links loc final seg kept children node here dot dots present plain (ih kept more)
    | skip _ _ _ same => exact absurd same dot

theorem trimmed_filter (xs : List String) : Trimmed xs (xs.filter (· ≠ ".")) := by
  induction xs with
  | nil => exact .nil
  | cons seg rest ih =>
    by_cases dot : seg = "."
    · rw [List.filter_cons_of_neg (by simp [dot])]
      exact .skip seg _ _ dot ih
    · rw [List.filter_cons_of_pos (by simp [dot])]
      exact .keep seg _ _ ih

theorem trimmed_dot (xs ys : List String) (trimmed : Trimmed xs ys) : Trimmed (xs ++ ["."]) ys := by
  induction trimmed with
  | nil => exact .skip "." [] [] rfl .nil
  | keep seg xs ys more ih => exact .keep seg _ _ ih
  | skip seg xs ys dot more ih => exact .skip seg _ _ dot ih

theorem trimmed_walked (p : Path) (ys : List String) (trimmed : Trimmed p.segments ys) : Trimmed p.walked ys := by
  unfold Path.walked
  split
  · exact trimmed_dot _ _ trimmed
  · exact trimmed

theorem trimmed_components (p : Path) : Trimmed p.segments p.components := by
  unfold Path.components
  split
  · rename_i rest _ leading
    rw [leading]
    exact .keep "." _ _ (trimmed_filter rest)
  · exact trimmed_filter _

/-- Where the last segment is taken from: the place the others lead to. -/
def Splits (links : Nat) (loc : Loc) (segs : List String) (last : String) (final : Loc) : Prop :=
  ∃ fewer middle, Leads root false links loc segs middle ∧ Leads root create fewer middle [last] final

theorem splits_of_longer (links : Nat) (loc final : Loc) (segs rest : List String) (last : String)
    (whole : segs ++ [last] = rest) (onward : Leads root create links loc rest final)
    (longer : ∀ first others, first :: others ++ [last] = rest →
      Splits root create links loc (first :: others) last final) :
    Splits root create links loc segs last final := by
  cases segs with
  | nil =>
    rw [← whole] at onward
    exact ⟨links,loc,.done links loc,onward⟩
  | cons first others => exact longer first others whole

theorem splits_cons (links : Nat) (loc final : Loc) (first last : String) (others all : List String)
    (whole : first :: others ++ [last] = all) (leads : Leads root create links loc all final) :
    Splits root create links loc (first :: others) last final := by
  induction leads generalizing first others with
  | done links loc => cases whole
  | stay links loc final rest children here onward ih =>
    obtain ⟨rfl,same⟩ := List.cons.inj whole
    obtain ⟨fewer,middle,before,after⟩ := splits_of_longer root create links loc final others rest last same onward ih
    exact ⟨fewer,middle,.stay links loc middle others children here before,after⟩
  | up links loc final rest children here onward ih =>
    obtain ⟨rfl,same⟩ := List.cons.inj whole
    obtain ⟨fewer,middle,before,after⟩ :=
      splits_of_longer root create links loc.dropLast final others rest last same onward ih
    exact ⟨fewer,middle,.up links loc middle others children here before,after⟩
  | new links loc seg children here dot dots missing may =>
    obtain ⟨_,same⟩ := List.cons.inj whole
    exact absurd same (List.append_ne_nil_of_right_ne_nil others (List.cons_ne_nil last []))
  | follow links loc final seg rest children target here dot dots link onward ih =>
    obtain ⟨rfl,same⟩ := List.cons.inj whole
    have joined : ((parse target).walked ++ others) ++ [last] = (parse target).walked ++ rest := by
      rw [List.append_assoc]
      exact congrArg _ same
    obtain ⟨fewer,middle,before,after⟩ := splits_of_longer root create links _ final _ _ last joined onward ih
    exact ⟨fewer,middle,.follow links loc middle first others children target here dot dots link before,after⟩
  | enter links loc final seg rest children node here dot dots present plain onward ih =>
    obtain ⟨rfl,same⟩ := List.cons.inj whole
    obtain ⟨fewer,middle,before,after⟩ :=
      splits_of_longer root create links (loc ++ [first]) final others rest last same onward ih
    exact ⟨fewer,middle,.enter links loc middle first others children node here dot dots present plain before,after⟩

theorem leads_snoc (links : Nat) (loc final : Loc) (segs : List String) (last : String)
    (leads : Leads root create links loc (segs ++ [last]) final) : Splits root create links loc segs last final := by
  apply splits_of_longer root create links loc final segs (segs ++ [last]) last rfl leads
  intro first others whole
  exact splits_cons root create links loc final first last others (segs ++ [last]) whole leads

/-- A last segment that is a plain name and no link names a child of where it is taken. -/
theorem leads_plain (links : Nat) (loc final : Loc) (last : String) (dot : last ≠ ".") (dots : last ≠ "..")
    (plain : isLink root (loc ++ [last]) = false) (leads : Leads root create links loc [last] final) :
    final = loc ++ [last] := by
  generalize whole : [last] = segs at leads
  cases leads with
  | done => cases whole
  | stay => exact absurd (List.cons.inj whole).1 dot
  | up => exact absurd (List.cons.inj whole).1 dots
  | new _ _ seg =>
    obtain ⟨rfl,_⟩ := List.cons.inj whole
    rfl
  | follow fewer _ _ seg rest children target here _ _ link =>
    rw [isLink,find_snoc,here,(List.cons.inj whole).1] at plain
    simp only [Option.bind_some,Node.child,link] at plain
    cases plain
  | enter _ _ _ seg rest children node here _ _ present _ onward =>
    obtain ⟨rfl,rfl⟩ := List.cons.inj whole
    cases onward
    rfl

/-- A name that is missing where the segments lead can be added to them. -/
theorem leads_missing (links : Nat) (loc final : Loc) (segs : List String) (last : String)
    (children : List (String × Node)) (leads : Leads root false links loc segs final)
    (here : root.find final = some (.dir children)) (dot : last ≠ ".") (dots : last ≠ "..")
    (missing : children.lookup last = none) : Leads root true links loc (segs ++ [last]) (final ++ [last]) := by
  induction leads with
  | done links loc => exact .new links loc last children here dot dots missing rfl
  | stay links loc final rest kin there onward ih => exact .stay links loc _ _ kin there (ih here)
  | up links loc final rest kin there onward ih => exact .up links loc _ _ kin there (ih here)
  | new _ _ _ _ _ _ _ _ may => cases may
  | follow links loc final seg rest kin target there plain plains link onward ih =>
    have more := ih here
    rw [List.append_assoc] at more
    exact .follow links loc _ seg _ kin target there plain plains link more
  | enter links loc final seg rest kin node there plain plains present stays onward ih =>
    exact .enter links loc _ seg _ kin node there plain plains present stays (ih here)

/-- A location where a node is or can be: the root or a name in a directory. -/
def Placed (loc : Loc) : Prop :=
  loc = [] ∨ ∃ parent name children, loc = parent ++ [name] ∧ root.find parent = some (.dir children)

theorem child_dir (node next : Node) (name : String) (child : node.child name = some next) :
    ∃ children, node = .dir children := by
  cases node with
  | file content => cases child
  | link target => cases child
  | dir children => exact ⟨children,rfl⟩

theorem placed_of_find (loc : Loc) (node : Node) (found : root.find loc = some node) : Placed root loc := by
  rcases List.eq_nil_or_concat loc with none | ⟨parent,name,rfl⟩
  · exact .inl none
  · rw [List.concat_eq_append,find_snoc] at found
    obtain ⟨above,there,child⟩ := Option.bind_eq_some_iff.mp found
    obtain ⟨children,rfl⟩ := child_dir above node name child
    exact .inr ⟨parent,name,children,List.concat_eq_append,there⟩

theorem placed_dropLast (loc : Loc) (node : Node) (found : root.find loc = some node) : Placed root loc.dropLast := by
  rcases placed_of_find root loc node found with rfl | ⟨parent,name,children,rfl,there⟩
  · exact .inl rfl
  · rw [List.dropLast_concat]
    exact placed_of_find root parent _ there

theorem leads_placed (links : Nat) (loc final : Loc) (segs : List String)
    (leads : Leads root create links loc segs final) (start : segs = [] → Placed root loc) : Placed root final := by
  induction leads with
  | done links loc => exact start rfl
  | stay links loc final rest children here onward ih => exact ih (fun _ => placed_of_find root loc _ here)
  | up links loc final rest children here onward ih => exact ih (fun _ => placed_dropLast root loc _ here)
  | new links loc seg children here => exact .inr ⟨loc,seg,children,rfl,here⟩
  | follow links loc final seg rest children target here dot dots link onward ih =>
    apply ih
    intro _
    split
    · exact .inl rfl
    · exact placed_of_find root loc _ here
  | enter links loc final seg rest children node here dot dots present plain onward ih =>
    exact ih (fun _ => .inr ⟨loc,seg,children,rfl,here⟩)

end Walk

/-! Changing one node of a tree. -/

def Node.put (new : Node) : Loc → Node → Node
  | [], _ => new
  | name :: rest, .dir children =>
    .dir ((name,put new rest ((children.lookup name).getD (.dir []))) :: children.filter (·.1 ≠ name))
  | _ :: _, node => node

/-- What a location holds, without what lies below it. -/
inductive Label where
  | file (content : List UInt8)
  | link (target : String)
  | dir
  deriving DecidableEq, Repr

def Node.label : Node → Label
  | .file content => .file content
  | .link target => .link target
  | .dir _ => .dir

def labelAt (root : Node) (loc : Loc) : Option Label := (root.find loc).map Node.label

def Leaf (node : Node) : Prop := ∀ name, node.child name = none

theorem find_leaf (node : Node) (leaf : Leaf node) (loc : Loc) (below : loc ≠ []) : node.find loc = none := by
  cases loc with
  | nil => exact absurd rfl below
  | cons name rest => rw [Node.find,leaf name]

theorem lookup_filter_ne (children : List (String × Node)) (name other : String) (apart : other ≠ name) :
    (children.filter (·.1 ≠ name)).lookup other = children.lookup other := by
  induction children with
  | nil => rfl
  | cons entry rest ih =>
    by_cases same : entry.1 = name
    · have skip : (other == entry.1) = false := by
        rw [same]
        exact beq_false_of_ne apart
      rw [List.filter_cons_of_neg (by simp [same]),List.lookup_cons,skip,ih]
    · rw [List.filter_cons_of_pos (by simp [same]),List.lookup_cons,List.lookup_cons,ih]

theorem child_put (new : Node) (children : List (String × Node)) (name other : String) (rest : Loc) :
    (Node.put new (name :: rest) (.dir children)).child other =
      if other = name then some (Node.put new rest ((children.lookup name).getD (.dir [])))
      else children.lookup other := by
  simp only [Node.put,Node.child,List.lookup_cons]
  by_cases same : other = name
  · rw [if_pos same,same,beq_self_eq_true]
  · rw [if_neg same,beq_false_of_ne same,lookup_filter_ne children name other same]

theorem placed_cons (root : Node) (name : String) (rest : Loc) (placed : Placed root (name :: rest)) :
    ∃ children, root = .dir children ∧
      (rest = [] ∨ ∃ next, children.lookup name = some next ∧ Placed next rest) := by
  rcases placed with none | ⟨parent,last,kin,same,there⟩
  · cases none
  · cases parent with
    | nil =>
      obtain ⟨rfl,rfl⟩ := List.cons.inj same
      exact ⟨kin,Option.some.inj there,.inl rfl⟩
    | cons first more =>
      obtain ⟨rfl,rfl⟩ := List.cons.inj same
      rw [Node.find] at there
      split at there
      · cases there
      · rename_i next child
        obtain ⟨children,rfl⟩ := child_dir root next name child
        exact ⟨children,rfl,.inr ⟨next,child,.inr ⟨more,last,kin,rfl,there⟩⟩⟩

/-- A leaf put in the place of a leaf, or of nothing, changes no other location. -/
theorem labelAt_put (root new : Node) (loc other : Loc) (placed : Placed root loc) (leaf : Leaf new)
    (old : ∀ node, root.find loc = some node → Leaf node) (apart : other ≠ loc) :
    labelAt (Node.put new loc root) other = labelAt root other := by
  induction loc generalizing root other with
  | nil =>
    rw [labelAt,labelAt,Node.put,find_leaf new leaf other apart,find_leaf root (old root rfl) other apart]
  | cons name rest ih =>
    obtain ⟨children,rfl,below⟩ := placed_cons root name rest placed
    cases other with
    | nil => rfl
    | cons first more =>
      rw [labelAt,labelAt,Node.find,Node.find,child_put,Node.child]
      by_cases same : first = name
      · have elsewhere : more ≠ rest := fun equal => apart (by rw [same,equal])
        rw [if_pos same,same]
        cases child : children.lookup name with
        | none =>
          rcases below with rfl | ⟨next,present,_⟩
          · change ((Node.put new [] _).find more).map Node.label = none
            rw [Node.put,find_leaf new leaf more elsewhere]
            rfl
          · rw [child] at present
            cases present
        | some next =>
          apply ih next more _ _ elsewhere
          · rcases below with rfl | ⟨there,present,further⟩
            · exact .inl rfl
            · rw [child] at present
              rw [Option.some.inj present]
              exact further
          · intro node found
            apply old node
            rw [Node.find,Node.child,child]
            exact found
      · rw [if_neg same]

end ClawKernel.Lib.FileTree
