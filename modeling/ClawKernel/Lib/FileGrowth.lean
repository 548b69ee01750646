import ClawKernel.Lib.FileCalls

/-! File trees that grow: a directory and a link stay what they are, and a file stays a file. What resolves in
such a tree resolves to the same place in every later one.
-/
namespace ClawKernel.Lib.FileGrowth
open FileTree FileCalls

structure Grows (before after : Node) : Prop where
  dirs : ∀ loc, labelAt before loc = some .dir → labelAt after loc = some .dir
  links : ∀ loc target, labelAt before loc = some (.link target) → labelAt after loc = some (.link target)
  files : ∀ loc content, labelAt before loc = some (.file content) → ∃ later, labelAt after loc = some (.file later)

theorem grows_refl (root : Node) : Grows root root := ⟨fun _ same => same,fun _ _ same => same,fun _ content same => ⟨content,same⟩⟩

theorem grows_trans (first second third : Node) (one : Grows first second) (other : Grows second third) : Grows first third := by
  refine ⟨fun loc dir => other.dirs loc (one.dirs loc dir),fun loc target link => other.links loc target (one.links loc target link),
    fun loc content file => ?_⟩
  obtain ⟨later,there⟩ := one.files loc content file
  exact other.files loc later there

theorem label_dir (root : Node) (loc : Loc) : labelAt root loc = some .dir ↔ ∃ children, root.find loc = some (.dir children) := by
  unfold labelAt
  cases root.find loc with
  | none => simp
  | some node => cases node <;> simp [Node.label]

theorem label_link (root : Node) (loc : Loc) (target : String) :
    labelAt root loc = some (.link target) ↔ root.find loc = some (.link target) := by
  unfold labelAt
  cases root.find loc with
  | none => simp
  | some node => cases node <;> simp [Node.label]

theorem label_file (root : Node) (loc : Loc) (content : List UInt8) :
    labelAt root loc = some (.file content) ↔ root.find loc = some (.file content) := by
  unfold labelAt
  cases root.find loc with
  | none => simp
  | some node => cases node <;> simp [Node.label]

theorem lookup_find (root : Node) (loc : Loc) (children : List (String × Node)) (seg : String)
    (here : root.find loc = some (.dir children)) : children.lookup seg = root.find (loc ++ [seg]) := by
  rw [find_snoc,here]
  rfl

theorem leads_grows (before after : Node) (grows : Grows before after) (links : Nat) (loc final : Loc) (segs : List String)
    (leads : Leads before false links loc segs final) : Leads after false links loc segs final := by
  have dirs (loc : Loc) (children : List (String × Node)) (here : before.find loc = some (.dir children)) :
      ∃ children, after.find loc = some (.dir children) :=
    (label_dir after loc).mp (grows.dirs loc ((label_dir before loc).mpr ⟨children,here⟩))
  induction leads with
  | done links loc => exact .done links loc
  | stay links loc final rest children here onward ih =>
    obtain ⟨kin,there⟩ := dirs loc children here
    exact .stay links loc final rest kin there ih
  | up links loc final rest children here onward ih =>
    obtain ⟨kin,there⟩ := dirs loc children here
    exact .up links loc final rest kin there ih
  | new _ _ _ _ _ _ _ _ may => cases may
  | follow links loc final seg rest children target here dot dots link onward ih =>
    obtain ⟨kin,there⟩ := dirs loc children here
    have stays := (label_link after _ target).mp (grows.links (loc ++ [seg]) target
      ((label_link before _ target).mpr ((lookup_find before loc children seg here).symm.trans link)))
    exact .follow links loc final seg rest kin target there dot dots ((lookup_find after loc kin seg there).trans stays) ih
  | enter links loc final seg rest children node here dot dots present plain onward ih =>
    obtain ⟨kin,there⟩ := dirs loc children here
    have found := (lookup_find before loc children seg here).symm.trans present
    have same := lookup_find after loc kin seg there
    cases node with
    | link target => exact absurd rfl (plain target)
    | file content =>
      obtain ⟨later,stays⟩ := grows.files (loc ++ [seg]) content ((label_file before _ content).mpr found)
      exact .enter links loc final seg rest kin (.file later) there dot dots (same.trans ((label_file after _ later).mp stays))
        (fun _ link => nomatch link) ih
    | dir below =>
      obtain ⟨more,stays⟩ := dirs (loc ++ [seg]) below found
      exact .enter links loc final seg rest kin (.dir more) there dot dots (same.trans stays) (fun _ link => nomatch link) ih

/-- What resolves goes on resolving to the same place. -/
theorem canonicalize_grows (before after : Node) (grows : Grows before after) (cwd : Loc) (p : Path) (loc : Loc)
    (there : canonicalize before cwd p = .ok loc) : canonicalize after cwd p = .ok loc := by
  obtain ⟨full,leads⟩ := leads_of_resolve before cwd false p loc there
  rw [canonicalize,resolve,full]
  exact walk_of_leads after false _ _ _ _ (leads_grows before after grows _ _ _ _ leads)

theorem leads_create (root : Node) (create : Bool) (links : Nat) (loc final : Loc) (segs : List String)
    (leads : Leads root false links loc segs final) : Leads root create links loc segs final := by
  induction leads with
  | done links loc => exact .done links loc
  | stay links loc final rest children here onward ih => exact .stay links loc final rest children here ih
  | up links loc final rest children here onward ih => exact .up links loc final rest children here ih
  | new _ _ _ _ _ _ _ _ may => cases may
  | follow links loc final seg rest children target here dot dots link onward ih =>
    exact .follow links loc final seg rest children target here dot dots link ih
  | enter links loc final seg rest children node here dot dots present plain onward ih =>
    exact .enter links loc final seg rest children node here dot dots present plain ih

/-- A walk that may create its last segment finds it, or ends where nothing is. -/
theorem leads_made (root : Node) (links : Nat) (loc final : Loc) (segs : List String)
    (leads : Leads root true links loc segs final) : Leads root false links loc segs final ∨ root.find final = none := by
  induction leads with
  | done links loc => exact .inl (.done links loc)
  | stay links loc final rest children here onward ih => exact ih.imp (.stay links loc final rest children here) id
  | up links loc final rest children here onward ih => exact ih.imp (.up links loc final rest children here) id
  | new links loc seg children here dot dots missing may =>
    exact .inr ((lookup_find root loc children seg here).symm.trans missing)
  | follow links loc final seg rest children target here dot dots link onward ih =>
    exact ih.imp (.follow links loc final seg rest children target here dot dots link) id
  | enter links loc final seg rest children node here dot dots present plain onward ih =>
    exact ih.imp (.enter links loc final seg rest children node here dot dots present plain) id

/-- No walk ends at a link, unless it is over where it begins. -/
theorem leads_unlinked (root : Node) (create : Bool) (rooted : labelAt root [] = some .dir) (links : Nat) (loc final : Loc)
    (segs : List String) (leads : Leads root create links loc segs final)
    (begins : segs = [] → ∀ target, root.find loc ≠ some (.link target)) (target : String) : root.find final ≠ some (.link target) := by
  have upper (loc : Loc) (children : List (String × Node)) (here : root.find loc = some (.dir children)) (target : String) :
      root.find loc ≠ some (.link target) := by
    intro link
    rw [here] at link
    cases link
  obtain ⟨top,base⟩ := (label_dir root []).mp rooted
  induction leads with
  | done links loc => exact begins rfl target
  | stay links loc final rest children here onward ih => exact ih (fun _ => upper loc children here)
  | up links loc final rest children here onward ih =>
    apply ih
    intro _ target link
    rcases List.eq_nil_or_concat loc with rfl | ⟨parent,name,rfl⟩
    · exact upper [] top base target link
    · rw [List.concat_eq_append] at here link
      rw [List.dropLast_concat] at link
      rw [find_snoc,link] at here
      cases here
  | new links loc seg children here dot dots missing may =>
    rw [← lookup_find root loc children seg here,missing]
    simp
  | follow links loc final seg rest children aim here dot dots link onward ih =>
    apply ih
    intro _
    split
    · exact upper [] top base
    · exact upper loc children here
  | enter links loc final seg rest children node here dot dots present plain onward ih =>
    apply ih
    intro _ target link
    rw [← lookup_find root loc children seg here,present] at link
    exact plain target (Option.some_inj.mp link)

/-- A change of one location that was free or a file, and that leaves a file a file. -/
theorem grows_of_frame (before after : Node) (place : Loc) (frame : ∀ other, other ≠ place → labelAt after other = labelAt before other)
    (here : labelAt before place = none ∨ (∃ old, labelAt before place = some (.file old)) ∧
      ∃ later, labelAt after place = some (.file later)) : Grows before after := by
  refine ⟨fun loc dir => ?_,fun loc target link => ?_,fun loc content file => ?_⟩ <;> by_cases same : loc = place
  · subst same
    rcases here with none | ⟨⟨old,was⟩,_⟩
    · rw [none] at dir
      cases dir
    · rw [was] at dir
      cases dir
  · rw [frame loc same]
    exact dir
  · subst same
    rcases here with none | ⟨⟨old,was⟩,_⟩
    · rw [none] at link
      cases link
    · rw [was] at link
      cases link
  · rw [frame loc same]
    exact link
  · subst same
    rcases here with none | ⟨_,later⟩
    · rw [none] at file
      cases file
    · exact later
  · exact ⟨content,by rw [frame loc same]; exact file⟩

theorem find_put (root new : Node) (loc : Loc) (placed : Placed root loc) : (Node.put new loc root).find loc = some new := by
  induction loc generalizing root with
  | nil => rfl
  | cons name rest ih =>
    obtain ⟨children,rfl,below⟩ := placed_cons root name rest placed
    rw [Node.find,child_put,if_pos rfl]
    rcases below with rfl | ⟨next,present,further⟩
    · rfl
    · rw [present]
      exact ih next further

section Calls
variable (cwd : Loc) (root : Node)

theorem makeDir_grows (p : Path) (loc : Loc) (made : makeDir root cwd p = .ok loc) : Grows root (Node.put (.dir []) loc root) := by
  obtain ⟨_,missing⟩ := leads_of_makeDir root cwd p loc made
  apply grows_of_frame root _ loc (fun other apart => makeDir_frame root cwd p loc other made apart)
  left
  rw [labelAt,missing]
  rfl

theorem write_grows (rooted : labelAt root [] = some .dir) (p : Path) (walks : p.walked ≠ []) (content : List UInt8) (made : Node)
    (loc : Loc) (ok : write root cwd p content = .ok (made,loc)) : Grows root made := by
  apply grows_of_frame root made loc (fun other apart => write_frame root cwd p content made loc other ok apart)
  unfold write at ok
  split at ok
  · cases ok
  · rename_i place resolved
    split at ok
    · cases ok
    · rename_i file
      obtain ⟨rfl,rfl⟩ := Prod.mk.inj (Except.ok.inj ok)
      obtain ⟨_,leads⟩ := leads_of_resolve root cwd true p place resolved
      have unlinked := leads_unlinked root true rooted _ _ _ _ leads (fun none => absurd none walks)
      cases found : root.find place with
      | none =>
        left
        rw [labelAt,found]
        rfl
      | some node =>
        cases node with
        | dir children => exact absurd found (file children)
        | link target => exact absurd found (unlinked target)
        | file old =>
          refine .inr ⟨⟨old,(label_file root place old).mpr found⟩,content,(label_file _ place content).mpr ?_⟩
          exact find_put root _ place (start_placed root cwd true p place resolved)

/-- What `create_dir_all` makes, also where it fails further down. -/
def makeDirs (cwd : Loc) (root : Node) (p : Path) : Node × Except IoError Unit :=
  if p.isEmpty then (root,.ok ())
  else
    match makeDir root cwd p with
    | .ok loc => (Node.put (.dir []) loc root,.ok ())
    | .error .notFound =>
      match _above : p.parent with
      | none => (root,.error .uncategorized)
      | some parent =>
        match makeDirs cwd root parent with
        | (made,.error cause) => (made,.error cause)
        | (made,.ok ()) =>
          match makeDir made cwd p with
          | .ok loc => (Node.put (.dir []) loc made,.ok ())
          | .error cause => if (foundDir made cwd p).isSome then (made,.ok ()) else (made,.error cause)
    | .error cause => if (foundDir root cwd p).isSome then (root,.ok ()) else (root,.error cause)
termination_by p.components.length
decreasing_by exact components_parent p parent _above

theorem makeDirs_grows (p : Path) : Grows root (makeDirs cwd root p).1 := by
  fun_induction makeDirs cwd root p with
  | case1 => exact grows_refl root
  | case2 p full loc made => exact makeDir_grows cwd root p loc made
  | case3 => exact grows_refl root
  | case4 p full missing parent above made cause inner ih =>
    rw [inner] at ih
    exact ih
  | case5 p full missing parent above made inner loc last ih =>
    rw [inner] at ih
    exact grows_trans root made _ ih (makeDir_grows cwd made p loc last)
  | case6 p full missing parent above made inner cause last found ih =>
    rw [inner] at ih
    exact ih
  | case7 p full missing parent above made inner cause last found ih =>
    rw [inner] at ih
    exact ih
  | case8 => exact grows_refl root
  | case9 => exact grows_refl root

/-- Nothing is made of what is there, or of the empty path. -/
theorem makeDirs_there (p : Path) (there : p.isEmpty = true ∨ ∃ loc, canonicalize root cwd p = .ok loc) :
    (makeDirs cwd root p).1 = root := by
  unfold makeDirs
  by_cases empty : p.isEmpty = true
  · rw [if_pos empty]
  · obtain ⟨loc,there⟩ := there.resolve_left empty
    rw [if_neg empty,makeDir_of_canonicalize root cwd p loc there]
    simp only
    split_ifs <;> rfl

theorem parent_there (p parent : Path) (loc : Loc) (above : p.parent = some parent) (there : canonicalize root cwd p = .ok loc) :
    parent.isEmpty = true ∨ ∃ place, canonicalize root cwd parent = .ok place := by
  obtain ⟨_,leads⟩ := leads_of_resolve root cwd false p loc there
  have trimmed := leads_trimmed root false _ _ _ _ _ leads (trimmed_walked p _ (trimmed_components p))
  obtain ⟨some,rfl⟩ := parent_eq p parent above
  cases full : Path.isEmpty ⟨p.absolute,p.components.dropLast,false⟩ with
  | true => exact .inl rfl
  | false =>
    right
    rw [← List.dropLast_append_getLast some] at trimmed
    obtain ⟨fewer,middle,before,_⟩ := leads_snoc root false _ _ _ _ _ trimmed
    refine ⟨middle,?_⟩
    rw [canonicalize,resolve,full]
    exact walk_of_leads root false _ _ _ _ before

/-- What is there is written where it resolves to. -/
theorem write_there (p : Path) (content : List UInt8) (made : Node) (loc place : Loc) (there : canonicalize root cwd p = .ok place)
    (ok : write root cwd p content = .ok (made,loc)) : loc = place := by
  obtain ⟨full,leads⟩ := leads_of_resolve root cwd false p place there
  have again : resolve root cwd true p = .ok place := by
    rw [resolve,full]
    exact walk_of_leads root true _ _ _ _ (leads_create root true _ _ _ _ leads)
  rw [write,again] at ok
  simp only at ok
  split at ok
  · cases ok
  · exact (Prod.mk.inj (Except.ok.inj ok)).2.symm

end Calls
end ClawKernel.Lib.FileGrowth
