import Mathlib.Data.Nat.Find
import ClawKernel.Lib.Search

/-! Skill manifests: how the text of a skill is split into its frontmatter and its body, and
what a manifest is read from.
-/
namespace ClawKernel.Skills.Manifest
open Lib.Search

abbrev Text := List Char

/-- What is read of the frontmatter; its other fields are kept and read by nothing. -/
structure RawFrontmatter where
  name : String
  description : String
  version : Option String
  tags : Option (List String)

structure SkillManifest (Path Version : Type) where
  name : String
  description : String
  version : Version
  tags : List String
  path : Path

/-- The errors below carry the texts of the libraries they come from. -/
inductive SkillError (Path : Type) where
  | io (path : Path) (source : String)
  | missingSkillFile (path : Path)
  | frontmatterParse (path : Path) (source : String)
  | invalidVersion (version : String) (path : Path) (source : String)
  | notFound (name : String)

def openings : List Text := [['-','-','-','\n'],['-','-','-','\r','\n']]

def closingLf : Text := ['\n','-','-','-','\n']

def closingCrlf : Text := ['\n','-','-','-','\r','\n']

def dashes : Text := ['\n','-','-','-']

/-- The frontmatter and the body of what follows the first line. -/
def splitAtClosing (rest : Text) : Option (Text × Text) :=
  match (find closingLf rest).or (find closingCrlf rest) with
  | some end_idx =>
    let after_end := end_idx + if closingCrlf <+: rest.drop end_idx then 6 else 5
    some (rest.take end_idx,rest.drop after_end)
  | none => (rfind dashes rest).map (fun end_idx => (rest.take end_idx,[]))

def stripOpening (content : Text) : Option Text :=
  (openings.find? (fun opening => opening <+: content)).map (fun opening => content.drop opening.length)

def parseFrontmatter {Path : Type} (content : Text) (path : Path) : Except (SkillError Path) (Text × Text) :=
  match (stripOpening content).bind splitAtClosing with
  | some parts => .ok parts
  | none => .error (.missingSkillFile path)

/-- The files, and the libraries that read the frontmatter and the version. -/
structure Host (Path Version : Type) where
  join : Path → String → Path
  present : Path → Bool
  isDir : Path → Bool
  readToString : Path → Except String Text
  readDir : Path → Except String (List (Except String Path))
  canonicalize : Path → Option Path
  fromYaml : Text → Except String RawFrontmatter
  parseVersion : String → Except String Version

def fromDir {Path Version : Type} (host : Host Path Version) (path : Path) :
    Except (SkillError Path) (SkillManifest Path Version) := do
  let skillFile := host.join path "SKILL.md"
  if !host.present skillFile then throw (.missingSkillFile path)
  let content ← (host.readToString skillFile).mapError (.io skillFile)
  let (frontmatter,_) ← parseFrontmatter content skillFile
  let raw ← (host.fromYaml frontmatter).mapError (.frontmatterParse skillFile)
  let versionStr := raw.version.getD "0.1.0"
  let version ← (host.parseVersion versionStr).mapError (.invalidVersion versionStr skillFile)
  return ⟨raw.name,raw.description,version,raw.tags.getD [],(host.canonicalize path).getD path⟩

/-- What may follow the dashes of a line that has nothing else, and the text after the line. -/
def EndsLine (tail body : Text) : Prop :=
  tail = '\n' :: body ∨ tail = '\r' :: '\n' :: body ∨ tail = [] ∧ body = []

/-- At this place a line begins that is three dashes, and after it the body. -/
def ClosingLine (rest : Text) (place : Nat) (body : Text) : Prop :=
  (∀ before, place = before + 1 → rest[before]? = some '\n') ∧
    ∃ tail, rest.drop place = ['-','-','-'] ++ tail ∧ EndsLine tail body

/-- The text is split at the first such line, and only if there is one. The line feed before it
belongs to no part. -/
def SplitsAtClosing (rest : Text) (parts : Option (Text × Text)) : Prop :=
  (∀ place body, ClosingLine rest place body → (∀ earlier < place, ∀ other, ¬ClosingLine rest earlier other) →
    parts = some (rest.take (place - 1),body)) ∧
  ((∀ place body, ¬ClosingLine rest place body) → parts = none)

/-- The first line of the text is three dashes, and this comes after it. -/
def FirstLine (content rest : Text) : Prop :=
  content = ['-','-','-','\n'] ++ rest ∨ content = ['-','-','-','\r','\n'] ++ rest ∨
    content = ['-','-','-'] ∧ rest = []

def parsed {ε : Type} : Except ε (Text × Text) → Option (Text × Text)
  | .ok parts => some parts
  | .error _ => none

/-- The frontmatter is not empty, a line of dashes that ends with CRLF is not before the first one that
ends with LF, and if there are only others, the last line is dashes or none begins with them. -/
structure Regular (rest : Text) : Prop where
  nonempty : ∀ body, ¬ClosingLine rest 0 body
  unmixed : ∀ i, find closingLf rest = some i → ∀ j, Occurs closingCrlf rest j → i < j
  unruled : find closingLf rest = none → find closingCrlf rest = none → find dashes rest ≠ none → dashes <:+ rest

theorem occurs_closingLf (rest : Text) (i : Nat) :
    Occurs closingLf rest i ↔ ∃ body, rest.drop i = dashes ++ '\n' :: body :=
  occurs_iff_drop closingLf (List.cons_ne_nil _ _) rest i

theorem occurs_closingCrlf (rest : Text) (i : Nat) :
    Occurs closingCrlf rest i ↔ ∃ body, rest.drop i = dashes ++ '\r' :: '\n' :: body :=
  occurs_iff_drop closingCrlf (List.cons_ne_nil _ _) rest i

/-- A line feed, and the line of dashes it begins. -/
theorem drop_line (rest tail : Text) (i : Nat) :
    rest.drop i = dashes ++ tail ↔ rest[i]? = some '\n' ∧ rest.drop (i + 1) = ['-','-','-'] ++ tail := by
  constructor
  · intro split
    refine ⟨by rw [← List.head?_drop,split]; rfl,?_⟩
    rw [← List.tail_drop,split]
    rfl
  · rintro ⟨feed,later⟩
    obtain ⟨bound,same⟩ := List.getElem?_eq_some_iff.mp feed
    rw [List.drop_eq_getElem_cons bound,same,later]
    rfl

/-- The closing lines but one at the very beginning: after a line feed at `i`. -/
theorem closingLine_succ (rest body : Text) (i : Nat) :
    ClosingLine rest (i + 1) body ↔ ∃ tail, rest.drop i = dashes ++ tail ∧ EndsLine tail body := by
  constructor
  · rintro ⟨feed,tail,split,ends⟩
    exact ⟨tail,(drop_line rest tail i).mpr ⟨feed i rfl,split⟩,ends⟩
  · rintro ⟨tail,split,ends⟩
    obtain ⟨feed,later⟩ := (drop_line rest tail i).mp split
    refine ⟨fun before same => ?_,tail,later,ends⟩
    rw [← Nat.succ.inj same]
    exact feed

theorem closingLine_of_lf (rest body : Text) (i : Nat) (split : rest.drop i = dashes ++ '\n' :: body) :
    ClosingLine rest (i + 1) body :=
  (closingLine_succ rest body i).mpr ⟨_,split,.inl rfl⟩

theorem closingLine_of_crlf (rest body : Text) (i : Nat) (split : rest.drop i = dashes ++ '\r' :: '\n' :: body) :
    ClosingLine rest (i + 1) body :=
  (closingLine_succ rest body i).mpr ⟨_,split,.inr (.inl rfl)⟩

/-- A closing line ends in one of three ways. -/
theorem closingLine_cases (rest body : Text) (i : Nat) (closing : ClosingLine rest (i + 1) body) :
    Occurs closingLf rest i ∨ Occurs closingCrlf rest i ∨ rest.drop i = dashes ∧ body = [] := by
  obtain ⟨tail,split,same | same | ⟨same,bare⟩⟩ := (closingLine_succ rest body i).mp closing
  · subst same
    exact .inl ((occurs_closingLf rest i).mpr ⟨body,split⟩)
  · subst same
    exact .inr (.inl ((occurs_closingCrlf rest i).mpr ⟨body,split⟩))
  · subst same
    exact .inr (.inr ⟨split,bare⟩)

theorem splitAtClosing_cases (rest : Text) :
    (∃ i, find closingLf rest = some i ∧ splitAtClosing rest = some (rest.take i,rest.drop (i + 5))) ∨
    (∃ i, find closingLf rest = none ∧ find closingCrlf rest = some i ∧
      splitAtClosing rest = some (rest.take i,rest.drop (i + 6))) ∨
    find closingLf rest = none ∧ find closingCrlf rest = none ∧
      splitAtClosing rest = (rfind dashes rest).map (fun i => (rest.take i,[])) := by
  unfold splitAtClosing
  rcases find_cases closingLf rest with ⟨i,found,occurs,_⟩ | ⟨absent,_⟩
  · refine .inl ⟨i,found,?_⟩
    obtain ⟨body,split⟩ := (occurs_closingLf rest i).mp occurs
    have other : ¬closingCrlf <+: rest.drop i := by
      rw [split]
      simp [closingCrlf,dashes]
    rw [found,Option.some_or]
    dsimp only
    rw [if_neg other]
  rcases find_cases closingCrlf rest with ⟨i,found,occurs,_⟩ | ⟨missing,_⟩
  · refine .inr (.inl ⟨i,absent,found,?_⟩)
    rw [absent,found,Option.none_or]
    dsimp only
    rw [if_pos occurs.2]
  · exact .inr (.inr ⟨absent,missing,by rw [absent,missing]; rfl⟩)

theorem closingLine_body (rest first second : Text) (place : Nat) (one : ClosingLine rest place first)
    (other : ClosingLine rest place second) : first = second := by
  obtain ⟨_,tail,split,ends⟩ := one
  obtain ⟨_,tail',split',ends'⟩ := other
  obtain rfl := List.append_cancel_left (split.symm.trans split')
  rcases ends with same | same | ⟨same,bare⟩ <;> rcases ends' with same' | same' | ⟨same',bare'⟩ <;> simp_all

theorem drop_past (rest tail : Text) (i count : Nat) (taken : Text) (split : rest.drop i = taken ++ tail)
    (size : taken.length = count) : rest.drop (i + count) = tail := by
  rw [← List.drop_drop,split,← size,List.drop_left]

/-- Before the end of the text there is more than a last line of dashes. -/
theorem not_last (rest after : Text) (p i : Nat) (before : p ≤ i) (last : rest.drop p = dashes)
    (c : Char) (split : rest.drop i = dashes ++ c :: after) : False := by
  have shifted : rest.drop i = dashes.drop (i - p) := by
    rw [← last,List.drop_drop,Nat.add_sub_cancel' before]
  rw [shifted] at split
  have size := congrArg List.length split
  rw [List.length_drop,List.length_append,List.length_cons] at size
  omega

theorem occurs_dashes (rest tail : Text) (i : Nat) (split : rest.drop i = dashes ++ tail) : Occurs dashes rest i :=
  (occurs_iff_drop dashes (List.cons_ne_nil _ _) rest i).mpr ⟨tail,split⟩

/-- A closing line at `i + 1` that no other comes before gives the parts. -/
theorem splits_of_first (rest body : Text) (i : Nat) (closing : ClosingLine rest (i + 1) body)
    (bare : ∀ body, ¬ClosingLine rest 0 body) (first : ∀ p body, ClosingLine rest (p + 1) body → i ≤ p) :
    SplitsAtClosing rest (some (rest.take i,body)) := by
  refine ⟨fun place other here earliest => ?_,fun absent => absurd closing (absent _ _)⟩
  cases place with
  | zero => exact absurd here (bare other)
  | succ p =>
    have least := first p other here
    have same : p = i := by
      by_contra different
      exact earliest (i + 1) (by omega) body closing
    subst same
    rw [closingLine_body rest other body (p + 1) here closing]
    rfl

/-- No closing line has anything after it: the dashes that end the text are taken for one. -/
theorem splits_of_last (rest : Text) (regular : Regular rest) (absent : find closingLf rest = none)
    (missing : find closingCrlf rest = none) :
    SplitsAtClosing rest ((rfind dashes rest).map (fun i => (rest.take i,[]))) := by
  obtain ⟨nonempty,-,unruled⟩ := regular
  -- With neither line end to find, a closing line can only be the last.
  have only (p : Nat) (other : Text) (here : ClosingLine rest (p + 1) other) : rest.drop p = dashes := by
    rcases closingLine_cases rest other p here with lf | crlf | ⟨last,_⟩
    · exact absurd lf (absent_of_find closingLf rest absent p)
    · exact absurd crlf (absent_of_find closingCrlf rest missing p)
    · exact last
  rcases rfind_cases dashes rest with ⟨j,found,occurs,last⟩ | ⟨none_found,nowhere⟩
  · have some_found : find dashes rest ≠ none := fun none_found => absent_of_find dashes rest none_found j occurs
    obtain ⟨before,whole⟩ := unruled absent missing some_found
    have place : rest.drop before.length = dashes := by rw [← whole,List.drop_left]
    have same : before.length = j := by
      have bound := occurs_bound dashes rest j occurs
      have size := congrArg List.length whole
      rw [List.length_append] at size
      have least := Nat.le_of_not_lt (fun below => last before.length below (occurs_dashes rest [] _ (by rw [place]; rfl)))
      omega
    rw [found,Option.map_some,← same]
    refine splits_of_first rest [] before.length ?_ nonempty (fun p other here => ?_)
    · exact (closingLine_succ rest [] _).mpr ⟨[],by rw [place]; rfl,.inr (.inr ⟨rfl,rfl⟩)⟩
    · have drops := congrArg List.length ((only p other here).trans place.symm)
      rw [List.length_drop,List.length_drop] at drops
      have size := congrArg List.length place
      rw [List.length_drop] at size
      have four : dashes.length = 4 := rfl
      omega
  · rw [none_found]
    refine ⟨fun place other here _ => ?_,fun _ => rfl⟩
    cases place with
    | zero => exact absurd here (nonempty other)
    | succ p => exact absurd (occurs_dashes rest [] p (by rw [only p other here]; rfl)) (nowhere p)

theorem splits_of_regular (rest : Text) (regular : Regular rest) : SplitsAtClosing rest (splitAtClosing rest) := by
  have nonempty := regular.1
  have unmixed := regular.2
  rcases splitAtClosing_cases rest with ⟨i,found,result⟩ | ⟨i,absent,found,result⟩ | ⟨absent,missing,result⟩
  · obtain ⟨occurs,first⟩ := first_of_find closingLf rest i found
    obtain ⟨body,split⟩ := (occurs_closingLf rest i).mp occurs
    have after : rest.drop (i + 5) = body := drop_past rest body i 5 (dashes ++ ['\n']) (by rw [split]; simp) rfl
    rw [result,after]
    refine splits_of_first rest body i (closingLine_of_lf rest body i split) nonempty (fun p other here => ?_)
    rcases closingLine_cases rest other p here with lf | crlf | ⟨last,_⟩
    · exact first p lf
    · exact Nat.le_of_lt (unmixed i found p crlf)
    · exact Nat.le_of_not_lt (fun below => not_last rest body p i (Nat.le_of_lt below) last '\n' split)
  · obtain ⟨occurs,first⟩ := first_of_find closingCrlf rest i found
    obtain ⟨body,split⟩ := (occurs_closingCrlf rest i).mp occurs
    have after : rest.drop (i + 6) = body :=
      drop_past rest body i 6 (dashes ++ ['\r','\n']) (by rw [split]; simp) rfl
    rw [result,after]
    refine splits_of_first rest body i (closingLine_of_crlf rest body i split) nonempty (fun p other here => ?_)
    rcases closingLine_cases rest other p here with lf | crlf | ⟨last,_⟩
    · exact absurd lf (absent_of_find closingLf rest absent p)
    · exact first p crlf
    · exact Nat.le_of_not_lt (fun below => not_last rest _ p i (Nat.le_of_lt below) last '\r' split)
  · rw [result]
    exact splits_of_last rest regular absent missing

theorem exists_first (holds : Nat → Prop) (n : Nat) (there : holds n) :
    ∃ first ≤ n, holds first ∧ ∀ earlier < first, ¬holds earlier := by
  classical
  have found : ∃ n, holds n := ⟨n,there⟩
  exact ⟨Nat.find found,Nat.find_min' found there,Nat.find_spec found,fun earlier below => Nat.find_min found below⟩

/-- The text is split where the closing line at `place` is, or at an earlier one. -/
theorem split_before (rest body : Text) (parts : Option (Text × Text)) (place : Nat) (closing : ClosingLine rest place body)
    (splits : SplitsAtClosing rest parts) : ∃ first ≤ place, ∃ body, parts = some (rest.take (first - 1),body) := by
  obtain ⟨first,bound,⟨other,here⟩,earliest⟩ := exists_first (fun p => ∃ b, ClosingLine rest p b) place ⟨body,closing⟩
  exact ⟨first,bound,other,splits.1 first other here (fun earlier below b closed => earliest earlier below ⟨b,closed⟩)⟩

theorem take_length (rest : Text) (i count : Nat) (occurs : i ≤ rest.length) (same : rest.take i = rest.take count)
    (below : count ≤ i) : count = i := by
  have size := congrArg List.length same
  rw [List.length_take,List.length_take] at size
  omega

theorem begins_with_dashes (rest body : Text) (closing : ClosingLine rest 0 body) (i : Nat)
    (feed : rest[i]? = some '\n') : i ≠ 0 := by
  rintro rfl
  obtain ⟨_,tail,split,_⟩ := closing
  rw [List.drop_zero] at split
  rw [split] at feed
  cases feed

theorem feed_of_dashes (rest : Text) (i : Nat) (occurs : Occurs dashes rest i) : rest[i]? = some '\n' := by
  obtain ⟨_,tail,split⟩ := occurs
  exact ((drop_line rest tail i).mp split.symm).1

/-- Whatever is given, what comes before it is followed by a line of dashes. -/
theorem split_place (rest front body : Text) (given : splitAtClosing rest = some (front,body)) :
    ∃ i, Occurs dashes rest i ∧ front = rest.take i := by
  rcases splitAtClosing_cases rest with ⟨i,found,result⟩ | ⟨i,_,found,result⟩ | ⟨_,_,result⟩
  · obtain ⟨after,split⟩ := (occurs_closingLf rest i).mp (first_of_find closingLf rest i found).1
    rw [result] at given
    cases given
    exact ⟨i,occurs_dashes rest _ i split,rfl⟩
  · obtain ⟨after,split⟩ := (occurs_closingCrlf rest i).mp (first_of_find closingCrlf rest i found).1
    rw [result] at given
    cases given
    exact ⟨i,occurs_dashes rest _ i split,rfl⟩
  · rw [result] at given
    rcases rfind_cases dashes rest with ⟨i,found,occurs,_⟩ | ⟨missing,_⟩
    · rw [found] at given
      cases given
      exact ⟨i,occurs,rfl⟩
    · rw [missing] at given
      cases given

theorem regular_of_splits (rest : Text) (splits : SplitsAtClosing rest (splitAtClosing rest)) : Regular rest := by
  have nonempty (body : Text) : ¬ClosingLine rest 0 body := by
    intro closing
    have given := splits.1 0 body closing (fun earlier below => absurd below (Nat.not_lt_zero earlier))
    obtain ⟨i,occurs,same⟩ := split_place rest _ body given
    have apart := begins_with_dashes rest body closing i (feed_of_dashes rest i occurs)
    exact apart (take_length rest i 0 occurs.1 same.symm (Nat.zero_le i)).symm
  refine ⟨nonempty,fun i found j crlf => ?_,fun absent missing some_found => ?_⟩
  · obtain ⟨lf,first⟩ := first_of_find closingLf rest i found
    obtain ⟨body,split⟩ := (occurs_closingCrlf rest j).mp crlf
    by_contra late
    obtain ⟨place,bound,other,given⟩ := split_before rest body _ (j + 1) (closingLine_of_crlf rest body j split) splits
    rcases splitAtClosing_cases rest with ⟨k,same,result⟩ | ⟨_,none_found,_⟩ | ⟨none_found,_⟩
    · rw [found,Option.some.injEq] at same
      subst same
      rw [given,Option.some.injEq,Prod.mk.injEq] at result
      have size := take_length rest i (place - 1) lf.1 result.1.symm (by omega)
      have together : i = j := by omega
      subst together
      obtain ⟨after,other_split⟩ := (occurs_closingLf rest i).mp lf
      have clash := List.append_cancel_left (split.symm.trans other_split)
      cases clash
    · rw [found] at none_found
      cases none_found
    · rw [found] at none_found
      cases none_found
  · have closes : ∃ place body, ClosingLine rest place body := by
      by_contra nowhere
      have nothing := splits.2 (fun place body here => nowhere ⟨place,body,here⟩)
      rcases splitAtClosing_cases rest with ⟨i,found,_⟩ | ⟨i,_,found,_⟩ | ⟨_,_,result⟩
      · rw [absent] at found
        cases found
      · rw [missing] at found
        cases found
      · rw [result,Option.map_eq_none_iff] at nothing
        rcases rfind_cases dashes rest with ⟨i,found,_⟩ | ⟨_,never⟩
        · rw [nothing] at found
          cases found
        · rcases find_cases dashes rest with ⟨i,_,occurs,_⟩ | ⟨none_found,_⟩
          · exact never i occurs
          · exact some_found none_found
    obtain ⟨place,body,closing⟩ := closes
    cases place with
    | zero => exact absurd closing (nonempty body)
    | succ p =>
      rcases closingLine_cases rest body p closing with lf | crlf | ⟨last,_⟩
      · exact absurd lf (absent_of_find closingLf rest absent p)
      · exact absurd crlf (absent_of_find closingCrlf rest missing p)
      · rw [← last]
        exact List.drop_suffix p rest

theorem parsed_eq {Path : Type} (content rest : Text) (path : Path) (first : FirstLine content rest) :
    parsed (parseFrontmatter content path) = splitAtClosing rest := by
  have asParts : parsed (parseFrontmatter content path) = (stripOpening content).bind splitAtClosing := by
    unfold parseFrontmatter
    cases (stripOpening content).bind splitAtClosing with
    | some parts => rfl
    | none => rfl
  have stripped : stripOpening content = some rest ∨ stripOpening content = none ∧ rest = [] := by
    rcases first with same | same | ⟨same,bare⟩
    · exact .inl (by rw [same]; simp [stripOpening,openings])
    · exact .inl (by rw [same]; simp [stripOpening,openings])
    · exact .inr ⟨by rw [same]; rfl,bare⟩
  rcases stripped with some_rest | ⟨none_rest,bare⟩
  · rw [asParts,some_rest]
    rfl
  · rw [asParts,none_rest,bare]
    rfl

/-- The frontmatter is split at its closing line exactly for the texts that are regular. -/
theorem parseFrontmatter_iff {Path : Type} (content rest : Text) (path : Path) (first : FirstLine content rest) :
    SplitsAtClosing rest (parsed (parseFrontmatter content path)) ↔ Regular rest := by
  rw [parsed_eq content rest path first]
  exact ⟨regular_of_splits rest,splits_of_regular rest⟩

theorem parseFrontmatter_iff_short :
    FirstLine "---\nname: a\n---\nbody".toList "name: a\n---\nbody".toList ∧
      (SplitsAtClosing "name: a\n---\nbody".toList (parsed (parseFrontmatter "---\nname: a\n---\nbody".toList "SKILL.md")) ↔
        Regular "name: a\n---\nbody".toList) :=
  ⟨.inl rfl,parseFrontmatter_iff "---\nname: a\n---\nbody".toList "name: a\n---\nbody".toList "SKILL.md" (.inl rfl)⟩

/-- The frontmatter of a text with CRLF line ends is not closed where a rule in its body has LF. -/
theorem rule_in_body_closes :
    FirstLine "---\r\nname: a\r\n---\r\nbody\n---\nmore".toList "name: a\r\n---\r\nbody\n---\nmore".toList ∧
      ¬SplitsAtClosing "name: a\r\n---\r\nbody\n---\nmore".toList
        (parsed (parseFrontmatter "---\r\nname: a\r\n---\r\nbody\n---\nmore".toList "SKILL.md")) := by
  refine ⟨.inr (.inl rfl),fun splits => ?_⟩
  have closing : ClosingLine "name: a\r\n---\r\nbody\n---\nmore".toList (8 + 1) "body\n---\nmore".toList :=
    closingLine_of_crlf _ _ 8 rfl
  obtain ⟨place,bound,body,given⟩ := split_before _ _ _ _ closing splits
  have result : parsed (parseFrontmatter "---\r\nname: a\r\n---\r\nbody\n---\nmore".toList "SKILL.md") =
      some ("name: a\r\n---\r\nbody".toList,"more".toList) := by
    decide
  rw [result,Option.some.injEq,Prod.mk.injEq] at given
  have size := congrArg List.length given.1
  rw [List.length_take] at size
  have whole : "name: a\r\n---\r\nbody".toList.length = 18 := by decide
  omega

end ClawKernel.Skills.Manifest
