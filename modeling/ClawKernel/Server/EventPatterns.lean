import ClawKernel.Lib.Regex
import ClawKernel.Server.EventTrigger

/-! Patterns of event triggers: the regular expression that is built for a pattern, against
the pattern as a glob.
-/
namespace ClawKernel.Server.EventPatterns
open Lib.Regex
open Server.EventTrigger

/-- `build_event_pattern_regex`. The library refuses what it cannot read, and expressions that are too
large when they are compiled; `fits` are the others. -/
def buildEventPatternRegex (fits : String → Bool) (pattern : String) : Option Regex :=
  if fits (patternSource pattern) then parse (patternSource pattern).toList else none

/-- A glob, whose wildcards stand for characters of `allowed` alone. -/
inductive Covers (allowed : Char → Bool) : List Char → List Char → Prop where
  | done : Covers allowed [] []
  | sequence {pattern name : List Char} (taken : List Char) (inside : ∀ c ∈ taken, allowed c = true) :
      Covers allowed pattern name → Covers allowed ('*' :: pattern) (taken ++ name)
  | exactly {pattern name : List Char} (c : Char) (inside : allowed c = true) :
      Covers allowed pattern name → Covers allowed ('?' :: pattern) (c :: name)
  | itself {pattern name : List Char} (c : Char) (other : c ≠ '*' ∧ c ≠ '?') :
      Covers allowed pattern name → Covers allowed (c :: pattern) (c :: name)

/-- `*` is any sequence of characters, `?` one character and any other character itself. -/
def Glob (pattern name : String) : Prop := Covers (fun _ => true) pattern.toList name.toList

/-- A pattern can be built, and what is built matches as the glob does. -/
def MatchesAsGlob (fits : String → Bool) (pattern name : String) : Prop :=
  ∃ regex, buildEventPatternRegex fits pattern = some regex ∧ (isMatch regex name.toList = true ↔ Glob pattern name)

def piece (c : Char) : List Char :=
  if c = '*' then ['.','*'] else if c = '?' then ['.'] else if c ∈ regexMetacharacters then ['\\',c] else [c]

/-- What a character of a pattern becomes. -/
def itemOf (c : Char) : Regex :=
  if c = '*' then .star (.one dot) else if c = '?' then .one dot else literal c

theorem patternSource_toList (pattern : String) :
    (patternSource pattern).toList = '^' :: pattern.toList.flatMap piece ++ ['$'] :=
  String.toList_ofList

theorem escaped_known (c : Char) (escaped : c ∈ regexMetacharacters) : c ∈ metacharacters :=
  List.all_eq_true.mp (by decide : regexMetacharacters.all (· ∈ metacharacters) = true) c escaped |> of_decide_eq_true

/-- Every operator but the wildcards is escaped. -/
theorem operators_known (c : Char) (operator : c ∈ operators) : c = '*' ∨ c = '?' ∨ c ∈ regexMetacharacters :=
  List.all_eq_true.mp
    (by decide : operators.all (fun c => c = '*' ∨ c = '?' ∨ c ∈ regexMetacharacters) = true) c operator |>
    of_decide_eq_true

/-- One step of the reader for each character of a pattern. -/
theorem read_piece (c : Char) (items : List Regex) :
    (piece c).foldlM readChar ⟨false,items⟩ = some ⟨false,itemOf c :: items⟩ := by
  unfold piece itemOf
  by_cases star : c = '*'
  · rw [if_pos star,if_pos star]
    rfl
  by_cases question : c = '?'
  · rw [if_neg star,if_neg star,if_pos question,if_pos question]
    rfl
  rw [if_neg star,if_neg star,if_neg question,if_neg question]
  by_cases escaped : c ∈ regexMetacharacters
  · have known : readChar ⟨true,items⟩ c = some ⟨false,literal c :: items⟩ := by
      rw [readChar,if_pos rfl,if_pos (escaped_known c escaped)]
    rw [if_pos escaped]
    change (readChar ⟨true,items⟩ c).bind _ = _
    rw [known]
    rfl
  · have plain : c ∉ operators := fun operator => by
      rcases operators_known c operator with same | same | same
      · exact star same
      · exact question same
      · exact escaped same
    have apart (d : Char) (operator : d ∈ operators) : c ≠ d := fun same => plain (same ▸ operator)
    have known : readChar ⟨false,items⟩ c = some ⟨false,literal c :: items⟩ := by
      rw [readChar,if_neg Bool.false_ne_true,if_neg (apart '\\' (by decide)),if_neg star,atom,
        if_neg (apart '.' (by decide)),if_neg (apart '^' (by decide)),if_neg (apart '$' (by decide)),if_neg plain]
      rfl
    rw [if_neg escaped,List.foldlM_cons,known]
    rfl

theorem read_pieces (pattern : List Char) (items : List Regex) :
    (pattern.flatMap piece).foldlM readChar ⟨false,items⟩ = some ⟨false,(pattern.map itemOf).reverse ++ items⟩ := by
  induction pattern generalizing items with
  | nil => rfl
  | cons c pattern ih =>
    rw [List.flatMap_cons,List.foldlM_append,read_piece]
    change (pattern.flatMap piece).foldlM readChar ⟨false,itemOf c :: items⟩ = _
    rw [ih,List.map_cons,List.reverse_cons,List.append_assoc]
    rfl

/-- The library reads what the code writes as one item for each character, between the anchors. -/
theorem parse_patternSource (pattern : String) :
    parse (patternSource pattern).toList = some (concat (.start :: (pattern.toList.map itemOf ++ [.finish]))) := by
  have all : (patternSource pattern).toList.foldlM readChar ⟨false,[]⟩ =
      some ⟨false,.finish :: ((pattern.toList.map itemOf).reverse ++ [.start])⟩ := by
    rw [patternSource_toList,List.cons_append,List.foldlM_cons]
    change (pattern.toList.flatMap piece ++ ['$']).foldlM readChar ⟨false,[.start]⟩ = _
    rw [List.foldlM_append,read_pieces]
    rfl
  rw [parse,all]
  simp [concat]

/-- What the item of a character takes is covered by that character. -/
theorem covers_of_item (c : Char) (pattern : List Char) (place middle : Place) (here : middle ∈ (itemOf c).ways place)
    (covered : Covers dot pattern middle.rest) : Covers dot (c :: pattern) place.rest := by
  unfold itemOf at here
  split at here
  · rename_i star
    subst star
    obtain ⟨taken,inside,left,_⟩ := (mem_star_one dot place middle).mp here
    rw [left]
    exact .sequence taken inside covered
  split at here
  · rename_i question
    subst question
    obtain ⟨d,inside,left,_⟩ := (mem_step dot place middle).mp here
    rw [left]
    exact .exactly d inside covered
  · rename_i star question
    obtain ⟨d,same,left,_⟩ := (mem_step _ place middle).mp here
    obtain rfl := eq_of_beq same
    rw [left]
    exact .itself d ⟨star,question⟩ covered

/-- What a character covers is taken by its item. -/
theorem item_of_covers (c : Char) (pattern : List Char) (place : Place) (covered : Covers dot (c :: pattern) place.rest) :
    ∃ middle ∈ (itemOf c).ways place, Covers dot pattern middle.rest := by
  generalize same : place.rest = name at covered
  cases covered with
  | @sequence _ name taken inside later =>
    refine ⟨⟨taken.reverse ++ place.past,name,place.captures⟩,?_,later⟩
    exact (mem_star_one dot place _).mpr ⟨taken,inside,same,rfl,rfl⟩
  | @exactly _ name c inside later =>
    refine ⟨⟨c :: place.past,name,place.captures⟩,?_,later⟩
    exact (mem_step dot place _).mpr ⟨c,inside,same,rfl,rfl⟩
  | @itself _ name c other later =>
    refine ⟨⟨c :: place.past,name,place.captures⟩,?_,later⟩
    rw [itemOf,if_neg other.1,if_neg other.2]
    exact (mem_step _ place _).mpr ⟨c,beq_self_eq_true c,same,rfl,rfl⟩

/-- The items match up to the end of a text as the pattern covers it, dots taking no newline. -/
theorem items_cover (pattern : List Char) (place : Place) :
    (∃ last ∈ (concat (pattern.map itemOf)).ways place, last.rest = []) ↔ Covers dot pattern place.rest := by
  induction pattern generalizing place with
  | nil =>
    constructor
    · rintro ⟨last,way,bare⟩
      obtain rfl := List.mem_singleton.mp way
      rw [bare]
      exact .done
    · intro covered
      cases left : place.rest with
      | nil => exact ⟨place,List.mem_singleton.mpr rfl,left⟩
      | cons c rest =>
        rw [left] at covered
        cases covered
  | cons c pattern ih =>
    rw [List.map_cons,concat]
    simp only [mem_seq]
    constructor
    · rintro ⟨last,⟨middle,here,way⟩,bare⟩
      exact covers_of_item c pattern place middle here ((ih middle).mp ⟨last,way,bare⟩)
    · intro covered
      obtain ⟨middle,here,later⟩ := item_of_covers c pattern place covered
      obtain ⟨last,way,bare⟩ := (ih middle).mpr later
      exact ⟨last,⟨middle,here,way⟩,bare⟩

theorem isMatch_iff (pattern name : List Char) :
    isMatch (concat (.start :: (pattern.map itemOf ++ [.finish]))) name = true ↔ Covers dot pattern name := by
  rw [concat,isMatch_start,← items_cover pattern ⟨[],name,[]⟩]
  constructor
  · rintro ⟨last,way⟩
    obtain ⟨middle,here,ended⟩ := (mem_concat_append _ _ _ _).mp way
    obtain ⟨next,ended,_⟩ := (mem_seq _ _ _ _).mp ended
    exact ⟨middle,here,((mem_finish middle next).mp ended).1⟩
  · rintro ⟨middle,here,bare⟩
    refine ⟨middle,(mem_concat_append _ _ _ _).mpr ⟨middle,here,?_⟩⟩
    exact (mem_seq _ _ _ _).mpr ⟨middle,(mem_finish middle middle).mpr ⟨bare,rfl⟩,List.mem_singleton.mpr rfl⟩

/-- Without newlines under its wildcards, a pattern covers as many newlines as it has. -/
theorem count_of_covers (pattern name : List Char) (covered : Covers dot pattern name) :
    name.count '\n' = pattern.count '\n' ∧ Covers (fun _ => true) pattern name := by
  induction covered with
  | done => exact ⟨rfl,.done⟩
  | @sequence pattern name taken inside _ ih =>
    have none_taken : taken.count '\n' = 0 := by
      rw [List.count_eq_zero]
      exact fun newline => absurd (inside '\n' newline) (by decide)
    refine ⟨?_,.sequence taken (fun _ _ => rfl) ih.2⟩
    rw [List.count_append,none_taken,Nat.zero_add,ih.1,List.count_cons_of_ne (by decide)]
  | @exactly pattern name c inside _ ih =>
    have other : c ≠ '\n' := fun same => absurd (same ▸ inside) (by decide)
    refine ⟨?_,.exactly c rfl ih.2⟩
    rw [List.count_cons_of_ne other,ih.1,List.count_cons_of_ne (by decide)]
  | @itself pattern name c other _ ih =>
    refine ⟨?_,.itself c other ih.2⟩
    rw [List.count_cons,List.count_cons,ih.1]

/-- What a glob covers has at least its newlines, and the others are under its wildcards. -/
theorem covers_of_count (pattern name : List Char) (covered : Covers (fun _ => true) pattern name) :
    pattern.count '\n' ≤ name.count '\n' ∧ (name.count '\n' = pattern.count '\n' → Covers dot pattern name) := by
  induction covered with
  | done => exact ⟨Nat.le_refl _,fun _ => .done⟩
  | @sequence pattern name taken inside _ ih =>
    obtain ⟨least,same⟩ := ih
    rw [List.count_append,List.count_cons_of_ne (by decide)]
    refine ⟨by omega,fun equal => .sequence taken (fun c member => ?_) (same (by omega))⟩
    have none_taken : taken.count '\n' = 0 := by omega
    have other : c ≠ '\n' := fun newline => List.count_eq_zero.mp none_taken (newline ▸ member)
    simpa [dot] using other
  | @exactly pattern name c inside _ ih =>
    obtain ⟨least,same⟩ := ih
    have first : List.count '\n' ('?' :: pattern) = List.count '\n' pattern := List.count_cons_of_ne (by decide)
    rw [first,List.count_cons]
    refine ⟨by omega,fun equal => ?_⟩
    by_cases newline : c = '\n'
    · subst newline
      rw [beq_self_eq_true,if_pos rfl] at equal
      omega
    · rw [beq_false_of_ne newline,if_neg Bool.false_ne_true] at equal
      exact .exactly c (by simpa [dot] using newline) (same equal)
  | @itself pattern name c other _ ih =>
    obtain ⟨least,same⟩ := ih
    rw [List.count_cons,List.count_cons]
    exact ⟨by omega,fun equal => .itself c other (same (by omega))⟩

/-- An event pattern is the glob it is written as, on a name, exactly when its expression is not too
large and no wildcard has to stand for a newline. -/
theorem matchesAsGlob_iff (fits : String → Bool) (pattern name : String) :
    MatchesAsGlob fits pattern name ↔ fits (patternSource pattern) = true ∧
      (Glob pattern name → name.toList.count '\n' = pattern.toList.count '\n') := by
  unfold MatchesAsGlob buildEventPatternRegex
  cases small : fits (patternSource pattern) with
  | false => simp
  | true =>
    rw [if_pos rfl,parse_patternSource]
    simp only [Option.some.injEq,exists_eq_left',isMatch_iff,true_and]
    constructor
    · exact fun same glob => (count_of_covers _ _ (same.mpr glob)).1
    · exact fun counted => ⟨fun covered => (count_of_covers _ _ covered).2,
        fun glob => (covers_of_count _ _ glob).2 (counted glob)⟩

theorem newline_not_covered :
    Glob "data.*" "data.a\nb" ∧ ¬MatchesAsGlob (fun _ => true) "data.*" "data.a\nb" := by
  have whole : Covers (fun _ => true) ['*'] ['a','\n','b'] := .sequence ['a','\n','b'] (fun _ _ => rfl) .done
  have glob : Glob "data.*" "data.a\nb" :=
    .itself 'd' (by decide) (.itself 'a' (by decide) (.itself 't' (by decide) (.itself 'a' (by decide)
      (.itself '.' (by decide) whole))))
  refine ⟨glob,?_⟩
  rintro ⟨regex,built,same⟩
  have refused : ∀ regex ∈ buildEventPatternRegex (fun _ => true) "data.*",
      isMatch regex "data.a\nb".toList = false := by
    decide
  rw [refused regex built] at same
  exact absurd (same.mpr glob) Bool.false_ne_true

example : (buildEventPatternRegex (fun _ => true) "agent.*").map (isMatch · "agent.started".toList) = some true := by
  decide

end ClawKernel.Server.EventPatterns
