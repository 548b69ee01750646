import Mathlib.Data.List.Basic

/-! Regular expressions that are matched by backtracking: the ways in which one matches from a
place of a text, those first that are tried first, and the reader of their flat notation.
-/
namespace ClawKernel.Lib.Regex

inductive Regex where
  | empty
  | one (set : Char → Bool)
  | start
  | finish
  | seq (first second : Regex)
  | alt (first second : Regex)
  | star (body : Regex)
  | group (index : Nat) (body : Regex)

/-- A place in a text: what comes before it, backwards, what is left, and what the groups have
captured on the way, the latest first. -/
@[ext] structure Place where
  past : List Char
  rest : List Char
  captures : List (Nat × List Char)
  deriving DecidableEq

/-- One character is passed. -/
def Place.step (set : Char → Bool) (place : Place) : List Place :=
  match place.rest with
  | [] => []
  | c :: rest => if set c then [⟨c :: place.past,rest,place.captures⟩] else []

/-- The text from one place to a later one. -/
def Place.between (first last : Place) : List Char := (last.past.take (last.past.length - first.past.length)).reverse

def Place.capture (index : Nat) (first last : Place) : Place :=
  { last with captures := (index,first.between last) :: last.captures }

/-- Greedy repetition: another turn is tried before none. A turn that takes nothing is none. -/
def repeated (ways : Place → List Place) : Nat → Place → List Place
  | 0, place => [place]
  | fuel + 1, place =>
    ((ways place).filter (fun next => next.rest.length < place.rest.length)).flatMap (repeated ways fuel) ++ [place]

/-- Where a match that begins at a place can end. -/
def Regex.ways : Regex → Place → List Place
  | .empty, place => [place]
  | .one set, place => place.step set
  | .start, place => if place.past.isEmpty then [place] else []
  | .finish, place => if place.rest.isEmpty then [place] else []
  | .seq first second, place => (first.ways place).flatMap second.ways
  | .alt first second, place => first.ways place ++ second.ways place
  | .star body, place => repeated body.ways place.rest.length place
  | .group index body, place => (body.ways place).map (place.capture index)

/-- The leftmost match from a place on: where it begins, and the first of its ends. -/
def findFrom (regex : Regex) : List Char → List Char → Option (Place × Place)
  | past, [] => ((regex.ways ⟨past,[],[]⟩).head?).map (fun last => (⟨past,[],[]⟩,last))
  | past, c :: rest =>
    match (regex.ways ⟨past,c :: rest,[]⟩).head? with
    | some last => some (⟨past,c :: rest,[]⟩,last)
    | none => findFrom regex (c :: past) rest

def isMatch (regex : Regex) (text : List Char) : Bool := (findFrom regex [] text).isSome

def concat : List Regex → Regex
  | [] => .empty
  | item :: items => .seq item (concat items)

/-- The characters that a backslash makes literal. -/
def metacharacters : List Char :=
  ['\\','.','+','*','?','(',')','|','[',']','\x7b','\x7d','^','$','#','&','-','~']

/-- The characters that stand for something else where they are not escaped. -/
def operators : List Char := ['\\','.','+','*','?','(',')','|','[',']','\x7b','\x7d','^','$']

def dot (c : Char) : Bool := c != '\n'

def literal (c : Char) : Regex := .one (· == c)

def atom (c : Char) : Option Regex :=
  if c = '.' then some (.one dot)
  else if c = '^' then some .start
  else if c = '$' then some .finish
  else if c ∈ operators then none
  else some (literal c)

/-- What has been read of an expression, backwards, and whether the next character is escaped. -/
structure Reading where
  escaped : Bool
  items : List Regex

def readChar (reading : Reading) (c : Char) : Option Reading :=
  if reading.escaped then
    if c ∈ metacharacters then some ⟨false,literal c :: reading.items⟩ else none
  else if c = '\\' then some ⟨true,reading.items⟩
  else if c = '*' then
    match reading.items with
    | [] => none
    | last :: items => some ⟨false,.star last :: items⟩
  else (atom c).map (fun item => ⟨false,item :: reading.items⟩)

/-- Reads literals, escapes, dots, anchors and stars. An expression with any other operator is not
of this kind. -/
def parse (text : List Char) : Option Regex :=
  (text.foldlM readChar ⟨false,[]⟩).bind (fun reading =>
    if reading.escaped then none else some (concat reading.items.reverse))

theorem mem_step (set : Char → Bool) (place last : Place) :
    last ∈ place.step set ↔ ∃ c, set c = true ∧ place.rest = c :: last.rest ∧
      last.past = c :: place.past ∧ last.captures = place.captures := by
  unfold Place.step
  cases left : place.rest with
  | nil => simp
  | cons c rest =>
    by_cases accepted : set c = true
    · simp only [accepted,if_true,List.mem_singleton,List.cons.injEq]
      constructor
      · rintro rfl
        exact ⟨c,accepted,⟨rfl,rfl⟩,rfl,rfl⟩
      · rintro ⟨_,_,⟨rfl,left⟩,before,captured⟩
        exact Place.ext before left.symm captured
    · simp only [accepted,List.cons.injEq]
      constructor
      · exact fun inside => by cases inside
      · rintro ⟨_,taken,⟨rfl,_⟩,_⟩
        exact absurd taken accepted

theorem mem_seq (first second : Regex) (place last : Place) :
    last ∈ (Regex.seq first second).ways place ↔ ∃ middle ∈ first.ways place, last ∈ second.ways middle := by
  rw [Regex.ways,List.mem_flatMap]

/-- Enough turns take any run of the set's characters, and nothing else. -/
theorem mem_repeated_step (set : Char → Bool) (fuel : Nat) (place last : Place) (enough : place.rest.length ≤ fuel) :
    last ∈ repeated (Place.step set) fuel place ↔ ∃ taken, (∀ c ∈ taken, set c = true) ∧
      place.rest = taken ++ last.rest ∧ last.past = taken.reverse ++ place.past ∧ last.captures = place.captures := by
  induction fuel generalizing place with
  | zero =>
    have bare : place.rest = [] := List.length_eq_zero_iff.mp (Nat.le_zero.mp enough)
    rw [repeated,List.mem_singleton]
    constructor
    · rintro rfl
      exact ⟨[],by simp,rfl,rfl,rfl⟩
    · rintro ⟨taken,_,left,before,captured⟩
      rw [bare] at left
      obtain ⟨rfl,none_left⟩ := List.append_eq_nil_iff.mp left.symm
      exact Place.ext before (none_left.trans bare.symm) captured
  | succ fuel ih =>
    rw [repeated,List.mem_append,List.mem_singleton,List.mem_flatMap]
    constructor
    · rintro (⟨next,chosen,later⟩ | rfl)
      · obtain ⟨stepped,shorter⟩ := List.mem_filter.mp chosen
        obtain ⟨c,accepted,left,before,captured⟩ := (mem_step set place next).mp stepped
        have room : next.rest.length ≤ fuel := by
          rw [left,List.length_cons] at enough
          omega
        obtain ⟨taken,all,later_left,later_before,later_captured⟩ := (ih next room).mp later
        refine ⟨c :: taken,?_,by rw [left,later_left]; rfl,?_,later_captured.trans captured⟩
        · rintro d (_ | inside)
          · exact accepted
          · exact all d (by assumption)
        · rw [later_before,before,List.reverse_cons,List.append_assoc]
          rfl
      · exact ⟨[],by simp,rfl,rfl,rfl⟩
    · rintro ⟨taken,all,left,before,captured⟩
      cases taken with
      | nil => exact .inr (Place.ext before left.symm captured)
      | cons c taken =>
        have next : (⟨c :: place.past,taken ++ last.rest,place.captures⟩ : Place) ∈ place.step set :=
          (mem_step set place _).mpr ⟨c,all c List.mem_cons_self,left,rfl,rfl⟩
        have room : (taken ++ last.rest).length ≤ fuel := by
          rw [left,List.cons_append,List.length_cons] at enough
          omega
        refine .inl ⟨_,List.mem_filter.mpr ⟨next,by simp [left]⟩,(ih _ room).mpr ⟨taken,?_,rfl,?_,captured⟩⟩
        · exact fun d inside => all d (List.mem_cons_of_mem c inside)
        · rw [before,List.reverse_cons,List.append_assoc]
          rfl

theorem mem_star_one (set : Char → Bool) (place last : Place) :
    last ∈ (Regex.star (.one set)).ways place ↔ ∃ taken, (∀ c ∈ taken, set c = true) ∧
      place.rest = taken ++ last.rest ∧ last.past = taken.reverse ++ place.past ∧ last.captures = place.captures :=
  mem_repeated_step set place.rest.length place last (Nat.le_refl _)

theorem mem_concat_append (first second : List Regex) (place last : Place) :
    last ∈ (concat (first ++ second)).ways place ↔
      ∃ middle ∈ (concat first).ways place, last ∈ (concat second).ways middle := by
  induction first generalizing place with
  | nil => simp [concat,Regex.ways]
  | cons item first ih =>
    simp only [List.cons_append,concat,mem_seq,ih]
    constructor
    · rintro ⟨next,here,middle,inside,rest⟩
      exact ⟨middle,⟨next,here,inside⟩,rest⟩
    · rintro ⟨middle,⟨next,here,inside⟩,rest⟩
      exact ⟨next,here,middle,inside,rest⟩

theorem findFrom_isSome (regex : Regex) (past text : List Char) :
    (findFrom regex past text).isSome = true ↔
      ∃ before rest, text = before ++ rest ∧ ∃ last, last ∈ regex.ways ⟨before.reverse ++ past,rest,[]⟩ := by
  induction text generalizing past with
  | nil =>
    rw [findFrom,Option.isSome_map]
    constructor
    · intro found
      obtain ⟨last,first⟩ := Option.isSome_iff_exists.mp found
      exact ⟨[],[],rfl,last,List.mem_of_mem_head? first⟩
    · rintro ⟨before,rest,split,last,way⟩
      obtain ⟨rfl,rfl⟩ := List.append_eq_nil_iff.mp split.symm
      rw [List.isSome_head?]
      exact List.ne_nil_of_mem way
  | cons c text ih =>
    rw [findFrom]
    cases here : ((regex.ways ⟨past,c :: text,[]⟩).head?) with
    | some last => exact ⟨fun _ => ⟨[],c :: text,rfl,last,List.mem_of_mem_head? here⟩,fun _ => rfl⟩
    | none =>
      have nowhere : regex.ways ⟨past,c :: text,[]⟩ = [] := List.head?_eq_none_iff.mp here
      rw [ih (c :: past)]
      constructor
      · rintro ⟨before,rest,split,last,way⟩
        exact ⟨c :: before,rest,by rw [split]; rfl,last,by simpa using way⟩
      · rintro ⟨before,rest,split,last,way⟩
        cases before with
        | nil =>
          rw [List.nil_append] at split
          subst split
          rw [List.reverse_nil,List.nil_append,nowhere] at way
          cases way
        | cons d before =>
          obtain ⟨same,left⟩ := List.cons.inj split
          subst same
          exact ⟨before,rest,left,last,by simpa using way⟩

/-- An expression that begins with the anchor is tried at the beginning only. -/
theorem isMatch_start (regex : Regex) (text : List Char) :
    isMatch (.seq .start regex) text = true ↔ ∃ last, last ∈ regex.ways ⟨[],text,[]⟩ := by
  rw [isMatch,findFrom_isSome]
  constructor
  · rintro ⟨before,rest,rfl,last,way⟩
    obtain ⟨middle,anchored,way⟩ := (mem_seq _ _ _ _).mp way
    rw [Regex.ways] at anchored
    split at anchored
    · rename_i first
      obtain rfl := List.mem_singleton.mp anchored
      have first : before = [] := by simpa using first
      subst first
      exact ⟨last,way⟩
    · cases anchored
  · rintro ⟨last,way⟩
    exact ⟨[],text,rfl,last,(mem_seq _ _ _ _).mpr ⟨⟨[],text,[]⟩,List.mem_singleton.mpr rfl,way⟩⟩

theorem mem_finish (place last : Place) : last ∈ Regex.finish.ways place ↔ place.rest = [] ∧ last = place := by
  rw [Regex.ways]
  cases left : place.rest with
  | nil => simp
  | cons c rest => simp

end ClawKernel.Lib.Regex
