import ClawKernel.Lib.Runs
import ClawKernel.Lib.Search
import ClawKernel.Tools.Validation

/-! Brackets of code and brackets that the syntax check counts. What is code in a Lua text is said
by its tokens; the check takes the text line by line.
-/
namespace ClawKernel.Tools.Brackets
open Lib Lib.Runs Validation
open Provider.Sse (lines)

/-- No start closes a bracket that is not open. -/
def NeverShort (code : Text) : Prop := ∀ before, before <+: code → (before.foldl Depths.count ⟨0,0,0⟩).Nonnegative

/-- And in the end none is open. -/
def Balanced (code : Text) : Prop := NeverShort code ∧ code.foldl Depths.count ⟨0,0,0⟩ = ⟨0,0,0⟩

/-- A character and whether its line has `[[`. -/
abbrev Mark := Char × Bool

/-- The lines with their ends. -/
def marked (content : Text) : List Mark :=
  (lines content).flatMap (fun line => line.map (·,containsText line "[[") ++ [('\n',false)])

/-! The tokens of Lua. -/

inductive Mode where
  | plain
  | escaped
  | skipping
  deriving DecidableEq

def luaSpace (c : Char) : Bool := c = ' ' || (9 ≤ c.toNat && c.toNat ≤ 13)

/-- How many characters there are up to the one that closes the string. -/
def closing (quote : Char) : Mode → List Mark → Option Nat
  | _, [] => none
  | mode, c :: rest =>
    if mode = .escaped then (closing quote (if c.1 = 'z' then .skipping else .plain) rest).map (· + 1)
    else if mode = .skipping ∧ luaSpace c.1 then (closing quote .skipping rest).map (· + 1)
    else if c.1 = quote then some 1
    else if c.1 = '\n' ∨ c.1 = '\r' then none
    else (closing quote (if c.1 = '\\' then .escaped else .plain) rest).map (· + 1)

/-- The level of a long bracket, after its first character. -/
def level (text : List Mark) : Option Nat :=
  if ((text.dropWhile (·.1 = '=')).head?).map Prod.fst = some '[' then some (text.takeWhile (·.1 = '=')).length else none

/-- How many characters of the text belong to a long bracket of this level, after its first one. -/
def longLength (text : List Mark) (n : Nat) : Nat :=
  match Search.find (']' :: List.replicate n '=' ++ [']']) ((text.drop (n + 1)).map Prod.fst) with
  | some i => n + 1 + i + (n + 2)
  | none => text.length

def lineLength (text : List Mark) : Nat := (text.takeWhile (fun c => c.1 ≠ '\n' && c.1 ≠ '\r')).length

/-- The same of a comment, after its dashes. -/
def commentLength : List Mark → Nat
  | [] => 0
  | c :: rest =>
    if c.1 = '[' then
      match level rest with
      | some n => longLength rest n + 1
      | none => lineLength (c :: rest)
    else lineLength (c :: rest)

/-- `passed` are comments and long strings. -/
inductive Token where
  | code (c : Mark)
  | quoted (text : List Mark)
  | unclosed (text : List Mark)
  | passed (text : List Mark)

def Token.text : Token → List Mark
  | .code c => [c]
  | .quoted text => text
  | .unclosed text => text
  | .passed text => text

/-- The first token and what is left; after a string that is not closed there is nothing left. -/
def first (c : Mark) (rest : List Mark) : Token × List Mark :=
  if c.1 = '"' ∨ c.1 = '\'' then
    match closing c.1 .plain rest with
    | some n => (.quoted (c :: rest.take n),rest.drop n)
    | none => (.unclosed (c :: rest),[])
  else if c.1 = '-' ∧ rest.head?.map Prod.fst = some '-' then
    (.passed (c :: rest.take (commentLength rest.tail + 1)),rest.drop (commentLength rest.tail + 1))
  else if c.1 = '[' then
    match level rest with
    | some n => (.passed (c :: rest.take (longLength rest n)),rest.drop (longLength rest n))
    | none => (.code c,rest)
  else (.code c,rest)

def tokensFrom : Nat → List Mark → List Token
  | fuel + 1, c :: rest => (first c rest).1 :: tokensFrom fuel (first c rest).2
  | _, _ => []

def tokens (text : List Mark) : List Token := tokensFrom text.length text

def Token.char : Token → Option Char
  | .code c => some c.1
  | _ => none

def Token.isOpen : Token → Bool
  | .unclosed _ => true
  | _ => false

/-- No quoted string is left open, and the brackets of the code are balanced. -/
def LuaBalanced (content : Text) : Prop :=
  (∀ token ∈ tokens (marked content), token.isOpen = false) ∧ Balanced ((tokens (marked content)).filterMap Token.char)

/-! What the scan makes of a token. -/

def luaMark (s : LuaScan) (c : Mark) : LuaScan :=
  if c.1 = '\n' then s else luaChar (if c.2 then "[[".toList else []) s c.1

def Fine (s : LuaScan) (c : Mark) : Prop := (luaMark s c).depths.Nonnegative

def outside (depths : Depths) : LuaScan := ⟨depths,none,false⟩

/-- Scanned by itself the text leaves the scan as it was, and closes no bracket that it did not open. -/
def Inert (text : List Mark) : Prop :=
  text.foldl luaMark (outside ⟨0,0,0⟩) = outside ⟨0,0,0⟩ ∧ Along luaMark Fine (outside ⟨0,0,0⟩) text

/-- The quote is in the text, and not after a backslash; the scan does not see line ends. -/
def occursBare (quote : Char) : Bool → List Mark → Bool
  | _, [] => false
  | escaped, c :: rest =>
    if c.1 = '\n' then occursBare quote escaped rest
    else if escaped then occursBare quote false rest
    else c.1 = quote || occursBare quote (c.1 = '\\') rest

/-- The line after a backslash begins with a backslash or with the quote. -/
def Continued (quote : Char) (text : List Mark) : Prop :=
  ['\\','\n','\\'] <:+: text.map Prod.fst ∨ ['\\','\n',quote] <:+: text.map Prod.fst

/-- The scan takes the token for what it is. -/
def Token.Read : Token → Prop
  | .code c => c.1 = '[' → c.2 = false
  | .quoted text => ∀ quote ∈ text.head?, ¬Continued quote.1 text
  | .unclosed text => ∀ quote ∈ text.head?, occursBare quote.1 false text.tail = false
  | .passed text => Inert text

/-! Depths that are counted from elsewhere. -/

def Depths.above (d e : Depths) : Depths := ⟨d.brace + e.brace,d.bracket + e.bracket,d.paren + e.paren⟩

theorem above_zero (d : Depths) : Depths.above d ⟨0,0,0⟩ = d := by simp [Depths.above]

theorem count_above (d e : Depths) (c : Char) : (Depths.above d e).count c = Depths.above d (e.count c) := by
  unfold Depths.count Depths.above
  split_ifs <;> simp <;> omega

theorem nonnegative_above (d e : Depths) (first : d.Nonnegative) (other : e.Nonnegative) :
    (Depths.above d e).Nonnegative := by
  obtain ⟨a,b,c⟩ := first
  obtain ⟨a',b',c'⟩ := other
  exact ⟨Int.add_nonneg a a',Int.add_nonneg b b',Int.add_nonneg c c'⟩

section Counting

def isBracket (c : Char) : Bool := c ∈ ['\x7b','\x7d','[',']','(',')']

theorem count_other (d : Depths) (c : Char) (plain : isBracket c = false) : d.count c = d := by
  simp only [isBracket,List.mem_cons,List.not_mem_nil,or_false,decide_eq_false_iff_not,not_or] at plain
  simp [Depths.count,plain]

/-- No start of the text closes a bracket that is not open, where some are open before it. -/
abbrev Covered (d : Depths) (text : Text) : Prop := Upright Depths.count Depths.Nonnegative d text

theorem foldl_above (d e : Depths) (text : Text) :
    text.foldl Depths.count (Depths.above d e) = Depths.above d (text.foldl Depths.count e) := by
  induction text generalizing e with
  | nil => rfl
  | cons c rest ih => rw [List.foldl_cons,count_above,ih,List.foldl_cons]

theorem covered_above (d e : Depths) (text : Text) (level : d.Nonnegative) (upright : Covered e text) :
    Covered (Depths.above d e) text := by
  induction text generalizing e with
  | nil => trivial
  | cons c rest ih =>
    obtain ⟨now,later⟩ := upright
    refine ⟨?_,?_⟩
    · rw [count_above]
      exact nonnegative_above d _ level now
    · rw [count_above]
      exact ih _ later

theorem foldl_brackets (d : Depths) (text : Text) :
    text.foldl Depths.count d = (text.filter isBracket).foldl Depths.count d := by
  induction text generalizing d with
  | nil => rfl
  | cons c rest ih =>
    rw [List.foldl_cons,List.filter_cons]
    split
    · rw [List.foldl_cons,ih]
    · rename_i plain
      rw [count_other d c (by simpa using plain),ih]

theorem covered_brackets (d : Depths) (text : Text) (level : d.Nonnegative) :
    Covered d text ↔ Covered d (text.filter isBracket) := by
  induction text generalizing d with
  | nil => rfl
  | cons c rest ih =>
    rw [List.filter_cons]
    split
    · rw [Covered,Upright,Covered,Upright]
      exact and_congr_right (fun now => ih _ now)
    · rename_i plain
      rw [Covered,Upright,count_other d c (by simpa using plain)]
      exact (and_iff_right level).trans (ih d level)

theorem neverShort_iff (code : Text) : NeverShort code ↔ Covered ⟨0,0,0⟩ code :=
  (upright_iff_begins Depths.count Depths.Nonnegative ⟨0,0,0⟩ code (by decide)).symm

theorem covered_end (d : Depths) (text : Text) (level : d.Nonnegative) (upright : Covered d text) :
    (text.foldl Depths.count d).Nonnegative :=
  (upright_iff_begins Depths.count Depths.Nonnegative d text level).mp upright text (List.prefix_refl text)

/-- Texts with the same brackets. -/
theorem same_brackets (a b : Text) (same : a.filter isBracket = b.filter isBracket) :
    (NeverShort a ↔ NeverShort b) ∧ a.foldl Depths.count ⟨0,0,0⟩ = b.foldl Depths.count ⟨0,0,0⟩ := by
  rw [neverShort_iff,neverShort_iff,covered_brackets _ a (by decide),covered_brackets _ b (by decide),foldl_brackets _ a,
    foldl_brackets _ b,same]
  exact ⟨Iff.rfl,rfl⟩

end Counting

/-! The scan of a Lua text, mark by mark. -/

section Marks

theorem luaChar_mark (line : Text) (s : LuaScan) (c : Char) (inside : c ≠ '\n') :
    luaMark s (c,containsText line "[[") = luaChar line s c := by
  have yes : containsText "[[".toList "[[" = true := by decide
  have no : containsText [] "[[" = false := by decide
  rw [luaMark,if_neg inside]
  unfold luaChar
  cases containsText line "[[" <;> simp only [if_true,Bool.false_eq_true,if_false,yes,no]

theorem foldl_mark (line text : Text) (s : LuaScan) (clean : ∀ c ∈ text, c ≠ '\n') :
    (text.map (·,containsText line "[[")).foldl luaMark s = text.foldl (luaChar line) s := by
  induction text generalizing s with
  | nil => rfl
  | cons c rest ih =>
    obtain ⟨here,later⟩ := List.forall_mem_cons.mp clean
    rw [List.map_cons,List.foldl_cons,luaChar_mark line s c here,ih _ later,List.foldl_cons]

theorem along_mark (line text : Text) (s : LuaScan) (clean : ∀ c ∈ text, c ≠ '\n') :
    Along luaMark Fine s (text.map (·,containsText line "[[")) ↔
      Upright (luaChar line) (fun s => s.depths.Nonnegative) s text := by
  induction text generalizing s with
  | nil => rfl
  | cons c rest ih =>
    obtain ⟨here,later⟩ := List.forall_mem_cons.mp clean
    rw [List.map_cons,Along,Upright,Fine,luaChar_mark line s c here,ih _ later]

theorem fine_end (s : LuaScan) (text : List Mark) (level : s.depths.Nonnegative) (along : Along luaMark Fine s text) :
    (text.foldl luaMark s).depths.Nonnegative :=
  run_invariant luaMark Fine (fun s => s.depths.Nonnegative) (fun _ _ _ fine => fine) s text level along

theorem lines_clean (content : Text) : ∀ line ∈ lines content, ∀ c ∈ line, c ≠ '\n' := by
  have clean : ∀ line ∈ Pieces.pieces Pieces.newline content, ∀ c ∈ line, c ≠ '\n' := by
    intro line member c inside same
    have not := Pieces.pieces_clean Pieces.newline content line member c inside
    rw [same] at not
    exact absurd not (by decide)
  intro line member
  rw [lines,List.mem_append] at member
  cases member with
  | inl terminated =>
    obtain ⟨piece,cut,rfl⟩ := List.mem_map.mp terminated
    intro c inside
    have within : c ∈ piece := by
      unfold Provider.Sse.stripCr at inside
      split at inside
      · exact List.dropLast_subset piece inside
      · exact inside
    exact clean piece (List.dropLast_subset _ cut) c within
  | inr last =>
    split at last
    · cases last
    · rw [List.mem_singleton.mp last]
      refine clean _ ?_
      rw [Pieces.pieces_eq_last Pieces.newline content]
      exact List.mem_append_right _ List.mem_cons_self

/-- The lines are scanned as the marks of their characters. -/
theorem scanLines_lua (number : Nat) (s after : LuaScan) (rest : List Text) (clean : ∀ line ∈ rest, ∀ c ∈ line, c ≠ '\n')
    (level : s.depths.Nonnegative) :
    scanLines id luaChar (fun number s => s.depths.negativeLua number) number s rest = .ok after ↔
      Along luaMark Fine s (rest.flatMap (fun line => line.map (·,containsText line "[[") ++ [('\n',false)])) ∧
        (rest.flatMap (fun line => line.map (·,containsText line "[[") ++ [('\n',false)])).foldl luaMark s = after := by
  induction rest generalizing number s with
  | nil =>
    rw [scanLines,Except.ok.injEq]
    exact (and_iff_right trivial).symm
  | cons line rest ih =>
    obtain ⟨here,later⟩ := List.forall_mem_cons.mp clean
    have scanned := scanLine_ok_iff (luaChar line) (fun s => s.depths.Nonnegative) (fun s => s.depths.negativeLua number)
      (fun s => negativeLua_none_iff number s.depths) s
    rw [scanLines,List.flatMap_cons,List.append_assoc,along_append,List.foldl_append,run,foldl_mark line line s here,
      along_mark line line s here]
    cases found : scanLine (luaChar line) (fun s => s.depths.negativeLua number) s line with
    | error message =>
      have bad : ¬Upright (luaChar line) (fun s => s.depths.Nonnegative) s line := by
        intro upright
        have fine := (scanned _ line).mpr ⟨upright,rfl⟩
        rw [found] at fine
        cases fine
      simp only [id_eq,found]
      exact ⟨(fun clash => by cases clash),fun both => absurd both.1.1 bad⟩
    | ok reached =>
      obtain ⟨upright,same⟩ := (scanned reached line).mp found
      have stays : luaMark reached ('\n',false) = reached := if_pos rfl
      have high : reached.depths.Nonnegative := by
        rw [← same,← foldl_mark line line s here]
        exact fine_end s _ level ((along_mark line line s here).mpr upright)
      simp only [id_eq,found]
      rw [ih (number + 1) reached later high,same,List.singleton_append,Along,Fine,stays,List.foldl_cons,stays,
        and_iff_right upright,and_iff_right high]

theorem validateLuaSyntax_iff (content : Text) :
    validateLuaSyntax content = none ↔ Along luaMark Fine (outside ⟨0,0,0⟩) (marked content) ∧
      ((marked content).foldl luaMark (outside ⟨0,0,0⟩)).depths = ⟨0,0,0⟩ ∧
      ((marked content).foldl luaMark (outside ⟨0,0,0⟩)).inString = none := by
  have scanned (after : LuaScan) := scanLines_lua 1 (outside ⟨0,0,0⟩) after (lines content) (lines_clean content)
    (by decide : (outside ⟨0,0,0⟩).depths.Nonnegative)
  unfold validateLuaSyntax
  split
  · rename_i message failed
    refine ⟨(fun clash => by cases clash),fun both => ?_⟩
    have passed := (scanned _).mpr ⟨both.1,rfl⟩
    rw [outside] at passed
    rw [failed] at passed
    cases passed
  · rename_i s passed
    obtain ⟨along,same⟩ := (scanned s).mp passed
    have final : (marked content).foldl luaMark (outside ⟨0,0,0⟩) = s := same
    rw [final,marked,and_iff_right along]
    obtain ⟨⟨brace,bracket,paren⟩,quote,_⟩ := s
    simp only [Depths.mk.injEq]
    cases quote <;> split_ifs <;> simp_all

end Marks

/-! One token. -/

section Tokens
variable (d : Depths)

theorem first_text (c : Mark) (rest : List Mark) : (first c rest).1.text ++ (first c rest).2 = c :: rest := by
  unfold first
  split_ifs
  · cases closing c.1 .plain rest with
    | none => exact List.append_nil _
    | some n => exact congrArg (c :: ·) (List.take_append_drop n rest)
  · exact congrArg (c :: ·) (List.take_append_drop _ rest)
  · cases level rest with
    | none => rfl
    | some n => exact congrArg (c :: ·) (List.take_append_drop _ rest)
  · rfl

theorem first_shorter (c : Mark) (rest : List Mark) : (first c rest).2.length ≤ rest.length := by
  have whole := congrArg List.length (first_text c rest)
  have some : 0 < (first c rest).1.text.length := by
    unfold first
    split_ifs
    · cases closing c.1 .plain rest <;> exact Nat.succ_pos _
    · exact Nat.succ_pos _
    · cases level rest <;> exact Nat.succ_pos _
    · exact Nat.succ_pos _
  rw [List.length_append,List.length_cons] at whole
  omega

theorem luaMark_inside (quote : Char) (escaped : Bool) (c : Mark) :
    luaMark ⟨d,some quote,escaped⟩ c =
      if c.1 = '\n' then ⟨d,some quote,escaped⟩
      else if escaped then ⟨d,some quote,false⟩
      else if c.1 = '\\' then ⟨d,some quote,true⟩
      else if c.1 = quote then outside d
      else ⟨d,some quote,false⟩ := by
  unfold luaMark luaChar
  cases escaped <;> simp only [if_true,Bool.false_eq_true,if_false,outside]

/-- In a string the depths stay. -/
theorem fine_inside (level : d.Nonnegative) (quote : Char) (escaped : Bool) (c : Mark) :
    Fine ⟨d,some quote,escaped⟩ c := by
  rw [Fine,luaMark_inside]
  split_ifs <;> exact level

theorem luaMark_above (e : Depths) (quote : Option Char) (escaped : Bool) (c : Mark) :
    luaMark ⟨Depths.above d e,quote,escaped⟩ c =
      { luaMark ⟨e,quote,escaped⟩ c with depths := Depths.above d (luaMark ⟨e,quote,escaped⟩ c).depths } := by
  cases quote with
  | some quote =>
    rw [luaMark_inside,luaMark_inside]
    split_ifs <;> rfl
  | none =>
    unfold luaMark luaChar
    cases escaped <;> split_ifs <;> simp_all [count_above]

theorem foldl_mark_above (s : LuaScan) (text : List Mark) :
    text.foldl luaMark { s with depths := Depths.above d s.depths } =
      { text.foldl luaMark s with depths := Depths.above d (text.foldl luaMark s).depths } := by
  induction text generalizing s with
  | nil => rfl
  | cons c rest ih =>
    obtain ⟨e,quote,escaped⟩ := s
    rw [List.foldl_cons,luaMark_above,ih,List.foldl_cons]

theorem along_mark_above (level : d.Nonnegative) (s : LuaScan) (text : List Mark) (along : Along luaMark Fine s text) :
    Along luaMark Fine { s with depths := Depths.above d s.depths } text := by
  induction text generalizing s with
  | nil => trivial
  | cons c rest ih =>
    obtain ⟨e,quote,escaped⟩ := s
    obtain ⟨now,later⟩ := along
    have moved := luaMark_above d e quote escaped c
    refine ⟨?_,?_⟩
    · rw [Fine,moved]
      exact nonnegative_above d _ level now
    · rw [moved]
      exact ih _ later

/-- A text that is inert by itself is inert everywhere. -/
theorem inert_scan (level : d.Nonnegative) (text : List Mark) (inert : Inert text) :
    text.foldl luaMark (outside d) = outside d ∧ Along luaMark Fine (outside d) text := by
  have shifted := foldl_mark_above d (outside ⟨0,0,0⟩) text
  have along := along_mark_above d level (outside ⟨0,0,0⟩) text inert.2
  rw [inert.1] at shifted
  simp only [outside,above_zero] at shifted along
  exact ⟨shifted,along⟩

/-- While its quote does not occur the string goes on. -/
theorem bare_scan (quote : Char) (escaped : Bool) (text : List Mark) (absent : occursBare quote escaped text = false) :
    (text.foldl luaMark ⟨d,some quote,escaped⟩).inString = some quote := by
  induction text generalizing escaped with
  | nil => rfl
  | cons c rest ih =>
    rw [List.foldl_cons,luaMark_inside]
    rw [occursBare] at absent
    by_cases line : c.1 = '\n'
    · rw [if_pos line] at absent ⊢
      exact ih escaped absent
    rw [if_neg line] at absent ⊢
    cases escaped with
    | true => exact ih false absent
    | false =>
      obtain ⟨other,later⟩ := Bool.or_eq_false_iff.mp absent
      have other : c.1 ≠ quote := of_decide_eq_false other
      rw [if_neg Bool.false_ne_true]
      by_cases slash : c.1 = '\\'
      · rw [if_pos slash]
        rw [decide_eq_true slash] at later
        exact ih true later
      · rw [if_neg slash,if_neg other]
        rw [decide_eq_false slash] at later
        exact ih false later

/-- A mode of the string and what the scan knows of it, which is an escape late after a backslash at a line end. -/
def Abreast (quote : Char) (mode : Mode) (escaped : Bool) (text : List Mark) : Prop :=
  mode ≠ .escaped ∧ escaped = false ∧ ¬Continued quote text ∨
    mode = .escaped ∧ escaped = true ∧ (∃ mark, ¬Continued quote (('\\',mark) :: text)) ∨
    mode = .plain ∧ escaped = true ∧ ¬Continued quote text ∧ ∀ c ∈ text.head?, c.1 ≠ '\\' ∧ c.1 ≠ quote

theorem not_continued (quote : Char) (c : Mark) (text : List Mark) (not : ¬Continued quote (c :: text)) :
    ¬Continued quote text := by
  rintro (slash | close)
  · exact not (.inl (slash.trans (List.suffix_cons _ _).isInfix))
  · exact not (.inr (close.trans (List.suffix_cons _ _).isInfix))

theorem abreast_plain (quote : Char) (c : Mark) (text : List Mark) (mode : Mode) (other : mode ≠ .escaped)
    (not : ¬Continued quote (c :: text)) : Abreast quote mode false text :=
  .inl ⟨other,rfl,not_continued quote c text not⟩

/-- After a backslash at a line end the first character of the next line is an ordinary one. -/
theorem abreast_late (quote : Char) (mark : Bool) (c : Mark) (text : List Mark) (line : c.1 = '\n')
    (not : ¬Continued quote (('\\',mark) :: c :: text)) : Abreast quote .plain true text := by
  refine .inr (.inr ⟨rfl,rfl,not_continued quote c text (not_continued quote _ _ not),?_⟩)
  obtain ⟨_,end'⟩ := c
  subst line
  intro next head
  obtain ⟨rest,rfl⟩ : ∃ rest, text = next :: rest := by
    cases text with
    | nil => cases head
    | cons x rest => exact ⟨rest,by rw [Option.some.inj head]⟩
  constructor
  · intro slash
    refine not (.inl ⟨[],rest.map Prod.fst,?_⟩)
    rw [← slash]
    rfl
  · intro same
    refine not (.inr ⟨[],rest.map Prod.fst,?_⟩)
    rw [← same]
    rfl

/-- One character of a string that goes on. -/
theorem closing_step (level : d.Nonnegative) (quote : Char) (c : Mark) (text : List Mark) (escaped next : Bool)
    (stepped : luaMark ⟨d,some quote,escaped⟩ c = ⟨d,some quote,next⟩)
    (later : text.foldl luaMark ⟨d,some quote,next⟩ = outside d ∧ Along luaMark Fine ⟨d,some quote,next⟩ text) :
    (c :: text).foldl luaMark ⟨d,some quote,escaped⟩ = outside d ∧
      Along luaMark Fine ⟨d,some quote,escaped⟩ (c :: text) := by
  rw [List.foldl_cons,Along,stepped]
  exact ⟨later.1,fine_inside d level quote escaped c,later.2⟩

/-- A string that is closed is scanned to its end. -/
theorem closing_scan (level : d.Nonnegative) (quote : Char) (isQuote : quote = '"' ∨ quote = '\'') (text : List Mark)
    (mode : Mode) (escaped : Bool) (n : Nat) (closes : closing quote mode text = some n)
    (abreast : Abreast quote mode escaped (text.take n)) :
    (text.take n).foldl luaMark ⟨d,some quote,escaped⟩ = outside d ∧
      Along luaMark Fine ⟨d,some quote,escaped⟩ (text.take n) := by
  induction text generalizing mode escaped n with
  | nil => cases mode <;> cases closes
  | cons c rest ih =>
    rw [closing] at closes
    have stepped := luaMark_inside d quote escaped c
    -- Not after a backslash; right after one; after the line end that one escapes, where the scan's escape is still to come.
    rcases abreast with ⟨other,rfl,not⟩ | ⟨rfl,rfl,mark,not⟩ | ⟨rfl,rfl,not,head⟩
    · rw [if_neg other] at closes
      split_ifs at closes with skips ends broken slash
      · obtain ⟨m,found,rfl⟩ := Option.map_eq_some_iff.mp closes
        rw [List.take_succ_cons] at not ⊢
        have apart : c.1 ≠ '\\' ∧ c.1 ≠ quote := by
          constructor
          · intro same
            exact absurd skips.2 (same ▸ by decide)
          · rintro rfl
            rcases isQuote with same | same <;> exact absurd skips.2 (same ▸ by decide)
        rw [if_neg apart.1,if_neg apart.2,if_neg Bool.false_ne_true,ite_self] at stepped
        exact closing_step d level quote c _ false false stepped
          (ih .skipping false m found (abreast_plain quote c _ .skipping (by decide) not))
      · cases closes
        have inner : c.1 ≠ '\n' ∧ c.1 ≠ '\\' := by
          rw [ends]
          rcases isQuote with same | same <;> exact same ▸ by decide
        rw [if_neg inner.1,if_neg Bool.false_ne_true,if_neg inner.2,if_pos ends] at stepped
        exact ⟨stepped,fine_inside d level quote false c,trivial⟩
      · obtain ⟨m,found,rfl⟩ := Option.map_eq_some_iff.mp closes
        rw [List.take_succ_cons] at not ⊢
        rw [if_neg (not_or.mp broken).1,if_neg Bool.false_ne_true,if_pos slash] at stepped
        refine closing_step d level quote c _ false true stepped
          (ih .escaped true m found (.inr (.inl ⟨rfl,rfl,c.2,?_⟩)))
        rw [← slash]
        exact not
      · obtain ⟨m,found,rfl⟩ := Option.map_eq_some_iff.mp closes
        rw [List.take_succ_cons] at not ⊢
        rw [if_neg (not_or.mp broken).1,if_neg Bool.false_ne_true,if_neg slash,if_neg ends] at stepped
        exact closing_step d level quote c _ false false stepped
          (ih .plain false m found (abreast_plain quote c _ .plain (by decide) not))
    · rw [if_pos rfl] at closes
      obtain ⟨m,found,rfl⟩ := Option.map_eq_some_iff.mp closes
      rw [List.take_succ_cons] at not ⊢
      by_cases line : c.1 = '\n'
      · rw [if_pos line] at stepped
        rw [if_neg (by rw [line]; decide)] at found
        exact closing_step d level quote c _ true true stepped
          (ih .plain true m found (abreast_late quote mark c _ line not))
      · rw [if_neg line,if_pos rfl] at stepped
        exact closing_step d level quote c _ true false stepped
          (ih _ false m found (abreast_plain quote c _ _ (by split <;> decide) (not_continued quote _ _ not)))
    · rw [if_neg (by decide),if_neg (fun skips => absurd skips.1 (by decide))] at closes
      split_ifs at closes with ends broken slash
      · cases closes
        exact absurd ends (head c rfl).2
      · obtain ⟨m,_,rfl⟩ := Option.map_eq_some_iff.mp closes
        exact absurd slash (head c rfl).1
      · obtain ⟨m,found,rfl⟩ := Option.map_eq_some_iff.mp closes
        rw [List.take_succ_cons] at not ⊢
        rw [if_neg (not_or.mp broken).1,if_pos rfl] at stepped
        exact closing_step d level quote c _ true false stepped
          (ih .plain false m found (abreast_plain quote c _ .plain (by decide) not))

theorem first_cases (c : Mark) (rest : List Mark) :
    ((c.1 = '"' ∨ c.1 = '\'') ∧ ∃ n, closing c.1 .plain rest = some n ∧
      first c rest = (.quoted (c :: rest.take n),rest.drop n)) ∨
    first c rest = (.unclosed (c :: rest),[]) ∧ (c.1 = '"' ∨ c.1 = '\'') ∨
    (∃ text left, first c rest = (.passed text,left)) ∨
    ¬(c.1 = '"' ∨ c.1 = '\'') ∧ first c rest = (.code c,rest) := by
  unfold first
  split_ifs with isQuote dashes bracket
  · cases found : closing c.1 .plain rest with
    | none => exact .inr (.inl ⟨rfl,isQuote⟩)
    | some n => exact .inl ⟨isQuote,n,rfl,rfl⟩
  · exact .inr (.inr (.inl ⟨_,_,rfl⟩))
  · cases level rest with
    | none => exact .inr (.inr (.inr ⟨isQuote,rfl⟩))
    | some n => exact .inr (.inr (.inl ⟨_,_,rfl⟩))
  · exact .inr (.inr (.inr ⟨isQuote,rfl⟩))

theorem code_scan (c : Mark) (plain : ¬(c.1 = '"' ∨ c.1 = '\'')) (read : c.1 = '[' → c.2 = false) :
    luaMark (outside d) c = outside (d.count c.1) := by
  obtain ⟨c,long⟩ := c
  by_cases line : c = '\n'
  · rw [luaMark,if_pos line,line]
    exact congrArg outside (count_other d '\n' (by decide)).symm
  · have no : containsText [] "[[" = false := by decide
    rw [luaMark,if_neg line]
    unfold luaChar outside
    simp only [Bool.false_eq_true,if_false,if_neg plain]
    by_cases bracket : c = '['
    · have short : long = false := read bracket
      rw [short,if_neg Bool.false_ne_true,no]
      exact if_neg (fun both => Bool.false_ne_true both.2)
    · exact if_neg (fun both => bracket both.1)

theorem enter_scan (c : Mark) (isQuote : c.1 = '"' ∨ c.1 = '\'') : luaMark (outside d) c = ⟨d,some c.1,false⟩ := by
  obtain ⟨c,long⟩ := c
  have line : c ≠ '\n' := by
    rcases isQuote with rfl | rfl <;> decide
  rw [luaMark,if_neg line]
  unfold luaChar outside
  simp only [Bool.false_eq_true,if_false,if_pos isQuote]

/-- The scan of the text ends with an Ok. -/
def Accepts (s : LuaScan) (text : List Mark) : Prop :=
  Along luaMark Fine s text ∧ (text.foldl luaMark s).depths = ⟨0,0,0⟩ ∧ (text.foldl luaMark s).inString = none

theorem accepts_append (s : LuaScan) (text rest : List Mark) (along : Along luaMark Fine s text) :
    Accepts s (text ++ rest) ↔ Accepts (text.foldl luaMark s) rest := by
  rw [Accepts,Accepts,along_append,List.foldl_append,and_iff_right along]
  rfl

theorem quoted_scan (level : d.Nonnegative) (c : Mark) (rest : List Mark) (n : Nat) (isQuote : c.1 = '"' ∨ c.1 = '\'')
    (closes : closing c.1 .plain rest = some n) (read : ¬Continued c.1 (c :: rest.take n)) :
    (c :: rest.take n).foldl luaMark (outside d) = outside d ∧ Along luaMark Fine (outside d) (c :: rest.take n) := by
  have inner := closing_scan d level c.1 isQuote rest .plain false n closes
    (abreast_plain c.1 c (rest.take n) .plain (by decide) read)
  rw [List.foldl_cons,Along,Fine,enter_scan d c isQuote]
  exact ⟨inner.1,level,inner.2⟩

/-- The depths that the tokens leave. -/
def Settled (d : Depths) (tokens : List Token) : Prop :=
  (∀ token ∈ tokens, token.isOpen = false) ∧ Covered d (tokens.filterMap Token.char) ∧
    (tokens.filterMap Token.char).foldl Depths.count d = ⟨0,0,0⟩

theorem settled_passed (token : Token) (rest : List Token) (closed : token.isOpen = false) (none : token.char = none) :
    Settled d (token :: rest) ↔ Settled d rest := by
  rw [Settled,Settled,List.forall_mem_cons,and_iff_right closed,List.filterMap_cons,none]

theorem settled_code (c : Mark) (rest : List Token) :
    Settled d (.code c :: rest) ↔ (d.count c.1).Nonnegative ∧ Settled (d.count c.1) rest := by
  have closed : (Token.code c).isOpen = false := rfl
  have char : (Token.code c).char = some c.1 := rfl
  rw [Settled,Settled,List.forall_mem_cons,and_iff_right closed,List.filterMap_cons,char]
  simp only [Covered,Upright,List.foldl_cons]
  constructor
  · rintro ⟨closed,⟨now,later⟩,final⟩
    exact ⟨now,closed,later,final⟩
  · rintro ⟨now,closed,later,final⟩
    exact ⟨closed,⟨now,later⟩,final⟩

/-- By induction on the tokens: the scan is outside of strings between them, at the depths of the code before. -/
theorem tokens_scan (fuel : Nat) (text : List Mark) (enough : text.length ≤ fuel) (level : d.Nonnegative)
    (read : ∀ token ∈ tokensFrom fuel text, token.Read) :
    Accepts (outside d) text ↔ Settled d (tokensFrom fuel text) := by
  induction fuel generalizing d text with
  | zero =>
    rw [List.length_eq_zero_iff.mp (Nat.le_zero.mp enough)]
    simp [Accepts,Settled,tokensFrom,Along,Upright,outside]
  | succ fuel ih =>
    cases text with
    | nil => simp [Accepts,Settled,tokensFrom,Along,Upright,outside]
    | cons c rest =>
      rw [tokensFrom] at read ⊢
      obtain ⟨now,later⟩ := List.forall_mem_cons.mp read
      have shorter := first_shorter c rest
      have whole := first_text c rest
      rw [List.length_cons] at enough
      have next (d : Depths) (level : d.Nonnegative) :
          Accepts (outside d) (first c rest).2 ↔ Settled d (tokensFrom fuel (first c rest).2) :=
        ih d (first c rest).2 (by omega) level later
      rw [← whole]
      -- A closed string, one that is left open, a comment or long string, a character of code.
      rcases first_cases c rest with ⟨isQuote,n,closes,split⟩ | ⟨split,isQuote⟩ | ⟨text,left,split⟩ | ⟨plain,split⟩ <;>
        rw [split] at now next ⊢
      · obtain ⟨stays,along⟩ := quoted_scan d level c rest n isQuote closes (now c rfl)
        rw [settled_passed d _ _ rfl rfl,← next d level]
        exact (accepts_append (outside d) _ _ along).trans (by rw [stays])
      · have open' : ((c :: rest).foldl luaMark (outside d)).inString = some c.1 := by
          rw [List.foldl_cons,enter_scan d c isQuote]
          exact bare_scan d c.1 false rest (now c rfl)
        constructor
        · rintro ⟨-,-,closed⟩
          rw [Token.text,List.append_nil,open'] at closed
          cases closed
        · exact fun settled => absurd (settled.1 _ List.mem_cons_self) (by simp [Token.isOpen])
      · obtain ⟨stays,along⟩ := inert_scan d level text now
        rw [settled_passed d _ _ rfl rfl,← next d level]
        exact (accepts_append (outside d) _ _ along).trans (by rw [stays])
      · have stepped := code_scan d c plain now
        rw [settled_code]
        by_cases fine : (d.count c.1).Nonnegative
        · rw [and_iff_right fine,← next _ fine,← stepped]
          refine accepts_append (outside d) [c] rest ⟨?_,trivial⟩
          rw [Fine,stepped]
          exact fine
        · refine ⟨fun accepted => absurd ?_ fine,fun both => absurd both.1 fine⟩
          have first := accepted.1.1
          rw [Fine,stepped] at first
          exact first

end Tokens

/-- A quoted string is judged for what it is, and so is all the rest, if every token is read so. -/
theorem lua_iff (content : Text) (read : ∀ token ∈ tokens (marked content), token.Read) :
    validateLuaSyntax content = none ↔ LuaBalanced content := by
  rw [validateLuaSyntax_iff,LuaBalanced,Balanced,neverShort_iff]
  exact tokens_scan ⟨0,0,0⟩ _ (marked content) (Nat.le_refl _) (by decide) read

/-! JavaScript and Python: the texts have no string literals, and a comment goes to the end of its line. -/

section Comments

/-- The lines as code and comment. What is code before a comment may have the mark as well, in a block
comment or a regular expression. -/
def Parted (content : Text) (parts : List (Text × Text)) : Prop :=
  lines content = parts.map (fun part => part.1 ++ part.2) ∧ ∀ part ∈ parts, part.2 = [] ∨ "//".toList <+: part.2

/-- No bracket follows the mark in the code. -/
def Bare (code : Text) : Prop := ∀ c ∈ code.drop (cutAt "//".toList code).length, isBracket c = false

theorem cutAt_begins (mark text : Text) : cutAt mark text <+: text := by
  induction text with
  | nil => exact List.prefix_refl []
  | cons c rest ih =>
    rw [cutAt]
    split
    · exact List.nil_prefix
    · exact List.cons_prefix_cons.mpr ⟨rfl,ih⟩

theorem cutAt_append (mark text : Text) : cutAt mark text ++ text.drop (cutAt mark text).length = text :=
  List.prefix_iff_eq_append.mp (cutAt_begins mark text)

/-- The comment does not matter; a single slash before it may be lost. -/
theorem cutAt_comment (code comment : Text) (starts : comment = [] ∨ "//".toList <+: comment) :
    (cutAt "//".toList (code ++ comment)).filter isBracket = (cutAt "//".toList code).filter isBracket := by
  have mark : "//".toList = ['/','/'] := rfl
  rw [mark] at starts ⊢
  induction code with
  | nil =>
    rcases starts with rfl | ⟨rest,rfl⟩
    · rfl
    · rfl
  | cons c code ih =>
    rw [List.cons_append,cutAt,cutAt]
    cases code with
    | nil =>
      rw [List.nil_append] at ih ⊢
      rcases starts with rfl | ⟨rest,rfl⟩
      · rfl
      · by_cases slash : c = '/'
        · subst slash
          rfl
        · have apart : ¬(['/','/'].isPrefixOf (c :: (['/','/'] ++ rest)) = true) := by simp [Ne.symm slash]
          have bare : ¬(['/','/'].isPrefixOf [c] = true) := by simp [List.isPrefixOf]
          rw [if_neg apart,if_neg bare,List.filter_cons,List.filter_cons,ih]
    | cons next code =>
      have same : ['/','/'].isPrefixOf (c :: (next :: code ++ comment)) = ['/','/'].isPrefixOf (c :: next :: code) := by
        simp [List.isPrefixOf]
      rw [same]
      split
      · rfl
      · rw [List.filter_cons,List.filter_cons,ih]

theorem cutAt_brackets (code comment : Text) (starts : comment = [] ∨ "//".toList <+: comment) (bare : Bare code) :
    (cutAt "//".toList (code ++ comment)).filter isBracket = code.filter isBracket := by
  have beyond : (code.drop (cutAt "//".toList code).length).filter isBracket = [] :=
    List.filter_eq_nil_iff.mpr (fun c inside => by rw [bare c inside]; exact Bool.false_ne_true)
  have whole := congrArg (List.filter isBracket) (cutAt_append "//".toList code)
  rw [List.filter_append,beyond,List.append_nil] at whole
  rw [cutAt_comment code comment starts,whole]

/-- The check of JavaScript, where it sees the brackets of the code: it only asks for braces in the end. -/
theorem js_iff (content : Text) (parts : List (Text × Text)) (parted : Parted content parts)
    (bare : ∀ part ∈ parts, Bare part.1) :
    (validateJsSyntax content = none ↔ Balanced (parts.flatMap Prod.fst)) ↔
      (NeverShort (parts.flatMap Prod.fst) → ((parts.flatMap Prod.fst).foldl Depths.count ⟨0,0,0⟩).brace = 0 →
        (parts.flatMap Prod.fst).foldl Depths.count ⟨0,0,0⟩ = ⟨0,0,0⟩) := by
  have same : ((lines content).flatMap (cutAt "//".toList)).filter isBracket =
      (parts.flatMap Prod.fst).filter isBracket := by
    rw [parted.1,List.flatMap_map,List.filter_flatMap,List.filter_flatMap]
    exact List.flatMap_congr (fun part member => cutAt_brackets part.1 part.2 (parted.2 part member) (bare part member))
  obtain ⟨short,level⟩ := same_brackets _ _ same
  have scanned := validateJsSyntax_iff content
  rw [level] at scanned
  have scanned := scanned.trans (and_congr_left (fun _ => short))
  rw [scanned,Balanced]
  constructor
  · exact fun agrees never brace => (agrees.mp ⟨never,brace⟩).2
  · intro rest
    refine and_congr_right (fun never => ⟨rest never,fun zero => ?_⟩)
    rw [zero]

/-- What is code in Python. -/
def pythonCode (content : Text) : Text := (lines content).flatMap (cutAt "#".toList)

def skipped (line : Text) : Bool := (trimStart line).isEmpty || (trimStart line).head? = some '#'

/-- A comment after code has its own brackets balanced. -/
def Trailing (line : Text) : Prop := skipped line = false → Balanced (line.drop (cutAt "#".toList line).length)

theorem skipped_plain (line : Text) (skips : skipped line = true) : (cutAt "#".toList line).filter isBracket = [] := by
  have mark : "#".toList = ['#'] := rfl
  rw [mark]
  induction line with
  | nil => rfl
  | cons c rest ih =>
    unfold skipped trimStart at skips ih
    rw [List.dropWhile_cons] at skips
    rw [cutAt]
    cases space : Provider.Sse.isWhitespace c with
    | true =>
      rw [if_pos space] at skips
      have plain : isBracket c = false := by
        by_contra bracket
        simp only [Bool.not_eq_false,isBracket,List.mem_cons,List.not_mem_nil,or_false,decide_eq_true_eq] at bracket
        rcases bracket with rfl | rfl | rfl | rfl | rfl | rfl <;> exact absurd space (by decide)
      split
      · rfl
      · rw [List.filter_cons,if_neg (by rw [plain]; exact Bool.false_ne_true)]
        exact ih skips
    | false =>
      rw [if_neg (by rw [space]; exact Bool.false_ne_true)] at skips
      have comment : c = '#' := by simpa using skips
      rw [comment]
      rfl

theorem line_scan (d : Depths) (line : Text) (level : d.Nonnegative) (trailing : Trailing line) :
    (if skipped line then [] else line).foldl Depths.count d = (cutAt "#".toList line).foldl Depths.count d ∧
      (Covered d (if skipped line then [] else line) ↔ Covered d (cutAt "#".toList line)) := by
  cases skips : skipped line with
  | true =>
    rw [if_pos rfl,covered_brackets d (cutAt "#".toList line) level,foldl_brackets d (cutAt "#".toList line),
      skipped_plain line skips]
    exact ⟨rfl,Iff.rfl⟩
  | false =>
    obtain ⟨short,zero⟩ := trailing skips
    have short := (neverShort_iff _).mp short
    have whole := (cutAt_append "#".toList line).symm
    generalize line.drop (cutAt "#".toList line).length = comment at short zero whole
    generalize cutAt "#".toList line = code at whole ⊢
    have stays (d : Depths) : comment.foldl Depths.count d = d := by
      have moved := foldl_above d ⟨0,0,0⟩ comment
      rw [zero,above_zero] at moved
      exact moved
    rw [if_neg Bool.false_ne_true,whole,List.foldl_append,stays,Covered,upright_append]
    refine ⟨rfl,and_iff_left_of_imp (fun upright => ?_)⟩
    have moved := covered_above _ ⟨0,0,0⟩ comment (covered_end d code level upright) short
    rw [above_zero] at moved
    exact moved

theorem lines_scan (d : Depths) (rest : List Text) (level : d.Nonnegative) (trailing : ∀ line ∈ rest, Trailing line) :
    Covered d (rest.flatMap (fun line => if skipped line then [] else line)) ↔
      Covered d (rest.flatMap (cutAt "#".toList)) := by
  induction rest generalizing d with
  | nil => rfl
  | cons line rest ih =>
    obtain ⟨here,later⟩ := List.forall_mem_cons.mp trailing
    obtain ⟨same,upright⟩ := line_scan d line level here
    rw [List.flatMap_cons,List.flatMap_cons,Covered,upright_append,Covered,upright_append,same]
    exact (and_congr_left' upright).trans (and_congr_right (fun fine => ih _ (covered_end d _ level fine) later))

theorem python_iff (content : Text) (trailing : ∀ line ∈ lines content, Trailing line) :
    (validatePythonSyntax content = none ↔ Balanced (pythonCode content)) ↔
      (NeverShort (pythonCode content) → (pythonCode content).foldl Depths.count ⟨0,0,0⟩ = ⟨0,0,0⟩) := by
  have scanned := validatePythonSyntax_iff content
  have lines := lines_scan ⟨0,0,0⟩ (lines content) (by decide) trailing
  rw [← neverShort_iff,← neverShort_iff] at lines
  have checked : validatePythonSyntax content = none ↔ NeverShort (pythonCode content) := scanned.trans lines
  rw [checked,Balanced]
  exact ⟨fun agrees never => (agrees.mp never).2,fun rest => (and_iff_left_of_imp rest).symm⟩

end Comments

/-! The three checks together. -/

instance uprightDecidable {σ : Type} (advance : σ → Char → σ) (right : σ → Prop) [∀ s, Decidable (right s)] :
    ∀ s text, Decidable (Upright advance right s text)
  | _, [] => inferInstanceAs (Decidable True)
  | s, c :: rest =>
    have := uprightDecidable advance right (advance s c) rest
    inferInstanceAs (Decidable (right (advance s c) ∧ Upright advance right (advance s c) rest))

instance (code : Text) : Decidable (NeverShort code) := decidable_of_iff _ (neverShort_iff code).symm

instance (code : Text) : Decidable (Balanced code) := inferInstanceAs (Decidable (_ ∧ _))

instance (content : Text) : Decidable (LuaBalanced content) := inferInstanceAs (Decidable (_ ∧ _))

instance (s : LuaScan) (c : Mark) : Decidable (Fine s c) := inferInstanceAs (Decidable (Depths.Nonnegative _))

instance (text : List Mark) : Decidable (Inert text) := inferInstanceAs (Decidable (_ ∧ _))

instance (quote : Char) (text : List Mark) : Decidable (Continued quote text) := inferInstanceAs (Decidable (_ ∨ _))

instance (token : Token) : Decidable token.Read :=
  match token with
  | .code c => inferInstanceAs (Decidable (c.1 = '[' → c.2 = false))
  | .quoted text => inferInstanceAs (Decidable (∀ quote ∈ text.head?, ¬Continued quote.1 text))
  | .unclosed text => inferInstanceAs (Decidable (∀ quote ∈ text.head?, occursBare quote.1 false text.tail = false))
  | .passed text => inferInstanceAs (Decidable (Inert text))

instance (code : Text) : Decidable (Bare code) :=
  decidable_of_iff ((code.drop (cutAt "//".toList code).length).all (fun c => !isBracket c) = true) (by simp [Bare])

instance (line : Text) : Decidable (Trailing line) := inferInstanceAs (Decidable (_ → _))

instance (content : Text) (parts : List (Text × Text)) : Decidable (Parted content parts) :=
  inferInstanceAs (Decidable (_ ∧ _))

/-- Each check judges the brackets of the code where its scan takes comments and strings for what they are; those of
JavaScript and Python besides only where nothing that they do not ask for is left open. -/
theorem judges_code (content : Text) :
    ((∀ token ∈ tokens (marked content), token.Read) → (validateLuaSyntax content = none ↔ LuaBalanced content)) ∧
    (∀ parts, Parted content parts → (∀ part ∈ parts, Bare part.1) →
      ((validateJsSyntax content = none ↔ Balanced (parts.flatMap Prod.fst)) ↔
        (NeverShort (parts.flatMap Prod.fst) → ((parts.flatMap Prod.fst).foldl Depths.count ⟨0,0,0⟩).brace = 0 →
          (parts.flatMap Prod.fst).foldl Depths.count ⟨0,0,0⟩ = ⟨0,0,0⟩))) ∧
    ((∀ line ∈ lines content, Trailing line) →
      ((validatePythonSyntax content = none ↔ Balanced (pythonCode content)) ↔
        (NeverShort (pythonCode content) → (pythonCode content).foldl Depths.count ⟨0,0,0⟩ = ⟨0,0,0⟩))) :=
  ⟨lua_iff content,js_iff content,python_iff content⟩

theorem judges_code_plain : (validateLuaSyntax "f[1] // a".toList = none ↔ LuaBalanced "f[1] // a".toList) ∧
    (validateJsSyntax "f[1] // a".toList = none ↔ Balanced "f[1] ".toList) ∧
    (validatePythonSyntax "f[1] // a".toList = none ↔ Balanced (pythonCode "f[1] // a".toList)) :=
  ⟨(judges_code "f[1] // a".toList).1 (by decide),
    ((judges_code "f[1] // a".toList).2.1 [("f[1] ".toList,"// a".toList)]
      ⟨by decide,List.forall_mem_singleton.mpr (.inr (by decide))⟩
      (List.forall_mem_singleton.mpr (by decide))).mpr (by decide),
    ((judges_code "f[1] // a".toList).2.2 (by decide)).mpr (by decide)⟩

/-- An apostrophe in a comment of Lua, and brackets that are left open. -/
theorem brackets_misjudged : ¬(validateLuaSyntax "-- don't".toList = none ↔ LuaBalanced "-- don't".toList) ∧
    (Parted "f(".toList [("f(".toList,[])] ∧ ¬(validateJsSyntax "f(".toList = none ↔ Balanced "f(".toList)) ∧
    ¬(validatePythonSyntax "f(".toList = none ↔ Balanced (pythonCode "f(".toList)) := by
  decide

end ClawKernel.Tools.Brackets
