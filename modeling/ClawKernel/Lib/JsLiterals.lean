import Mathlib.Data.List.Basic

/-! The string literals, template literals and comments of a JavaScript text, read from its start
one character after another. What stands in the `$\x7b…\x7d` of a template is code again, so that a
template is read in pieces. A regular expression is read as a division is.
-/
namespace ClawKernel.Lib.JsLiterals

/-- What a character stands in; a substitution counts the braces that are open in it. -/
inductive Context where
  | string (quote : Char)
  | template
  | substitution (depth : Nat)
  | line
  | block
  deriving DecidableEq

/-- The contexts, the innermost first; a character before that may make another one of the next: a
backslash or `$` in a literal, `/` in code, `*` in a comment; and the literals, the latest first. -/
structure Scanner where
  contexts : List Context
  held : Option Char
  literals : List (List Char)
  deriving DecidableEq

def Scanner.add (s : Scanner) (c : Char) : Scanner :=
  {s with literals := (s.literals.headD [] ++ [c]) :: s.literals.tail}

def Scanner.opens (s : Scanner) (context : Context) (text : List Char) : Scanner :=
  ⟨context :: s.contexts,none,text :: s.literals⟩

def isLineEnd (c : Char) : Bool := c ∈ ['\n','\r','\u2028','\u2029']

def Scanner.inString (s : Scanner) (quote : Char) (below : List Context) (c : Char) : Scanner :=
  if s.held = some '\\' then {s.add c with held := none}
  else if c = '\\' then {s.add c with held := some '\\'}
  else if c = quote then {s.add c with contexts := below}
  else s.add c

def Scanner.inTemplate (s : Scanner) (below : List Context) (c : Char) : Scanner :=
  if s.held = some '\\' then {s.add c with held := none}
  else if s.held = some '$' ∧ c = '\x7b' then {s.add c with contexts := .substitution 0 :: s.contexts, held := none}
  else if c = '\\' ∨ c = '$' then {s.add c with held := some c}
  else if c = '\x60' then {s.add c with contexts := below, held := none}
  else {s.add c with held := none}

def Scanner.inBlock (s : Scanner) (below : List Context) (c : Char) : Scanner :=
  if s.held = some '*' ∧ c = '/' then {s.add c with contexts := below, held := none}
  else {s.add c with held := if c = '*' then some '*' else none}

/-- A brace in code: the last one of a substitution leads back into its template. -/
def Scanner.brace (s : Scanner) (opening : Bool) : Scanner :=
  match s.contexts,opening with
  | .substitution depth :: below,true => {s with contexts := .substitution (depth + 1) :: below, held := none}
  | .substitution 0 :: below,false => ⟨below,none,['\x7d'] :: s.literals⟩
  | .substitution (depth + 1) :: below,false => {s with contexts := .substitution depth :: below, held := none}
  | _,_ => {s with held := none}

def Scanner.code (s : Scanner) (c : Char) : Scanner :=
  if c = '/' then if s.held = some '/' then s.opens .line ['/','/'] else {s with held := some '/'}
  else if c = '*' ∧ s.held = some '/' then s.opens .block ['/','*']
  else if c = '"' ∨ c = '\'' then s.opens (.string c) [c]
  else if c = '\x60' then s.opens .template [c]
  else if c = '\x7b' then s.brace true
  else if c = '\x7d' then s.brace false
  else {s with held := none}

def Scanner.read (s : Scanner) (c : Char) : Scanner :=
  match s.contexts with
  | .string quote :: below => s.inString quote below c
  | .template :: below => s.inTemplate below c
  | .line :: below => if isLineEnd c then {s with contexts := below} else s.add c
  | .block :: below => s.inBlock below c
  | .substitution _ :: _ => s.code c
  | [] => s.code c

def Scanner.reads (s : Scanner) (text : List Char) : Scanner := text.foldl Scanner.read s

def Scanner.start : Scanner := ⟨[],none,[]⟩

/-- The literals and comments of a text in their order, with their quotes and marks. -/
def literals (text : List Char) : List (List Char) := (Scanner.start.reads text).literals.reverse

/-- The next character is one of code, whatever it is. -/
def Scanner.inCode (s : Scanner) : Bool :=
  s.held = none && match s.contexts with
    | [] => true
    | .substitution _ :: _ => true
    | _ => false

/-- Such a character of code is only that. -/
def isPlain (c : Char) : Bool := c ∉ ['/','"','\'','\x60','\x7b','\x7d']

theorem reads_append (s : Scanner) (text more : List Char) : s.reads (text ++ more) = (s.reads text).reads more :=
  List.foldl_append

theorem reads_cons (s : Scanner) (c : Char) (rest : List Char) : s.reads (c :: rest) = (s.read c).reads rest := rfl

theorem code_of_inCode (s : Scanner) (code : s.inCode = true) (c : Char) : s.read c = s.code c := by
  obtain ⟨contexts,held,literals⟩ := s
  cases contexts with
  | nil => rfl
  | cons context below =>
    cases context with
    | substitution depth => rfl
    | string quote => simp [Scanner.inCode] at code
    | template => simp [Scanner.inCode] at code
    | line => simp [Scanner.inCode] at code
    | block => simp [Scanner.inCode] at code

theorem held_of_inCode (s : Scanner) (code : s.inCode = true) : s.held = none := by
  unfold Scanner.inCode at code
  exact of_decide_eq_true (Bool.and_eq_true_iff.mp code).1

theorem read_plain (s : Scanner) (code : s.inCode = true) (c : Char) (plain : isPlain c = true) : s.read c = s := by
  have held := held_of_inCode s code
  have apart := of_decide_eq_true plain
  simp only [List.mem_cons,List.not_mem_nil,or_false,not_or] at apart
  obtain ⟨slash,double,single,back,opening,closing⟩ := apart
  rw [code_of_inCode s code,Scanner.code,if_neg slash,if_neg (fun both => Option.some_ne_none _ (both.2.symm.trans held)),
    if_neg (not_or.mpr ⟨double,single⟩),if_neg back,if_neg opening,if_neg closing,← held]

theorem reads_plain (s : Scanner) (code : s.inCode = true) (text : List Char) (plain : ∀ c ∈ text, isPlain c = true) :
    s.reads text = s := by
  induction text with
  | nil => rfl
  | cons c rest ih =>
    obtain ⟨here,later⟩ := List.forall_mem_cons.mp plain
    rw [reads_cons,read_plain s code c here]
    exact ih later

/-- An opening brace stands in code, and so does what comes after it. -/
theorem inCode_opening (s : Scanner) (code : s.inCode = true) : (s.read '\x7b').inCode = true := by
  rw [code_of_inCode s code]
  obtain ⟨contexts,held,literals⟩ := s
  cases contexts with
  | nil => rfl
  | cons context below =>
    cases context with
    | substitution depth => rfl
    | string quote => simp [Scanner.inCode] at code
    | template => simp [Scanner.inCode] at code
    | line => simp [Scanner.inCode] at code
    | block => simp [Scanner.inCode] at code

example : literals "f('a//b', /* c */ `x$\x7bg(\"y\")\x7dz`) // end".toList =
    ["'a//b'".toList,"/* c */".toList,"`x$\x7b".toList,"\"y\"".toList,"\x7dz`".toList,"// end".toList] := by
  decide +kernel

end ClawKernel.Lib.JsLiterals
