import Mathlib.Data.List.Infix
import ClawKernel.Lib.Json
import ClawKernel.Provider.Sse

/-! `ToolWatcher::validate`: the four checks of a tool script before it is loaded. Each check
reads the file anew; here they are functions of the text read. What is only logged is left out,
and serde_json's `from_str` is the parameter `fromStr`.
-/
namespace ClawKernel.Tools.Validation
open Lib
open Provider.Sse (isWhitespace trim lines)

abbrev Text := List Char

structure FilePath where
  directory : String
  fileStem : String
  extension : Option String
  deriving DecidableEq, Repr

def FilePath.ext (path : FilePath) : String := path.extension.getD ""

inductive ValidationError where
  | syntaxError (file : FilePath) (message : String)
  | permissionError (file : FilePath) (issue : String)
  | schemaError (file : FilePath) (details : List String)
  | compilationError (file : FilePath) (stderr : String)
  | timeoutError (file : FilePath) (operation : String)
  deriving DecidableEq, Repr

def ValidationError.file : ValidationError → FilePath
  | .syntaxError file _ => file
  | .permissionError file _ => file
  | .schemaError file _ => file
  | .compilationError file _ => file
  | .timeoutError file _ => file

def containsText (text : Text) (part : String) : Bool := decide (part.toList <:+: text)

/-- The text before the first mark, or all of it. -/
def cutAt (mark : Text) : Text → Text
  | [] => []
  | c :: rest => if mark.isPrefixOf (c :: rest) then [] else c :: cutAt mark rest

def afterPrefix (start : String) (text : Text) : Option Text :=
  if start.toList.isPrefixOf text then some (text.drop start.length) else none

/-! Step 1: brackets. -/

structure Depths where
  brace : Int
  bracket : Int
  paren : Int
  deriving DecidableEq, Repr

def Depths.count (d : Depths) (c : Char) : Depths :=
  if c = '\x7b' then { d with brace := d.brace + 1 }
  else if c = '\x7d' then { d with brace := d.brace - 1 }
  else if c = '[' then { d with bracket := d.bracket + 1 }
  else if c = ']' then { d with bracket := d.bracket - 1 }
  else if c = '(' then { d with paren := d.paren + 1 }
  else if c = ')' then { d with paren := d.paren - 1 }
  else d

def unmatched (bracket : String) (line : Nat) : String := "unmatched '" ++ bracket ++ "' at line " ++ toString line

def Depths.negativeLua (d : Depths) (line : Nat) : Option String :=
  if d.brace < 0 then some (unmatched "\x7d" line)
  else if d.bracket < 0 then some (unmatched "]" line)
  else if d.paren < 0 then some (unmatched ")" line)
  else none

def Depths.negativePython (d : Depths) (line : Nat) : Option String :=
  if d.paren < 0 then some (unmatched ")" line)
  else if d.bracket < 0 then some (unmatched "]" line)
  else if d.brace < 0 then some (unmatched "\x7d" line)
  else none

section Scan
variable {σ : Type} (advance : σ → Char → σ) (wrong : σ → Option String)

/-- One character after another, up to the first at which something is wrong. -/
def scanLine (s : σ) : Text → Except String σ
  | [] => .ok s
  | c :: rest =>
    match wrong (advance s c) with
    | some message => .error message
    | none => scanLine (advance s c) rest

end Scan

/-- The lines with their numbers; of each only `code` is scanned. -/
def scanLines {σ : Type} (code : Text → Text) (advance : Text → σ → Char → σ) (wrong : Nat → σ → Option String)
    (number : Nat) (s : σ) : List Text → Except String σ
  | [] => .ok s
  | line :: rest =>
    match scanLine (advance line) (wrong number) s (code line) with
    | .error message => .error message
    | .ok after => scanLines code advance wrong (number + 1) after rest

structure LuaScan where
  depths : Depths
  inString : Option Char
  escaped : Bool
  deriving DecidableEq, Repr

def luaChar (line : Text) (s : LuaScan) (c : Char) : LuaScan :=
  if s.escaped then { s with escaped := false }
  else
    match s.inString with
    | some quote =>
      if c = '\\' then { s with escaped := true }
      else if c = quote then { s with inString := none }
      else s
    | none =>
      if c = '"' ∨ c = '\'' then { s with inString := some c }
      else if c = '[' ∧ containsText line "[[" then s
      else { s with depths := s.depths.count c }

def unclosed (bracket kind : String) (depth : Int) : String :=
  "unclosed '" ++ bracket ++ "' - missing " ++ toString depth ++ " closing " ++ kind

def validateLuaSyntax (content : Text) : Option String :=
  match scanLines id luaChar (fun number s => s.depths.negativeLua number) 1 ⟨⟨0,0,0⟩,none,false⟩ (lines content) with
  | .error message => some message
  | .ok s =>
    if s.depths.brace ≠ 0 then some (unclosed "\x7b" "braces" s.depths.brace)
    else if s.depths.bracket ≠ 0 then some (unclosed "[" "brackets" s.depths.bracket)
    else if s.depths.paren ≠ 0 then some (unclosed "(" "parentheses" s.depths.paren)
    else if s.inString.isSome then some "unclosed string literal"
    else none

def validateJsSyntax (content : Text) : Option String :=
  match scanLines (cutAt "//".toList) (fun _ => Depths.count) (fun number d => d.negativeLua number) 1 ⟨0,0,0⟩
      (lines content) with
  | .error message => some message
  | .ok d => if d.brace ≠ 0 then some (unclosed "\x7b" "braces" d.brace) else none

def trimStart (line : Text) : Text := line.dropWhile isWhitespace

def validatePythonSyntax (content : Text) : Option String :=
  match scanLines (fun line => if (trimStart line).isEmpty || (trimStart line).head? = some '#' then [] else line)
      (fun _ => Depths.count) (fun number d => d.negativePython number) 1 ⟨0,0,0⟩ (lines content) with
  | .error message => some message
  | .ok _ => none

/-- The message of the syntax error, if any. -/
def checkSyntax (ext : String) (content : Text) : Option String :=
  if ext = "lua" then validateLuaSyntax content
  else if ext = "js" ∨ ext = "ts" then validateJsSyntax content
  else if ext = "py" then validatePythonSyntax content
  else none

/-! Step 3: the schema. -/

def splitOnce (c : Char) (text : Text) : Option (Text × Text) :=
  if c ∈ text then some (text.takeWhile (· ≠ c),(text.dropWhile (· ≠ c)).drop 1) else none

def keyed (text : Text) : Option (Text × Text) :=
  (splitOnce ':' text).map (fun each => (trim each.1,trim each.2))

def parseLuaComment (line : Text) : Option (Text × Text) :=
  ["-- @","--- ","-- "].findSome? (fun start => (afterPrefix start line).bind keyed)

/-- The key of the block form keeps its `@`: four characters are skipped of the five. -/
def parseJsComment (line : Text) : Option (Text × Text) :=
  ((afterPrefix "// @" line).bind keyed).or
    (if "/** @".toList.isPrefixOf line then
      let rest := line.drop 4
      if containsText rest " */" then splitOnce ' ' (cutAt " */".toList rest) else none
    else none)

def parsePythonComment (line : Text) : Option (Text × Text) :=
  ["# @","# "].findSome? (fun start => (afterPrefix start line).bind keyed)

/-- The keys with their values; of two lines with one key the later one counts. -/
def extractMetadata (content : Text) : List (Text × Text) :=
  ((lines content).filterMap (fun line =>
    ((parseLuaComment (trim line)).or (parseJsComment (trim line))).or (parsePythonComment (trim line)))).reverse

def isValidSnakeCase (name : Text) : Bool :=
  match name with
  | [] => false
  | first :: _ => (first.isLower || first == '_') && name.all (fun c => c.isLower || c.isDigit || c == '_')

def nameErrors (name : Text) : List String :=
  if isValidSnakeCase name then []
  else ["invalid tool name '" ++ String.ofList name ++ "': must be snake_case (lowercase with underscores)"]

def descriptionErrors (description : Text) : List String :=
  if (trim description).isEmpty then ["description cannot be empty"]
  else if (String.ofList description).utf8ByteSize < 10 then
    ["description too short (" ++ toString (String.ofList description).utf8ByteSize ++
      " chars): should be at least 10 characters"]
  else []

def member (fields : List (String × Json.Value)) (name : String) : Option Json.Value :=
  (fields.find? (fun field => field.1 == name)).map Prod.snd

def propertyErrors : String × Json.Value → Option String
  | (name,.object fields) =>
    if (member fields "type").isSome then none else some ("parameter '" ++ name ++ "' missing 'type' field")
  | _ => none

section Schema
variable (fromStr : String → Except String Json.Value)

def parameterErrors (parameters : Text) : List String :=
  match fromStr (String.ofList parameters) with
  | .error message => ["invalid JSON schema for parameters: " ++ message]
  | .ok (.object fields) =>
    match member fields "properties" with
    | some (.object properties) => properties.filterMap propertyErrors
    | _ => []
  | .ok _ => []

def schemaErrors (content : Text) : List String :=
  let metadata := extractMetadata content
  let field (name : String) := (metadata.lookup name.toList).toList
  ["name","description","parameters"].flatMap (fun name =>
      if (metadata.lookup name.toList).isSome then [] else ["missing required field: " ++ name]) ++
    (field "name").flatMap nameErrors ++ (field "description").flatMap descriptionErrors ++
      (field "parameters").flatMap (parameterErrors fromStr)

end Schema

/-! Step 4: compilation in isolation. -/

def compileLua (content : Text) : Option String :=
  if (lines content).any (fun line => containsText (cutAt "--".toList line) "function") then none
  else some "tool script must contain at least one function definition"

def indent (line : Text) : Nat :=
  (String.ofList line).utf8ByteSize - (String.ofList (trimStart line)).utf8ByteSize

/-- The indentation may grow by multiples of four only. -/
def indentation (number : Nat) (prevIndent : Option Nat) : List Text → Option String
  | [] => none
  | line :: rest =>
    if (trim line).isEmpty || (trim line).head? = some '#' then indentation (number + 1) prevIndent rest
    else if prevIndent.any (fun prev => decide (indent line > prev) && decide ((indent line - prev) % 4 ≠ 0)) then
      some ("inconsistent indentation at line " ++ toString number ++ ": expected multiple of 4")
    else indentation (number + 1) (some (indent line)) rest

def compilePython (content : Text) : Option String :=
  if containsText content "def " then indentation 1 none (lines content)
  else some "Python tool must contain at least one function definition"

def compileInIsolation (ext : String) (content : Text) : Option String :=
  if ext = "lua" then compileLua content
  else if ext = "js" ∨ ext = "ts" then none
  else if ext = "py" then compilePython content
  else none

/-! What the bracket scan accepts. -/

section Accepted
variable {σ : Type} (advance : σ → Char → σ) (right : σ → Prop)

/-- After every character it is right. -/
def Upright (s : σ) : Text → Prop
  | [] => True
  | c :: rest => right (advance s c) ∧ Upright (advance s c) rest

theorem upright_append (s : σ) (text more : Text) :
    Upright advance right s (text ++ more) ↔
      Upright advance right s text ∧ Upright advance right (text.foldl advance s) more := by
  induction text generalizing s with
  | nil => exact (and_iff_right trivial).symm
  | cons c rest ih =>
    rw [List.cons_append,Upright,Upright,ih,List.foldl_cons,and_assoc]

theorem upright_iff_begins (s : σ) (text : Text) (initially : right s) :
    Upright advance right s text ↔ ∀ before, before <+: text → right (before.foldl advance s) := by
  induction text generalizing s with
  | nil =>
    constructor
    · intro _ before start
      rw [List.prefix_nil.mp start]
      exact initially
    · exact fun _ => trivial
  | cons c rest ih =>
    constructor
    · rintro ⟨now,later⟩ before start
      cases before with
      | nil => exact initially
      | cons d before =>
        obtain ⟨rfl,tail⟩ := List.cons_prefix_cons.mp start
        exact (ih _ now).mp later before tail
    · intro all
      have now : right (advance s c) := all [c] (List.cons_prefix_cons.mpr ⟨rfl,List.nil_prefix⟩)
      exact ⟨now,(ih _ now).mpr (fun before start => all (c :: before) (List.cons_prefix_cons.mpr ⟨rfl,start⟩))⟩

theorem scanLine_ok_iff (wrong : σ → Option String) (clean : ∀ s, wrong s = none ↔ right s) (s after : σ) (text : Text) :
    scanLine advance wrong s text = .ok after ↔ Upright advance right s text ∧ text.foldl advance s = after := by
  induction text generalizing s with
  | nil =>
    rw [scanLine,Except.ok.injEq]
    exact (and_iff_right trivial).symm
  | cons c rest ih =>
    rw [scanLine,Upright,List.foldl_cons]
    cases found : wrong (advance s c) with
    | some message =>
      have bad : ¬right (advance s c) := by
        rw [← clean,found]
        exact Option.some_ne_none message
      exact ⟨(fun clash => by cases clash),fun both => absurd both.1.1 bad⟩
    | none =>
      dsimp only
      rw [ih,and_iff_right ((clean _).mp found)]

theorem scanLines_ok_iff (code : Text → Text) (wrong : Nat → σ → Option String)
    (clean : ∀ number s, wrong number s = none ↔ right s) (number : Nat) (s after : σ) (rest : List Text) :
    scanLines code (fun _ => advance) wrong number s rest = .ok after ↔
      Upright advance right s (rest.flatMap code) ∧ (rest.flatMap code).foldl advance s = after := by
  induction rest generalizing number s with
  | nil =>
    rw [scanLines,Except.ok.injEq]
    exact (and_iff_right trivial).symm
  | cons line rest ih =>
    rw [scanLines,List.flatMap_cons,upright_append,List.foldl_append]
    cases scanned : scanLine advance (wrong number) s (code line) with
    | error message =>
      have bad : ¬Upright advance right s (code line) := by
        intro upright
        have fine := (scanLine_ok_iff advance right (wrong number) (clean number) s _ (code line)).mpr ⟨upright,rfl⟩
        rw [scanned] at fine
        cases fine
      exact ⟨(fun clash => by cases clash),fun both => absurd both.1.1 bad⟩
    | ok reached =>
      obtain ⟨upright,same⟩ := (scanLine_ok_iff advance right (wrong number) (clean number) s reached (code line)).mp scanned
      dsimp only
      rw [ih,same,and_iff_right upright]

end Accepted

def Depths.Nonnegative (d : Depths) : Prop := 0 ≤ d.brace ∧ 0 ≤ d.bracket ∧ 0 ≤ d.paren

instance (d : Depths) : Decidable d.Nonnegative := inferInstanceAs (Decidable (_ ∧ _))

theorem negativeLua_none_iff (line : Nat) (d : Depths) : d.negativeLua line = none ↔ d.Nonnegative := by
  unfold Depths.negativeLua Depths.Nonnegative
  split_ifs <;> simp <;> omega

theorem negativePython_none_iff (line : Nat) (d : Depths) : d.negativePython line = none ↔ d.Nonnegative := by
  unfold Depths.negativePython Depths.Nonnegative
  split_ifs <;> simp <;> omega

/-- No start of the code closes a bracket that is not open, and the braces are closed. -/
theorem validateJsSyntax_iff (content : Text) :
    validateJsSyntax content = none ↔
      (∀ before, before <+: (lines content).flatMap (cutAt "//".toList) → (before.foldl Depths.count ⟨0,0,0⟩).Nonnegative) ∧
        (((lines content).flatMap (cutAt "//".toList)).foldl Depths.count ⟨0,0,0⟩).brace = 0 := by
  have scanned := scanLines_ok_iff Depths.count Depths.Nonnegative (cutAt "//".toList)
    (fun number d => d.negativeLua number) negativeLua_none_iff 1 ⟨0,0,0⟩
  rw [← upright_iff_begins Depths.count Depths.Nonnegative ⟨0,0,0⟩ _ (by decide)]
  unfold validateJsSyntax
  split
  · rename_i message failed
    refine ⟨(fun clash => by cases clash),fun both => ?_⟩
    rw [(scanned _ (lines content)).mpr ⟨both.1,rfl⟩] at failed
    cases failed
  · rename_i d passed
    obtain ⟨upright,same⟩ := (scanned d (lines content)).mp passed
    rw [same,and_iff_right upright]
    split
    · rename_i deep
      exact ⟨(fun clash => by cases clash),fun level => absurd level deep⟩
    · rename_i level
      exact ⟨fun _ => not_not.mp level,fun _ => rfl⟩

theorem validatePythonSyntax_iff (content : Text) :
    validatePythonSyntax content = none ↔
      ∀ before, before <+: (lines content).flatMap (fun line =>
          if (trimStart line).isEmpty || (trimStart line).head? = some '#' then [] else line) →
        (before.foldl Depths.count ⟨0,0,0⟩).Nonnegative := by
  have scanned := scanLines_ok_iff Depths.count Depths.Nonnegative
    (fun line => if (trimStart line).isEmpty || (trimStart line).head? = some '#' then [] else line)
    (fun number d => d.negativePython number) negativePython_none_iff 1 ⟨0,0,0⟩
  rw [← upright_iff_begins Depths.count Depths.Nonnegative ⟨0,0,0⟩ _ (by decide)]
  unfold validatePythonSyntax
  split
  · rename_i message failed
    refine ⟨(fun clash => by cases clash),fun upright => ?_⟩
    rw [(scanned _ (lines content)).mpr ⟨upright,rfl⟩] at failed
    cases failed
  · rename_i d passed
    exact ⟨fun _ => ((scanned d (lines content)).mp passed).1,fun _ => rfl⟩

/-- The text passes all checks that look at it. -/
structure Passes (fromStr : String → Except String Json.Value) (ext : String) (content : Text) : Prop where
  syntactic : checkSyntax ext content = none
  schema : schemaErrors fromStr content = []
  compiles : compileInIsolation ext content = none

end ClawKernel.Tools.Validation
