import ClawKernel.Lib.Addresses
import ClawKernel.Lib.Rewriting
import ClawKernel.Tools.Validation

/-! `strip_typescript_types`: the thirteen steps of the transpiler, each a pattern whose matches in
the text are replaced. `isWord` are the characters of `\w`, which are those of the Unicode tables.
-/
namespace ClawKernel.Script.Transpile
open Lib Lib.Regex Lib.Rewriting
open Provider.Sse (isWhitespace trim)
open Tools.Validation (Text containsText splitOnce)

section Patterns

def space : Regex := .one isWhitespace

def spaces : Regex := .star space

/-- `[A-Za-z_]` -/
def isNameStart (c : Char) : Bool := c.isAlpha || c = '_'

/-- `[A-Za-z0-9_]` -/
def isNameChar (c : Char) : Bool := isNameStart c || c.isDigit

/-- `[A-Za-z0-9_<>,\s\[\]|&]` -/
def isTypeChar (c : Char) : Bool := isNameChar c || isWhitespace c || c ∈ ['<','>',',','[',']','|','&']

def name : Regex := .seq (.one isNameStart) (.star (.one isNameChar))

def typeName : Regex := .seq (.one isNameStart) (.star (.one isTypeChar))

/-- The matches are removed. -/
def removed (items : List Regex) : Stage := ⟨concat items,fun _ _ => []⟩

def typeImports : Stage :=
  removed [word "import",plus space,word "type",plus space,plus (.one (· != ';')),literal ';',spaces,optional (literal '\n')]

def interfaces (isWord : Char → Bool) : Stage :=
  removed [word "interface",plus space,plus (.one isWord),spaces,literal '\x7b',
    .star (.one (fun c => c != '\x7b' && c != '\x7d')),literal '\x7d',spaces,optional (literal '\n')]

def typeAliases (isWord : Char → Bool) : Stage :=
  removed [word "type",plus space,plus (.one isWord),spaces,literal '=',spaces,plus (.one (· != ';')),literal ';',spaces,
    optional (literal '\n')]

def genericParams : Stage where
  regex := concat [literal '<',name,.star (concat [literal ',',spaces,name]),literal '>',
    .group 1 (.seq spaces (literal '('))]
  fresh _ group := group 1

def looksLikeType (typePart : Text) : Bool :=
  containsText typePart "number" || containsText typePart "string" || containsText typePart "boolean" ||
    containsText typePart "\x7b" || containsText typePart "[" || containsText typePart "<"

def removeParamTypes : Stage where
  regex := concat [
    .group 1 (.seq (.one (fun c => isNameStart c || c = '$')) (.star (.one (fun c => isNameChar c || c = '$')))),
    spaces,literal ':',spaces,.group 2 typeName]
  fresh found group := if looksLikeType (group 2) then group 1 else found

def returnTypes : Stage where
  regex := concat [literal ')',spaces,literal ':',spaces,typeName,spaces,literal '\x7b']
  fresh _ _ := [')',' ','\x7b']

def asAssertions : Stage :=
  removed [plus space,word "as",plus space,.one isNameStart,plus (.one isTypeChar)]

def angleAssertions : Stage where
  regex := concat [literal '<',.group 1 name,literal '>',.group 2 (.one (fun c => isNameStart c || c = '$'))]
  fresh _ group := group 2

/-- `str::replace` by one space. -/
def modifier (text : String) : Stage := ⟨word text,fun _ _ => [' ']⟩

end Patterns

/-! Step 13: enums. -/

/-- Overflow as in a release build. -/
def wrapI32 (n : Int) : Int := (n + 2147483648) % 4294967296 - 2147483648

def digitsValue (digits : Text) : Option Nat := if digits = [] then none else Addresses.readDigits 10 0 digits

/-- `str::parse::<i32>` -/
def parseI32 : Text → Option Int
  | '-' :: digits => ((digitsValue digits).filter (· ≤ 2147483648)).map (fun n => -(n : Int))
  | '+' :: digits => ((digitsValue digits).filter (· < 2147483648)).map (fun n => (n : Int))
  | digits => ((digitsValue digits).filter (· < 2147483648)).map (fun n => (n : Int))

/-- What a member becomes, and the counter after it. -/
def enumMember (counter : Int) (member : Text) : Int × Text :=
  match splitOnce '=' member with
  | some (memberName,value) =>
    (match parseI32 (trim value) with
      | some num => wrapI32 (num + 1)
      | none => counter,
      trim memberName ++ [':',' '] ++ trim value)
  | none => (wrapI32 (counter + 1),member ++ [':',' '] ++ (toString counter).toList)

def enumMembers : Int → List Text → List Text
  | _, [] => []
  | counter, member :: rest => (enumMember counter member).2 :: enumMembers (enumMember counter member).1 rest

def members (body : Text) : List Text :=
  ((Pieces.pieces (· == ',') body).map trim).filter (fun member => !member.isEmpty)

def constObject (enumName body : Text) : Text :=
  "const ".toList ++ enumName ++ " = \x7b ".toList ++ [',',' '].intercalate (enumMembers 0 (members body)) ++ " \x7d;".toList

def convertEnums (isWord : Char → Bool) : Stage where
  regex := concat [word "enum",plus space,.group 1 (plus (.one isWord)),spaces,literal '\x7b',
    .group 2 (.star (.one (· != '\x7d'))),literal '\x7d']
  fresh _ group := constObject (group 1) (group 2)

/-- The steps in their order. -/
def stages (isWord : Char → Bool) : List Stage :=
  [typeImports,interfaces isWord,typeAliases isWord,genericParams,removeParamTypes,returnTypes,asAssertions,angleAssertions,
    modifier "readonly ",modifier "public ",modifier "private ",modifier "protected ",modifier "declare ",
    modifier "abstract ",convertEnums isWord]

def stripTypescriptTypes (isWord : Char → Bool) (source : Text) : Text :=
  (stages isWord).foldl (fun result stage => stage.apply result) source

end ClawKernel.Script.Transpile
