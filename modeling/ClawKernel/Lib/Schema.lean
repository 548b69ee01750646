import ClawKernel.Lib.Json

/-! Which JSON values a type with derived decoding accepts. A record is read from an
object, where unknown members are ignored, or from an array with one item for each
field. An optional field may be missing or null; a defaulted one may be missing.
-/
namespace ClawKernel.Lib.Schema
open Lib.Json

inductive Presence where
  | required
  | optional
  | defaulted
  deriving DecidableEq, Repr

inductive Kind where
  | text
  | any
  | flag
  | unsigned (bits : Nat)
  | list (item : Kind)
  | variant (names : List String)
  | record (fields : List (String × Presence × Kind))
  deriving Repr

abbrev Fields := List (String × Presence × Kind)

mutual
def Kind.accepts : Kind → Value → Bool
  | .text, .string _ => true
  | .any, _ => true
  | .flag, .bool _ => true
  | .unsigned bits, .integer value => 0 ≤ value && value < 2 ^ bits
  | .list item, .array items => items.all (fun value => item.accepts value)
  | .variant names, .string name => names.contains name
  | .variant names, .object [(name,.null)] => names.contains name
  | .record fields, .object members => acceptsMembers fields members
  | .record fields, .array items => acceptsItems fields items
  | _, _ => false

def acceptsMembers : Fields → List (String × Value) → Bool
  | [], _ => true
  | (name,presence,kind) :: rest, members =>
    (match members.lookup name,presence with
      | some .null,.optional => true
      | some value,_ => kind.accepts value
      | none,.required => false
      | none,_ => true) && acceptsMembers rest members

def acceptsItems : Fields → List Value → Bool
  | [], [] => true
  | [], _ :: _ => false
  | (_,presence,_) :: rest, [] => presence = .defaulted && acceptsItems rest []
  | (_,presence,kind) :: rest, value :: items =>
    (match value,presence with
      | .null,.optional => true
      | value,_ => kind.accepts value) && acceptsItems rest items
end

def fieldOf (name : String) : Fields → Value → Option Value
  | _, .object members => members.lookup name
  | fields, .array items => items[fields.findIdx (fun field => field.1 = name)]?
  | _, _ => none

def textOf (name : String) (fields : Fields) (value : Value) : String :=
  match fieldOf name fields value with
  | some (.string text) => text
  | _ => ""

end ClawKernel.Lib.Schema
