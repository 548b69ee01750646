import Mathlib.Data.Nat.Notation

/-! JSON values and their compact text. An object keeps its members in the order in
which they are written. Integers are exact; a float is kept as its text.
-/
namespace ClawKernel.Lib.Json

inductive Value where
  | null
  | bool (value : Bool)
  | integer (value : Int)
  | float (text : String)
  | string (text : String)
  | array (items : List Value)
  | object (members : List (String × Value))
  deriving Repr

def hexDigit (n : Nat) : Char := Char.ofNat (if n < 10 then 48 + n else 87 + n)

def escape (c : Char) : List Char :=
  if c = '"' then ['\\','"']
  else if c = '\\' then ['\\','\\']
  else if c = '\n' then ['\\','n']
  else if c = '\r' then ['\\','r']
  else if c = '\t' then ['\\','t']
  else if c = Char.ofNat 8 then ['\\','b']
  else if c = Char.ofNat 12 then ['\\','f']
  else if c.toNat < 32 then ['\\','u','0','0',hexDigit (c.toNat / 16),hexDigit (c.toNat % 16)]
  else [c]

def quoted (text : String) : List Char := '"' :: text.toList.flatMap escape ++ ['"']

def separated : List (List Char) → List Char
  | [] => []
  | [part] => part
  | part :: next :: rest => part ++ ',' :: separated (next :: rest)

mutual
def Value.chars : Value → List Char
  | .null => "null".toList
  | .bool true => "true".toList
  | .bool false => "false".toList
  | .integer value => (toString value).toList
  | .float text => text.toList
  | .string text => quoted text
  | .array items => '[' :: separated (itemChars items) ++ [']']
  | .object members => '\x7b' :: separated (memberChars members) ++ ['\x7d']

def itemChars : List Value → List (List Char)
  | [] => []
  | item :: rest => item.chars :: itemChars rest

def memberChars : List (String × Value) → List (List Char)
  | [] => []
  | (name,value) :: rest => (quoted name ++ ':' :: value.chars) :: memberChars rest
end

def Value.text (value : Value) : String := String.ofList value.chars

/-- `Value::get` by a member's name. -/
def Value.get (name : String) : Value → Option Value
  | .object members => members.lookup name
  | _ => none

def Value.asStr : Value → Option String
  | .string text => some text
  | _ => none

mutual
/-- Equality of values, members in the same order. -/
def Value.same : Value → Value → Bool
  | .null, .null => true
  | .bool a, .bool b => a == b
  | .integer a, .integer b => a == b
  | .float a, .float b => a == b
  | .string a, .string b => a == b
  | .array a, .array b => sameItems a b
  | .object a, .object b => sameMembers a b
  | _, _ => false

def sameItems : List Value → List Value → Bool
  | [], [] => true
  | a :: as, b :: bs => a.same b && sameItems as bs
  | _, _ => false

def sameMembers : List (String × Value) → List (String × Value) → Bool
  | [], [] => true
  | (m,a) :: as, (n,b) :: bs => m == n && a.same b && sameMembers as bs
  | _, _ => false
end

mutual
/-- Equality of values, members in any order. -/
def Value.equals : Value → Value → Bool
  | .null, .null => true
  | .bool a, .bool b => a == b
  | .integer a, .integer b => a == b
  | .float a, .float b => a == b
  | .string a, .string b => a == b
  | .array a, .array b => equalItems a b
  | .object a, .object b => a.length == b.length && equalMembers a b
  | _, _ => false

def equalItems : List Value → List Value → Bool
  | [], [] => true
  | a :: as, b :: bs => a.equals b && equalItems as bs
  | _, _ => false

def equalMembers : List (String × Value) → List (String × Value) → Bool
  | [], _ => true
  | (name,a) :: as, bs => (match bs.lookup name with | some b => a.equals b | none => false) && equalMembers as bs
end

mutual
/-- How deep arrays and objects are nested. -/
def Value.depth : Value → Nat
  | .array items => itemsDepth items + 1
  | .object members => membersDepth members + 1
  | _ => 0

def itemsDepth : List Value → Nat
  | [] => 0
  | item :: rest => max item.depth (itemsDepth rest)

def membersDepth : List (String × Value) → Nat
  | [] => 0
  | (_,value) :: rest => max value.depth (membersDepth rest)
end

theorem depth_le_members (name : String) (value : Value) (members : List (String × Value))
    (member : (name,value) ∈ members) : value.depth ≤ membersDepth members := by
  induction members with
  | nil => cases member
  | cons head rest ih =>
    rw [membersDepth]
    cases List.mem_cons.mp member with
    | inl first =>
      rw [← first]
      exact Nat.le_max_left _ _
    | inr later => exact Nat.le_trans (ih later) (Nat.le_max_right _ _)

theorem mem_of_lookup (name : String) (value : Value) (members : List (String × Value))
    (found : members.lookup name = some value) : (name,value) ∈ members := by
  induction members with
  | nil => cases found
  | cons head rest ih =>
    rw [List.lookup_cons] at found
    split at found
    · rename_i same
      rw [← Option.some_inj.mp found,eq_of_beq same]
      exact List.mem_cons_self
    · exact List.mem_cons_of_mem head (ih found)

mutual
/-- Equal values are nested equally deep; this half needs no more than one lookup each. -/
theorem depth_le_of_equals : ∀ a b : Value, a.equals b = true → a.depth ≤ b.depth
  | .null, _, _ => Nat.zero_le _
  | .bool _, _, _ => Nat.zero_le _
  | .integer _, _, _ => Nat.zero_le _
  | .float _, _, _ => Nat.zero_le _
  | .string _, _, _ => Nat.zero_le _
  | .array as, .array bs, equal => Nat.succ_le_succ (itemsDepth_le as bs equal)
  | .object as, .object bs, equal =>
    Nat.succ_le_succ (membersDepth_le as bs (Bool.and_eq_true_iff.mp equal).2)

theorem itemsDepth_le : ∀ as bs : List Value, equalItems as bs = true → itemsDepth as ≤ itemsDepth bs
  | [], _, _ => Nat.zero_le _
  | a :: as, b :: bs, equal => by
    obtain ⟨head,rest⟩ := Bool.and_eq_true_iff.mp equal
    have first := depth_le_of_equals a b head
    have later := itemsDepth_le as bs rest
    rw [itemsDepth,itemsDepth]
    omega

theorem membersDepth_le : ∀ as bs : List (String × Value), equalMembers as bs = true → membersDepth as ≤ membersDepth bs
  | [], _, _ => Nat.zero_le _
  | (name,a) :: as, bs, equal => by
    obtain ⟨head,rest⟩ := Bool.and_eq_true_iff.mp equal
    have later := membersDepth_le as bs rest
    rw [membersDepth]
    cases found : bs.lookup name with
    | none =>
      rw [found] at head
      cases head
    | some b =>
      rw [found] at head
      have first := depth_le_of_equals a b head
      have inside := depth_le_members name b bs (mem_of_lookup name b bs found)
      omega
end

theorem chars_object (members : List (String × Value)) :
    ∃ rest, (Value.object members).chars = '\x7b' :: rest := by
  exact ⟨_,by rw [Value.chars,List.cons_append]⟩

example : (Value.object [("id",.integer 1),("error",.string "a\"b"),("list",.array [.null,.bool true])]).text =
    "\x7b\"id\":1,\"error\":\"a\\\"b\",\"list\":[null,true]\x7d" := by decide

end ClawKernel.Lib.Json
