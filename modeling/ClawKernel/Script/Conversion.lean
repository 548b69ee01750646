import ClawKernel.Lib.Serde
import Mathlib.Data.Fintype.Card
import Mathlib.Data.Fintype.EquivFin
import Mathlib.Logic.Relation
import Mathlib.Order.WellFounded

/-! JSON and Lua values: the two conversions of the bridge over a heap of tables. A JSON value is
read back from the tables made of it where none of it is lost in them, and reading tables comes
to an end where none of them contains itself.
-/
namespace ClawKernel.Script.Conversion
open Lib Lib.Serde

/-- `bytes` are strings that are not UTF-8. -/
inductive LuaString where
  | text (value : String)
  | bytes (value : List UInt8)
  deriving DecidableEq

/-- `other` are keys of the other types. -/
inductive Key where
  | string (value : LuaString)
  | integer (value : Int)
  | other (identity : Nat)
  deriving DecidableEq

/-- A table is known by its number. `other` are functions, userdata and the like. -/
inductive LuaValue (F : Type) where
  | nil
  | boolean (value : Bool)
  | integer (value : Int)
  | number (value : F)
  | string (value : LuaString)
  | table (ref : Nat)
  | other

/-- The keys with their values, none of which is nil. -/
abbrev Table (F : Type) := List (Key × LuaValue F)

abbrev Heap (F : Type) := List (Table F)

/-- A length of a table: its last key before a gap. -/
def Border (keys : List Key) (n : Nat) : Prop := (n = 0 ∨ .integer n ∈ keys) ∧ .integer (n + 1) ∉ keys

/-- What the interpreter is free to do: which border it finds and in what order it gives the pairs of a
table; and its numbers, with the text of those that are finite. -/
structure Lua (F : Type) where
  asF64 : Int → F
  parsed : String → F
  numberText : F → Option String
  rawLen : List Key → Nat
  border : ∀ keys, Border keys (rawLen keys)
  pairs : Table F → Table F
  paired : ∀ t, (pairs t).Perm t

variable {F : Type}

def Table.keys (t : Table F) : List Key := t.map Prod.fst

def Table.get (t : Table F) (key : Key) : LuaValue F := (t.lookup key).getD .nil

/-- A nil takes the key out. -/
def Table.set (t : Table F) (key : Key) (value : LuaValue F) : Table F :=
  match value with
  | .nil => t.filter (fun entry => entry.1 ≠ key)
  | value => t.filter (fun entry => entry.1 ≠ key) ++ [(key,value)]

def Heap.at (heap : Heap F) (ref : Nat) : Table F := heap[ref]?.getD []

def rawSet (heap : Heap F) (ref : Nat) (key : Key) (value : LuaValue F) : Heap F := heap.modify ref (·.set key value)

def i64Min : Int := -9223372036854775808

def i64Max : Int := 9223372036854775807

def IsI64 (i : Int) : Prop := i64Min ≤ i ∧ i ≤ i64Max

instance (i : Int) : Decidable (IsI64 i) := inferInstanceAs (Decidable (i64Min ≤ i ∧ i ≤ i64Max))

variable (lua : Lua F)

mutual
def jsonToLua (depth : Nat) : Json.Value → Heap F → LuaValue F × Heap F
  | value, heap =>
    if depth > 32 then (.nil,heap)
    else
      match value with
      | .null => (.nil,heap)
      | .bool b => (.boolean b,heap)
      | .integer i => (if IsI64 i then .integer i else .number (lua.asF64 i),heap)
      | .float text => (.number (lua.parsed text),heap)
      | .string s => (.string (.text s),heap)
      | .array items => (.table heap.length,setItems depth heap.length 0 items (heap ++ [[]]))
      | .object members => (.table heap.length,setMembers depth heap.length members (heap ++ [[]]))

def setItems (depth ref : Nat) : Nat → List Json.Value → Heap F → Heap F
  | _, [], heap => heap
  | i, item :: rest, heap =>
    let converted := jsonToLua (depth + 1) item heap
    setItems depth ref (i + 1) rest (rawSet converted.2 ref (.integer (i + 1)) converted.1)

def setMembers (depth ref : Nat) : List (String × Json.Value) → Heap F → Heap F
  | [], heap => heap
  | (name,value) :: rest, heap =>
    let converted := jsonToLua (depth + 1) value heap
    setMembers depth ref rest (rawSet converted.2 ref (.string (.text name)) converted.1)
end

/-- A number that is not finite is null. -/
def Lua.toJson (f : F) : Json.Value :=
  match lua.numberText f with
  | some text => .float text
  | none => .null

def LuaString.toStr : LuaString → String
  | .text value => value
  | .bytes _ => ""

def keyText : Key → Option String
  | .string value => some value.toStr
  | .integer value => some (toString value)
  | .other _ => none

/-- The values of an array, if the table is taken for one; none of them fails to be read. -/
def elements (t : Table F) : List (LuaValue F) :=
  (List.range (lua.rawLen t.keys)).map (fun i : Nat => t.get (.integer (i + 1)))

/-- The entries of an object, with the texts of their keys. -/
def fields (t : Table F) : List (String × LuaValue F) :=
  (lua.pairs t).filterMap (fun entry => (keyText entry.1).map (·,entry.2))

def luaToJson (heap : Heap F) (fuel : Nat) (value : LuaValue F) : Option Json.Value :=
  match value with
  | .nil => some .null
  | .boolean b => some (.bool b)
  | .integer i => some (.integer i)
  | .number f => some (lua.toJson f)
  | .string s => some (.string s.toStr)
  | .table ref =>
    match fuel with
    | 0 => none
    | fuel + 1 =>
      if 0 < lua.rawLen (heap.at ref).keys then
        ((elements lua (heap.at ref)).mapM (luaToJson heap fuel)).map .array
      else
        ((fields lua (heap.at ref)).mapM (fun entry => (luaToJson heap fuel entry.2).map (entry.1,·))).map
          (fun read => .object (read.foldl assign []))
  | .other => some .null

/-- The result once there is fuel enough for it. -/
def Settles {α β : Type} (eval : Nat → α → Option β) (a : α) (b : β) : Prop :=
  ∃ fuel, ∀ more, fuel ≤ more → eval more a = some b

def Converts (heap : Heap F) : LuaValue F → Json.Value → Prop := Settles (luaToJson lua heap)

/-- The table has the other one among its values. -/
def Has (heap : Heap F) (ref other : Nat) : Prop := ∃ key, (key,.table other) ∈ heap.at ref

/-- No table that is reached contains itself, in one step or in many. -/
def Grounded (heap : Heap F) (value : LuaValue F) : Prop :=
  ∀ root, value = .table root → ∀ ref, Relation.ReflTransGen (Has heap) root ref → ¬Relation.TransGen (Has heap) ref ref

section Reading

theorem settles_mapM {α β : Type} (eval : Nat → α → Option β) (l : List α) (bs : List β)
    (each : List.Forall₂ (Settles eval) l bs) : ∃ fuel, ∀ more, fuel ≤ more → l.mapM (eval more) = some bs := by
  induction each with
  | nil => exact ⟨0,fun _ _ => rfl⟩
  | cons head _ ih =>
    obtain ⟨fuel,first⟩ := head
    obtain ⟨fuel',later⟩ := ih
    refine ⟨max fuel fuel',fun more enough => ?_⟩
    rw [List.mapM_cons,first more (by omega),later more (by omega)]
    rfl

variable (heap : Heap F)

theorem converts_array (ref : Nat) (js : List Json.Value) (array : 0 < lua.rawLen (heap.at ref).keys)
    (each : List.Forall₂ (Converts lua heap) (elements lua (heap.at ref)) js) :
    Converts lua heap (.table ref) (.array js) := by
  obtain ⟨fuel,settled⟩ := settles_mapM _ _ _ each
  refine ⟨fuel + 1,fun more enough => ?_⟩
  obtain ⟨less,rfl⟩ := Nat.exists_eq_add_of_le' enough
  rw [← Nat.add_assoc,luaToJson]
  simp only [if_pos array]
  rw [settled (less + fuel) (Nat.le_add_left fuel less)]
  rfl

/-- The members in the order in which the fields are read. -/
theorem converts_object (ref : Nat) (read : List (String × Json.Value)) (object : lua.rawLen (heap.at ref).keys = 0)
    (each : List.Forall₂ (fun field member => field.1 = member.1 ∧ Converts lua heap field.2 member.2)
      (fields lua (heap.at ref)) read) : Converts lua heap (.table ref) (.object (read.foldl assign [])) := by
  have settled : List.Forall₂ (Settles (fun fuel (entry : String × LuaValue F) =>
      (luaToJson lua heap fuel entry.2).map (entry.1,·))) (fields lua (heap.at ref)) read := by
    refine each.imp (fun field member ⟨named,fuel,converts⟩ => ⟨fuel,fun more enough => ?_⟩)
    exact (congrArg (Option.map (field.1,·)) (converts more enough)).trans
      (congrArg (fun name => some (name,member.2)) named)
  obtain ⟨fuel,settled⟩ := settles_mapM _ _ _ settled
  refine ⟨fuel + 1,fun more enough => ?_⟩
  obtain ⟨less,rfl⟩ := Nat.exists_eq_add_of_le' enough
  rw [← Nat.add_assoc,luaToJson]
  simp only [object,Nat.lt_irrefl,if_false]
  rw [settled (less + fuel) (Nat.le_add_left fuel less)]
  rfl

theorem get_mem (t : Table F) (key : Key) : t.get key = .nil ∨ (key,t.get key) ∈ t := by
  unfold Table.get
  cases found : t.lookup key with
  | none => exact .inl rfl
  | some value =>
    obtain ⟨before,after,rfl,_⟩ := List.lookup_eq_some_iff.mp found
    exact .inr (List.mem_append_right before List.mem_cons_self)

theorem mem_of_fields (t : Table F) (field : String × LuaValue F) (member : field ∈ fields lua t) :
    ∃ key, (key,field.2) ∈ t := by
  obtain ⟨entry,inside,text⟩ := List.mem_filterMap.mp member
  obtain ⟨_,_,rfl⟩ := Option.map_eq_some_iff.mp text
  exact ⟨entry.1,(lua.paired t).mem_iff.mp inside⟩

theorem forall₂_of_each {α β : Type} (R : α → β → Prop) (l : List α) (each : ∀ a ∈ l, ∃ b, R a b) :
    ∃ bs, List.Forall₂ R l bs := by
  induction l with
  | nil => exact ⟨[],.nil⟩
  | cons a l ih =>
    obtain ⟨b,first⟩ := each a List.mem_cons_self
    obtain ⟨bs,later⟩ := ih (fun a' inside => each a' (List.mem_cons_of_mem a inside))
    exact ⟨b :: bs,.cons first later⟩

/-- A table is read if all its values are. -/
theorem converts_table (ref : Nat) (each : ∀ entry ∈ heap.at ref, ∃ j, Converts lua heap entry.2 j) :
    ∃ j, Converts lua heap (.table ref) j := by
  cases Nat.eq_zero_or_pos (lua.rawLen (heap.at ref).keys) with
  | inl object =>
    have read : ∀ field ∈ fields lua (heap.at ref),
        ∃ member : String × Json.Value, field.1 = member.1 ∧ Converts lua heap field.2 member.2 := by
      intro field inside
      obtain ⟨key,entry⟩ := mem_of_fields lua (heap.at ref) field inside
      obtain ⟨j,converts⟩ := each _ entry
      exact ⟨(field.1,j),rfl,converts⟩
    obtain ⟨members,all⟩ := forall₂_of_each _ _ read
    exact ⟨_,converts_object lua heap ref members object all⟩
  | inr array =>
    have read : ∀ value ∈ elements lua (heap.at ref), ∃ j, Converts lua heap value j := by
      intro value inside
      obtain ⟨i,_,rfl⟩ := List.mem_map.mp inside
      cases get_mem (heap.at ref) (.integer (i + 1)) with
      | inl missing =>
        rw [missing]
        exact ⟨.null,0,fun _ _ => by rw [luaToJson]⟩
      | inr entry => exact each _ entry
    obtain ⟨js,all⟩ := forall₂_of_each _ _ read
    exact ⟨_,converts_array lua heap ref js array all⟩

theorem converts_other (value : LuaValue F) (scalar : ∀ ref, value ≠ .table ref) : ∃ j, Converts lua heap value j := by
  cases value with
  | table ref => exact absurd rfl (scalar ref)
  | number f => exact ⟨lua.toJson f,0,fun _ _ => by rw [luaToJson]⟩
  | nil => exact ⟨.null,0,fun _ _ => by rw [luaToJson]⟩
  | boolean b => exact ⟨.bool b,0,fun _ _ => by rw [luaToJson]⟩
  | integer i => exact ⟨.integer i,0,fun _ _ => by rw [luaToJson]⟩
  | string s => exact ⟨.string s.toStr,0,fun _ _ => by rw [luaToJson]⟩
  | other => exact ⟨.null,0,fun _ _ => by rw [luaToJson]⟩

theorem converts_beyond (ref : Nat) (beyond : heap.length ≤ ref) : ∃ j, Converts lua heap (.table ref) j := by
  refine converts_table lua heap ref (fun entry inside => ?_)
  rw [Heap.at,List.getElem?_eq_none beyond] at inside
  cases inside

/-- The tables that are reached from the root. -/
abbrev Inside (root : Nat) := {ref : Fin heap.length // Relation.ReflTransGen (Has heap) root ref}

def Below (root : Nat) (a b : Inside heap root) : Prop := Relation.TransGen (Has heap) b.1 a.1

/-- There are finitely many tables, so containment is well-founded where none contains itself. -/
theorem below_founded (root : Nat) (grounded : Grounded heap (.table root)) : WellFounded (Below heap root) := by
  have : IsTrans (Inside heap root) (Below heap root) := ⟨fun _ _ _ first second => second.trans first⟩
  have : Std.Irrefl (Below heap root) := ⟨fun a => grounded root rfl a.1 a.2⟩
  exact Finite.wellFounded_of_trans_of_irrefl (Below heap root)

theorem converts_inside (root : Nat) (grounded : Grounded heap (.table root)) (a : Inside heap root) :
    ∃ j, Converts lua heap (.table a.1) j := by
  induction a using (below_founded heap root grounded).induction with
  | h a ih =>
    refine converts_table lua heap a.1 (fun entry inside => ?_)
    obtain ⟨key,value⟩ := entry
    cases value with
    | table other =>
      have has : Has heap a.1 other := ⟨key,inside⟩
      cases Nat.lt_or_ge other heap.length with
      | inl within => exact ih ⟨⟨other,within⟩,a.2.tail has⟩ (.single has)
      | inr beyond => exact converts_beyond lua heap other beyond
    | _ => exact converts_other lua heap _ (fun _ same => by cases same)

/-- The conversion ends unless a table contains itself. -/
theorem converts_grounded (value : LuaValue F) (grounded : Grounded heap value) : ∃ j, Converts lua heap value j := by
  cases value with
  | table root =>
    cases Nat.lt_or_ge root heap.length with
    | inl within => exact converts_inside lua heap root grounded ⟨⟨root,within⟩,.refl⟩
    | inr beyond => exact converts_beyond lua heap root beyond
  | _ => exact converts_other lua heap _ (fun _ same => by cases same)

end Reading

end ClawKernel.Script.Conversion
