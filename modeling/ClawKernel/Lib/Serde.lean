import ClawKernel.Lib.Json
import Mathlib.Algebra.Group.Nat.Defs
import Mathlib.Data.List.Forall2
import Mathlib.Data.List.Nodup

/-! Derived decoding of a JSON tree. The tree is what stands in the text: an object may name
a member twice. A map or a value that is read from it keeps the last one; a record refuses
a field that is there twice and ignores what it does not know.
-/
namespace ClawKernel.Lib.Serde
open Json

abbrev Decoder (α : Type) := Value → Option α

section Maps
variable {ν : Type}

def keys (entries : List (String × ν)) : List String := entries.map Prod.fst

/-- The new value in the place of the old one, or at the end. -/
def assign (entries : List (String × ν)) (entry : String × ν) : List (String × ν) :=
  if entry.1 ∈ keys entries then entries.map (fun old => if old.1 = entry.1 then entry else old)
  else entries ++ [entry]

theorem keys_assign (entries : List (String × ν)) (entry : String × ν) :
    keys (assign entries entry) =
      if entry.1 ∈ keys entries then keys entries else keys entries ++ [entry.1] := by
  unfold assign
  split
  · rw [keys,List.map_map]
    apply List.map_congr_left
    intro old _
    rw [Function.comp_apply]
    split
    · exact Eq.symm ‹_›
    · rfl
  · rw [keys,List.map_append]
    rfl

theorem assign_nodup (entries : List (String × ν)) (entry : String × ν) (distinct : (keys entries).Nodup) :
    (keys (assign entries entry)).Nodup := by
  rw [keys_assign]
  split
  · exact distinct
  · rename_i fresh
    exact List.nodup_append_comm.mp (List.nodup_cons.mpr ⟨fresh,distinct⟩)

theorem assign_fresh (entries : List (String × ν)) (entry : String × ν) (rest : List (String × ν))
    (distinct : (keys (entries ++ entry :: rest)).Nodup) : assign entries entry = entries ++ [entry] := by
  refine if_neg (fun member => ?_)
  rw [keys,List.map_append,List.map_cons] at distinct
  exact (List.nodup_append.mp distinct).2.2 _ member _ List.mem_cons_self rfl

theorem foldl_assign (entries read : List (String × ν)) (distinct : (keys (read ++ entries)).Nodup) :
    entries.foldl assign read = read ++ entries := by
  induction entries generalizing read with
  | nil => exact (List.append_nil read).symm
  | cons entry rest ih =>
    rw [List.foldl_cons,assign_fresh read entry rest distinct,ih]
    · rw [List.append_assoc,List.singleton_append]
    · rw [List.append_assoc,List.singleton_append]
      exact distinct

/-- The entries are in the order in which the map is iterated. -/
structure HashMap (ν : Type) where
  entries : List (String × ν)
  distinct : (keys entries).Nodup

namespace HashMap

def empty : HashMap ν := ⟨[],List.nodup_nil⟩

def insert (m : HashMap ν) (entry : String × ν) : HashMap ν :=
  ⟨assign m.entries entry,assign_nodup m.entries entry m.distinct⟩

def get (m : HashMap ν) (name : String) : Option ν := m.entries.lookup name

/-- Equality of maps, which does not see the order. -/
def Same (m other : HashMap ν) : Prop := ∀ name, m.get name = other.get name

def collect (entries : List (String × ν)) : HashMap ν := entries.foldl insert empty

theorem foldl_insert (entries : List (String × ν)) (m : HashMap ν) (distinct : (keys (m.entries ++ entries)).Nodup) :
    (entries.foldl insert m).entries = m.entries ++ entries := by
  rw [← foldl_assign entries m.entries distinct]
  exact (List.foldl_hom HashMap.entries (fun _ _ => rfl)).symm

/-- A map is read back from its own entries. -/
theorem collect_entries (m : HashMap ν) : collect m.entries = m := by
  obtain ⟨entries,distinct⟩ := m
  have same := foldl_insert entries empty distinct
  unfold collect
  generalize entries.foldl insert empty = read at same
  obtain ⟨found,foundDistinct⟩ := read
  change found = entries at same
  subst same
  rfl

end HashMap
end Maps

mutual
/-- No object of the value names a member twice. -/
def Unique : Value → Prop
  | .array items => UniqueItems items
  | .object members => (keys members).Nodup ∧ UniqueMembers members
  | _ => True

def UniqueItems : List Value → Prop
  | [] => True
  | item :: rest => Unique item ∧ UniqueItems rest

def UniqueMembers : List (String × Value) → Prop
  | [] => True
  | (_,value) :: rest => Unique value ∧ UniqueMembers rest
end

mutual
/-- What is read from a tree as a value of any kind. -/
def settle : Value → Value
  | .array items => .array (settleItems items)
  | .object members => .object (settleMembers [] members)
  | value => value

def settleItems : List Value → List Value
  | [] => []
  | item :: rest => settle item :: settleItems rest

def settleMembers : List (String × Value) → List (String × Value) → List (String × Value)
  | read, [] => read
  | read, (name,value) :: rest => settleMembers (assign read (name,settle value)) rest
end

theorem uniqueMembers_iff (members : List (String × Value)) :
    UniqueMembers members ↔ ∀ member ∈ members, Unique member.2 := by
  induction members with
  | nil =>
    constructor
    · intro _ member inside
      cases inside
    · exact fun _ => True.intro
  | cons member rest ih => rw [UniqueMembers,ih,List.forall_mem_cons]

theorem uniqueMembers_assign (members : List (String × Value)) (member : String × Value)
    (unique : UniqueMembers members) (new : Unique member.2) : UniqueMembers (assign members member) := by
  rw [uniqueMembers_iff] at unique ⊢
  intro other inside
  unfold assign at inside
  split at inside
  · obtain ⟨old,present,equal⟩ := List.mem_map.mp inside
    rw [← equal]
    split
    · exact new
    · exact unique old present
  · cases List.mem_append.mp inside with
    | inl present => exact unique other present
    | inr last =>
      rw [List.mem_singleton.mp last]
      exact new

mutual
theorem settle_unique : ∀ tree : Value, Unique (settle tree)
  | .null => True.intro
  | .bool _ => True.intro
  | .integer _ => True.intro
  | .float _ => True.intro
  | .string _ => True.intro
  | .array items => settleItems_unique items
  | .object members => settleMembers_unique [] members List.nodup_nil True.intro

theorem settleItems_unique : ∀ items : List Value, UniqueItems (settleItems items)
  | [] => True.intro
  | item :: rest => ⟨settle_unique item,settleItems_unique rest⟩

theorem settleMembers_unique : ∀ read members : List (String × Value), (keys read).Nodup → UniqueMembers read →
    (keys (settleMembers read members)).Nodup ∧ UniqueMembers (settleMembers read members)
  | _, [], distinct, unique => ⟨distinct,unique⟩
  | read, (_,value) :: rest, distinct, unique =>
    settleMembers_unique _ rest (assign_nodup read _ distinct)
      (uniqueMembers_assign read _ unique (settle_unique value))
end

mutual
/-- A value is read back as it is. -/
theorem settle_eq : ∀ value : Value, Unique value → settle value = value
  | .null, _ => rfl
  | .bool _, _ => rfl
  | .integer _, _ => rfl
  | .float _, _ => rfl
  | .string _, _ => rfl
  | .array items, unique => congrArg Value.array (settleItems_eq items unique)
  | .object members, unique => congrArg Value.object (settleMembers_eq [] members unique.1 unique.2)

theorem settleItems_eq : ∀ items : List Value, UniqueItems items → settleItems items = items
  | [], _ => rfl
  | item :: rest, unique => congrArg₂ List.cons (settle_eq item unique.1) (settleItems_eq rest unique.2)

theorem settleMembers_eq : ∀ read members : List (String × Value), (keys (read ++ members)).Nodup →
    UniqueMembers members → settleMembers read members = read ++ members
  | read, [], _, _ => (List.append_nil read).symm
  | read, (name,value) :: rest, distinct, unique => by
    have added := assign_fresh read (name,value) rest distinct
    rw [settleMembers,settle_eq value unique.1,added,settleMembers_eq _ rest _ unique.2]
    · rw [List.append_assoc,List.singleton_append]
    · rw [List.append_assoc,List.singleton_append]
      exact distinct
end

/-- A JSON value as a type of its own. -/
structure Any where
  tree : Value
  unique : Unique tree

section Decoders
variable {α : Type}

def any : Decoder Any := fun tree => some ⟨settle tree,settle_unique tree⟩

def text : Decoder String
  | .string text => some text
  | _ => none

def unsigned (bits : Nat) : Decoder Nat
  | .integer value => if 0 ≤ value ∧ value.toNat < 2 ^ bits then some value.toNat else none
  | _ => none

def optional (decode : Decoder α) : Decoder (Option α)
  | .null => some none
  | tree => (decode tree).map some

def list (decode : Decoder α) : Decoder (List α)
  | .array items => items.mapM decode
  | _ => none

/-- A variant without content: its name, or an object that gives it null. -/
def variant (named : List (String × α)) : Decoder α
  | .string name => named.lookup name
  | .object [(name,.null)] => named.lookup name
  | _ => none

def entry (decode : Decoder α) (member : String × Value) : Option (String × α) :=
  (decode member.2).map (fun value => (member.1,value))

def hashMap (decode : Decoder α) : Decoder (HashMap α)
  | .object members => (members.mapM (entry decode)).map HashMap.collect
  | _ => none

/-- The trees of the fields of an object, where none of them is there twice. -/
def named (names : List String) : Value → Option (String → Option Value)
  | .object members =>
    if ∀ name ∈ names, (keys members).count name ≤ 1 then some (fun name => members.lookup name) else none
  | _ => none

/-- The same of a record, which an array of its fields may stand for. -/
def fields (names : List String) : Value → Option (String → Option Value)
  | .array items =>
    if items.length = names.length then some (fun name => (names.zip items).lookup name) else none
  | tree => named names tree

/-- A field that may be missing. -/
def missable (decode : Decoder α) (tree : Option Value) : Option (Option α) :=
  match tree with
  | none => some none
  | some tree => optional decode tree

/-- A record with one field and a map that takes all other members. -/
def flattened (name : String) (first : Decoder α) {ν : Type} (rest : Decoder ν) : Decoder (α × HashMap ν)
  | .object members =>
    if (keys members).count name ≤ 1 then
      (members.lookup name).bind (fun tree => (first tree).bind (fun value =>
        ((members.filter (fun member => member.1 ≠ name)).mapM (entry rest)).map (fun entries =>
          (value,HashMap.collect entries))))
    else none
  | _ => none

theorem any_eq (value : Any) : any value.tree = some value := by
  obtain ⟨tree,unique⟩ := value
  have same := settle_eq tree unique
  simp only [any,same]

theorem unsigned_eq (bits n : Nat) (bound : n < 2 ^ bits) : unsigned bits (.integer n) = some n := by
  rw [unsigned,Int.toNat_natCast,if_pos ⟨Int.natCast_nonneg n,bound⟩]

theorem lookup_of_mem (members : List (String × Value)) (distinct : (keys members).Nodup) (name : String) (tree : Value)
    (member : (name,tree) ∈ members) : members.lookup name = some tree := by
  induction members with
  | nil => cases member
  | cons head rest ih =>
    obtain ⟨fresh,apart⟩ := List.nodup_cons.mp distinct
    cases List.mem_cons.mp member with
    | inl first =>
      rw [← first]
      exact List.lookup_cons_self
    | inr later =>
      have other : (name == head.1) = false := by
        apply beq_false_of_ne
        intro same
        exact fresh (List.mem_map.mpr ⟨(name,tree),later,same⟩)
      rw [List.lookup_cons,other]
      exact ih apart later

theorem named_eq (names : List String) (members : List (String × Value)) (distinct : (keys members).Nodup) :
    named names (.object members) = some (fun name => members.lookup name) :=
  if_pos (fun name _ => List.nodup_iff_count_le_one.mp distinct name)

theorem fields_eq (names : List String) (members : List (String × Value)) (distinct : (keys members).Nodup) :
    fields names (.object members) = some (fun name => members.lookup name) :=
  named_eq names members distinct

theorem mapM_eq {β γ : Type} (encode : β → γ) (decode : γ → Option β) (items : List β)
    (back : ∀ item ∈ items, decode (encode item) = some item) : (items.map encode).mapM decode = some items := by
  induction items with
  | nil => rfl
  | cons item rest ih =>
    have later := ih (fun other member => back other (List.mem_cons_of_mem item member))
    rw [List.map_cons,List.mapM_cons,back item List.mem_cons_self,later]
    rfl

def members (encode : α → Value) (m : HashMap α) : List (String × Value) :=
  m.entries.map (fun entry => (entry.1,encode entry.2))

theorem entries_eq (encode : α → Value) (decode : Decoder α) (m : HashMap α)
    (back : ∀ value, decode (encode value) = some value) :
    (members encode m).mapM (entry decode) = some m.entries := by
  apply mapM_eq
  intro item _
  rw [entry,back,Option.map_some]

theorem hashMap_eq (encode : α → Value) (decode : Decoder α) (m : HashMap α)
    (back : ∀ value, decode (encode value) = some value) :
    hashMap decode (.object (members encode m)) = some m := by
  rw [hashMap,entries_eq encode decode m back,Option.map_some,HashMap.collect_entries]

/-- A flattened map is read back exactly if it does not hold the field's own name. -/
theorem flattened_eq {ν : Type} (name : String) (first : Decoder α) (rest : Decoder ν) (write : α → Value)
    (encode : ν → Value) (value : α) (m : HashMap ν) (own : first (write value) = some value)
    (back : ∀ item, rest (encode item) = some item) :
    flattened name first rest (.object ((name,write value) :: members encode m)) =
      if name ∈ keys m.entries then none else some (value,m) := by
  have written : keys ((name,write value) :: members encode m) = name :: keys m.entries := by
    rw [keys,members,List.map_cons,List.map_map]
    rfl
  rw [flattened,written,List.count_cons_self]
  by_cases clash : name ∈ keys m.entries
  · have twice := List.count_pos_iff.mpr clash
    rw [if_pos clash,if_neg (by omega)]
  · have absent := List.count_eq_zero.mpr clash
    have others : ((name,write value) :: members encode m).filter (fun member => member.1 ≠ name) =
        members encode m := by
      rw [List.filter_cons_of_neg (by simp)]
      apply List.filter_eq_self.mpr
      intro member inside
      obtain ⟨item,present,equal⟩ := List.mem_map.mp inside
      rw [decide_eq_true_eq,← equal]
      intro same
      exact clash (List.mem_map.mpr ⟨item,present,same⟩)
    rw [if_neg clash,if_pos (by omega),List.lookup_cons_self,Option.bind_some,own,Option.bind_some,others,
      entries_eq encode rest m back,Option.map_some,HashMap.collect_entries]

/-- The tree is an object that names no member twice; this is what stands under each name. -/
def Shows (tree : Value) (field : String → Option Value) : Prop :=
  ∃ members, tree = .object members ∧ (keys members).Nodup ∧ field = fun name => members.lookup name

theorem shows_object (members : List (String × Value)) (distinct : (keys members).Nodup) :
    Shows (.object members) (fun name => members.lookup name) :=
  ⟨members,rfl,distinct,rfl⟩

theorem shows_unique (tree : Value) (one two : String → Option Value) (first : Shows tree one) (second : Shows tree two) :
    one = two := by
  obtain ⟨members,rfl,_,rfl⟩ := first
  obtain ⟨others,same,_,rfl⟩ := second
  cases same
  rfl

theorem shows_named (names : List String) (tree : Value) (field : String → Option Value) (shown : Shows tree field) :
    named names tree = some field := by
  obtain ⟨members,rfl,distinct,rfl⟩ := shown
  exact named_eq names members distinct

theorem shows_fields (names : List String) (tree : Value) (field : String → Option Value) (shown : Shows tree field) :
    fields names tree = some field := by
  obtain ⟨members,rfl,distinct,rfl⟩ := shown
  exact fields_eq names members distinct

theorem missable_object (decode : Decoder α) (tree : Value) (field : String → Option Value) (shown : Shows tree field) :
    missable decode (some tree) = (decode tree).map some := by
  obtain ⟨members,rfl,_⟩ := shown
  rfl

/-- A number that fits its type. -/
def WritesUnsigned (bits : Nat) (tree : Option Value) (n : Nat) : Prop :=
  tree = some (.integer (Int.ofNat n)) ∧ n < 2 ^ bits

theorem unsigned_written (bits : Nat) (tree : Option Value) (n : Nat) (written : WritesUnsigned bits tree n) :
    tree.bind (unsigned bits) = some n := by
  obtain ⟨rfl,bound⟩ := written
  exact unsigned_eq bits n bound

/-- A list is read if each of its items is. -/
theorem mapM_written {β : Type} (decode : Decoder α) (written : Value → β → Prop) (good : β → Bool) (read : β → α)
    (each : ∀ tree item, written tree item → decode tree = if good item then some (read item) else none)
    (trees : List Value) (items : List β) (pairs : List.Forall₂ written trees items) :
    trees.mapM decode = if items.all good then some (items.map read) else none := by
  induction pairs with
  | nil => rfl
  | cons first later ih =>
    rename_i tree item trees items
    rw [List.mapM_cons,each tree item first,ih,List.all_cons]
    cases good item <;> cases items.all good <;> rfl

end Decoders

end ClawKernel.Lib.Serde
