import ClawKernel.Script.Conversion

/-! What becomes of a JSON value that is made into Lua tables and read back. A table has no
place for null, and an empty one is an object.
-/
namespace ClawKernel.Script.RoundTrip
open Lib Lib.Serde Conversion

variable {F : Type} (lua : Lua F)

def isNull : Json.Value → Bool
  | .null => true
  | _ => false

/-- The items under their places, the first of which is the one after `i`. -/
def itemEntries (i : Nat) (items : List Json.Value) : List (Key × Json.Value) :=
  (items.zipIdx i).map (fun item => (.integer (item.2 + 1),item.1))

def memberEntries (members : List (String × Json.Value)) : List (Key × Json.Value) :=
  members.map (fun member => (.string (.text member.1),member.2))

/-- The entries that a table keeps. -/
def filled (entries : List (Key × Json.Value)) : List (Key × Json.Value) := entries.filter (fun entry => !isNull entry.2)

mutual
/-- Nothing of the value is lost in Lua. -/
def Fits : Json.Value → Prop
  | .integer i => IsI64 i
  | .float text => lua.numberText (lua.parsed text) = some text
  | .array items => items ≠ [] ∧ lua.rawLen ((filled (itemEntries 0 items)).map Prod.fst) = items.length ∧ FitItems items
  | .object members => FitMembers members
  | _ => True

def FitItems : List Json.Value → Prop
  | [] => True
  | item :: rest => Fits item ∧ FitItems rest

def FitMembers : List (String × Json.Value) → Prop
  | [] => True
  | (_,value) :: rest => isNull value = false ∧ Fits value ∧ FitMembers rest
end

/-- What is read back equals the value. -/
def Survives (heap : Heap F) (made : LuaValue F) (value : Json.Value) : Prop :=
  ∃ j, Converts lua heap made j ∧ j.equals value = true

section Heaps
variable (heap : Heap F)

/-- The tables from `lo` to `hi` are the same. -/
def Agree (lo hi : Nat) (heap other : Heap F) : Prop := ∀ ref, lo ≤ ref → ref < hi → other[ref]? = heap[ref]?

theorem at_eq (heap other : Heap F) (ref : Nat) (same : other[ref]? = heap[ref]?) : other.at ref = heap.at ref := by
  rw [Heap.at,same,Heap.at]

theorem rawSet_length (ref : Nat) (key : Key) (value : LuaValue F) : (rawSet heap ref key value).length = heap.length :=
  List.length_modify _ _ _

theorem rawSet_other (ref other : Nat) (key : Key) (value : LuaValue F) (differs : other ≠ ref) :
    (rawSet heap ref key value)[other]? = heap[other]? := by
  exact List.getElem?_modify_ne _ heap differs.symm

theorem rawSet_at (ref : Nat) (key : Key) (value : LuaValue F) (inside : ref < heap.length) :
    (rawSet heap ref key value).at ref = (heap.at ref).set key value := by
  rw [Heap.at,rawSet,List.getElem?_modify_eq,Heap.at,List.getElem?_eq_getElem inside]
  rfl

/-- What a new key adds to a table. -/
def slot (key : Key) : LuaValue F → Table F
  | .nil => []
  | value => [(key,value)]

theorem slot_keys (key other : Key) (value : LuaValue F) (member : other ∈ (slot key value).keys) : other = key := by
  cases value with
  | nil => cases member
  | _ => exact List.mem_singleton.mp member

theorem slot_some (key : Key) (value : LuaValue F) (present : value ≠ .nil) : slot key value = [(key,value)] := by
  cases value with
  | nil => exact absurd rfl present
  | _ => rfl

theorem set_fresh (t : Table F) (key : Key) (value : LuaValue F) (fresh : key ∉ t.keys) :
    t.set key value = t ++ slot key value := by
  have kept : t.filter (fun entry => entry.1 ≠ key) = t := by
    refine List.filter_eq_self.mpr (fun entry inside => decide_eq_true ?_)
    rintro rfl
    exact fresh (List.mem_map_of_mem inside)
  cases value with
  | nil => exact kept.trans (List.append_nil t).symm
  | _ => exact congrArg (· ++ _) kept

end Heaps

/-- What is read does not depend on the tables before `lo`, or on those that are made later. -/
def Lasting (lo : Nat) (heap : Heap F) (made : LuaValue F) (j : Json.Value) : Prop :=
  ∀ later, Agree lo heap.length heap later → Converts lua later made j

def ReadAs (lo : Nat) (heap : Heap F) (made : LuaValue F) (value : Json.Value) : Prop :=
  ∃ j, Lasting lua lo heap made j ∧ (j.equals value = true ↔ Fits lua value)

/-- A conversion of `value`, from the heap before it. -/
structure Converted (heap : Heap F) (value : Json.Value) (made : LuaValue F × Heap F) : Prop where
  grows : heap.length ≤ made.2.length
  kept : Agree 0 heap.length heap made.2
  missing : made.1 = .nil ↔ isNull value = true
  read : ReadAs lua heap.length made.2 made.1 value

/-- An entry of a table and what it was made of. -/
def Stored (lo : Nat) (heap : Heap F) (entry : Key × LuaValue F) (given : Key × Json.Value) : Prop :=
  entry.1 = given.1 ∧ ReadAs lua lo heap entry.2 given.2

section Tables
variable (convert : Json.Value → Heap F → LuaValue F × Heap F) (ref : Nat)

/-- The loop of both kinds of table: convert, then set. -/
def setAll : List (Key × Json.Value) → Heap F → Heap F
  | [], heap => heap
  | (key,value) :: rest, heap =>
    let converted := convert value heap
    setAll rest (rawSet converted.2 ref key converted.1)

/-- The table has what it had and the entries that are not null. The tables before it are the same. -/
structure Filled (entries : List (Key × Json.Value)) (heap after : Heap F) : Prop where
  grows : heap.length ≤ after.length
  kept : ∀ other, other < heap.length → other ≠ ref → after[other]? = heap[other]?
  stored : ∃ added, after.at ref = heap.at ref ++ added ∧ List.Forall₂ (Stored lua heap.length after) added (filled entries)

theorem stored_mono (lo lo' : Nat) (heap : Heap F) (entry : Key × LuaValue F) (given : Key × Json.Value) (less : lo ≤ lo')
    (stored : Stored lua lo' heap entry given) : Stored lua lo heap entry given := by
  obtain ⟨named,j,converts,fits⟩ := stored
  exact ⟨named,j,fun later agrees => converts later (fun r above => agrees r (Nat.le_trans less above)),fits⟩

/-- A table in which a key is set that it did not have. -/
theorem rawSet_fresh (key : Key) (value : Json.Value) (heap : Heap F) (made : LuaValue F × Heap F)
    (inside : ref < heap.length) (head : Converted lua heap value made) (unset : key ∉ (heap.at ref).keys) :
    (rawSet made.2 ref key made.1).at ref = heap.at ref ++ slot key made.1 := by
  have same : made.2.at ref = heap.at ref := at_eq heap made.2 ref (head.kept ref (Nat.zero_le ref) inside)
  rw [rawSet_at made.2 ref key made.1 (Nat.lt_of_lt_of_le inside head.grows),same]
  exact set_fresh _ key made.1 unset

/-- One entry more: its value has been converted and stored, and the others after it. -/
theorem filled_cons (key : Key) (value : Json.Value) (rest : List (Key × Json.Value)) (heap done : Heap F)
    (made : LuaValue F × Heap F) (inside : ref < heap.length) (head : Converted lua heap value made)
    (unset : key ∉ (heap.at ref).keys) (after : Filled lua ref rest (rawSet made.2 ref key made.1) done) :
    Filled lua ref ((key,value) :: rest) heap done := by
  have length := rawSet_length made.2 ref key made.1
  have table := rawSet_fresh lua ref key value heap made inside head unset
  have grows := length ▸ after.grows
  have kept : ∀ other, other < made.2.length → other ≠ ref → done[other]? = made.2[other]? := by
    intro other below differs
    rw [after.kept other (length ▸ below) differs,rawSet_other made.2 ref other key made.1 differs]
  obtain ⟨added,stored,all⟩ := after.stored
  have all := all.imp (fun entry given => stored_mono lua heap.length _ done entry given (length ▸ head.grows))
  rw [table,List.append_assoc] at stored
  refine ⟨Nat.le_trans head.grows grows,?_,?_⟩
  · intro other below differs
    rw [kept other (Nat.lt_of_lt_of_le below head.grows) differs,head.kept other (Nat.zero_le other) below]
  · cases null : isNull value with
    | true =>
      have bare : made.1 = .nil := head.missing.mpr null
      refine ⟨added,?_,?_⟩
      · rw [stored,bare]
        rfl
      · rw [filled,List.filter_cons,if_neg (by simp [null])]
        exact all
    | false =>
      have present : made.1 ≠ .nil := fun missing => by
        rw [head.missing.mp missing] at null
        cases null
      refine ⟨(key,made.1) :: added,?_,?_⟩
      · rw [stored,slot_some key made.1 present]
        rfl
      · rw [filled,List.filter_cons,if_pos (by simp [null])]
        obtain ⟨j,reads,fits⟩ := head.read
        -- What was read before the table was filled further does not read the table itself.
        refine .cons ⟨rfl,j,fun later agrees => reads later (fun r above below => ?_),fits⟩ all
        rw [agrees r above (Nat.lt_of_lt_of_le below grows),kept r below (Nat.ne_of_gt (Nat.lt_of_lt_of_le inside above))]

/-- By induction on the entries; the table itself is none of those that a conversion makes. -/
theorem setAll_filled (entries : List (Key × Json.Value)) (heap : Heap F) (inside : ref < heap.length)
    (converts : ∀ entry ∈ entries, ∀ heap, Converted lua heap entry.2 (convert entry.2 heap))
    (distinct : (entries.map Prod.fst).Nodup) (fresh : ∀ entry ∈ entries, entry.1 ∉ (heap.at ref).keys) :
    Filled lua ref entries heap (setAll convert ref entries heap) := by
  induction entries generalizing heap with
  | nil => exact ⟨Nat.le_refl _,fun _ _ _ => rfl,[],(List.append_nil _).symm,.nil⟩
  | cons entry rest ih =>
    obtain ⟨key,value⟩ := entry
    rw [setAll]
    have head := converts (key,value) List.mem_cons_self heap
    have unset := fresh (key,value) List.mem_cons_self
    obtain ⟨apart,distinct⟩ := List.nodup_cons.mp distinct
    have length := rawSet_length (convert value heap).2 ref key (convert value heap).1
    refine filled_cons lua ref key value rest heap _ (convert value heap) inside head unset ?_
    refine ih (rawSet (convert value heap).2 ref key (convert value heap).1)
      (length ▸ Nat.lt_of_lt_of_le inside head.grows)
      (fun other member => converts other (List.mem_cons_of_mem _ member)) distinct ?_
    intro other member taken
    rw [rawSet_fresh lua ref key value heap _ inside head unset,Table.keys,List.map_append,List.mem_append] at taken
    cases taken with
    | inl old => exact fresh other (List.mem_cons_of_mem _ member) old
    | inr new =>
      have again : other.1 ∈ rest.map Prod.fst := List.mem_map_of_mem member
      rw [slot_keys key other.1 _ new] at again
      exact apart again

end Tables

section Lists

theorem related_left {α β : Type*} (R : α → β → Prop) (l : List α) (bs : List β) (all : List.Forall₂ R l bs) (a : α)
    (member : a ∈ l) : ∃ b ∈ bs, R a b := by
  induction all with
  | nil => cases member
  | cons head _ ih =>
    cases List.mem_cons.mp member with
    | inl first => exact ⟨_,List.mem_cons_self,first ▸ head⟩
    | inr later =>
      obtain ⟨b,inside,related⟩ := ih later
      exact ⟨b,List.mem_cons_of_mem _ inside,related⟩

theorem related_right {α β : Type*} (R : α → β → Prop) (l : List α) (bs : List β) (all : List.Forall₂ R l bs) (b : β)
    (member : b ∈ bs) : ∃ a ∈ l, R a b :=
  related_left (fun b a => R a b) bs l all.flip b member

theorem equalItems_iff (as bs : List Json.Value) :
    Json.equalItems as bs = true ↔ List.Forall₂ (fun a b => a.equals b = true) as bs := by
  induction as generalizing bs with
  | nil => cases bs <;> simp [Json.equalItems]
  | cons a as ih => cases bs <;> simp [Json.equalItems,ih]

theorem equalMembers_iff (as bs : List (String × Json.Value)) :
    Json.equalMembers as bs = true ↔ ∀ a ∈ as, ∃ b, bs.lookup a.1 = some b ∧ a.2.equals b = true := by
  induction as with
  | nil => simp [Json.equalMembers]
  | cons a as ih =>
    obtain ⟨name,value⟩ := a
    rw [Json.equalMembers,Bool.and_eq_true_iff,ih,List.forall_mem_cons]
    cases bs.lookup name <;> simp

theorem fitItems_iff (items : List Json.Value) : FitItems lua items ↔ ∀ item ∈ items, Fits lua item := by
  induction items with
  | nil => simp [FitItems]
  | cons item rest ih => rw [FitItems,ih,List.forall_mem_cons]

theorem fitMembers_iff (members : List (String × Json.Value)) :
    FitMembers lua members ↔ ∀ member ∈ members, isNull member.2 = false ∧ Fits lua member.2 := by
  induction members with
  | nil => simp [FitMembers]
  | cons member rest ih => rw [FitMembers,ih,List.forall_mem_cons,and_assoc]

theorem mem_itemEntries (items : List Json.Value) (n : Nat) (item : Json.Value) :
    (.integer (n + 1),item) ∈ itemEntries 0 items ↔ items[n]? = some item := by
  rw [itemEntries,List.mem_map]
  constructor
  · rintro ⟨⟨value,place⟩,inside,same⟩
    obtain ⟨key,rfl⟩ := Prod.mk.inj same
    have place : place = n := by
      have := Key.integer.inj key
      omega
    exact place ▸ List.mk_mem_zipIdx_iff_getElem?.mp inside
  · exact fun found => ⟨(item,n),List.mk_mem_zipIdx_iff_getElem?.mpr found,rfl⟩

theorem itemEntries_distinct (items : List Json.Value) : ((itemEntries 0 items).map Prod.fst).Nodup := by
  have places : (itemEntries 0 items).map Prod.fst =
      (List.range' 0 items.length).map (fun n : Nat => Key.integer (n + 1)) := by
    rw [itemEntries,← List.zipIdx_map_snd 0 items,List.map_map,List.map_map]
    rfl
  rw [places]
  refine List.Nodup.map (fun n m same => ?_) List.nodup_range'
  have := Key.integer.inj same
  omega

theorem memberEntries_distinct (members : List (String × Json.Value)) (distinct : (keys members).Nodup) :
    ((memberEntries members).map Prod.fst).Nodup := by
  have names : (memberEntries members).map Prod.fst = (keys members).map (fun name => Key.string (.text name)) := by
    rw [memberEntries,keys,List.map_map,List.map_map]
    rfl
  rw [names]
  exact distinct.map (fun name other same => LuaString.text.inj (Key.string.inj same))

theorem filled_members (members : List (String × Json.Value)) :
    filled (memberEntries members) = memberEntries (members.filter (fun member => !isNull member.2)) := by
  rw [filled,memberEntries,memberEntries,List.filter_map]
  rfl

end Lists

section Reads
variable (lo : Nat) (heap : Heap F) (ref : Nat) (above : lo ≤ ref) (within : ref < heap.length)

theorem lasting_nil : Lasting lua lo heap .nil .null := fun _ _ => ⟨0,fun _ _ => by rw [luaToJson]⟩

include above within in
theorem lasting_array (js : List Json.Value) (array : 0 < lua.rawLen (heap.at ref).keys)
    (each : List.Forall₂ (Lasting lua lo heap) (elements lua (heap.at ref)) js) :
    Lasting lua lo heap (.table ref) (.array js) := by
  intro later agrees
  have same := at_eq heap later ref (agrees ref above within)
  refine converts_array lua later ref js (same ▸ array) ?_
  rw [same]
  exact each.imp (fun _ _ lasting => lasting later agrees)

/-- A field of a table and the member it is read as. -/
def FieldAs (field : String × LuaValue F) (member : String × Json.Value) : Prop :=
  field.1 = member.1 ∧ Lasting lua lo heap field.2 member.2

include above within in
theorem lasting_object (read : List (String × Json.Value)) (object : lua.rawLen (heap.at ref).keys = 0)
    (each : List.Forall₂ (FieldAs lua lo heap) (fields lua (heap.at ref)) read) :
    Lasting lua lo heap (.table ref) (.object (read.foldl assign [])) := by
  intro later agrees
  have same := at_eq heap later ref (agrees ref above within)
  refine converts_object lua later ref read (same ▸ object) ?_
  rw [same]
  exact each.imp (fun _ _ field => ⟨field.1,field.2 later agrees⟩)

section Entries
variable (entries : List (Key × Json.Value)) (distinct : (entries.map Prod.fst).Nodup)
    (stored : List.Forall₂ (Stored lua lo heap) (heap.at ref) (filled entries))

include stored

theorem keys_of_stored : (heap.at ref).keys = (filled entries).map Prod.fst := by
  have same := stored.imp (fun entry given (related : Stored lua lo heap entry given) => related.1)
  rw [Table.keys,← List.forall₂_eq_eq_eq,List.forall₂_map_left_iff,List.forall₂_map_right_iff]
  exact same

include distinct in
/-- What is read under a key; an entry that is null leaves none. -/
theorem get_read (key : Key) : ∃ j, Lasting lua lo heap ((heap.at ref).get key) j ∧
    ∀ item, (key,item) ∈ entries → (j.equals item = true ↔ Fits lua item) := by
  unfold Table.get
  cases found : (heap.at ref).lookup key with
  | none =>
    refine ⟨.null,lasting_nil lua lo heap,fun item member => ?_⟩
    cases item with
    | null => exact ⟨fun _ => True.intro,fun _ => rfl⟩
    | _ =>
      have given : (key,_) ∈ filled entries := List.mem_filter.mpr ⟨member,rfl⟩
      obtain ⟨entry,inside,named,-⟩ := related_right _ _ _ stored _ given
      have differs := List.lookup_eq_none_iff.mp found entry inside
      rw [named] at differs
      exact absurd differs (by simp)
  | some value =>
    obtain ⟨before,after,split,-⟩ := List.lookup_eq_some_iff.mp found
    have inside : (key,value) ∈ heap.at ref := split ▸ List.mem_append_right before List.mem_cons_self
    obtain ⟨given,kept,named,j,lasting,fits⟩ := related_left _ _ _ stored _ inside
    refine ⟨j,lasting,fun item member => ?_⟩
    have same : given = (key,item) :=
      List.inj_on_of_nodup_map distinct (List.mem_filter.mp kept).1 member named.symm
    rw [same] at fits
    exact fits

end Entries

/-- Reading the items one by one. -/
theorem items_read (items : List Json.Value) (len : Nat)
    (stored : List.Forall₂ (Stored lua lo heap) (heap.at ref) (filled (itemEntries 0 items))) :
    ∃ js, List.Forall₂ (Lasting lua lo heap)
        ((List.range len).map (fun i : Nat => (heap.at ref).get (.integer (i + 1)))) js ∧
      (Json.equalItems js items = true ↔ len = items.length ∧ FitItems lua items) := by
  have each : ∀ i ∈ List.range len, ∃ j, Lasting lua lo heap ((heap.at ref).get (.integer (i + 1))) j ∧
      ∀ item, items[i]? = some item → (j.equals item = true ↔ Fits lua item) := by
    intro i _
    obtain ⟨j,lasting,fits⟩ := get_read lua lo heap ref _ (itemEntries_distinct items) stored (.integer (i + 1))
    exact ⟨j,lasting,fun item found => fits item ((mem_itemEntries items i item).mpr found)⟩
  obtain ⟨js,all⟩ := forall₂_of_each _ _ each
  refine ⟨js,List.forall₂_map_left_iff.mpr (all.imp (fun _ _ related => related.1)),?_⟩
  obtain ⟨same,pointwise⟩ := List.forall₂_iff_get.mp all
  rw [List.length_range] at same
  have fits : ∀ i (below : i < js.length) (within : i < items.length), js[i].equals items[i] = true ↔ Fits lua items[i] := by
    intro i below within
    have related := (pointwise i (by rw [List.length_range]; omega) below).2
    rw [List.get_eq_getElem,List.getElem_range] at related
    exact related items[i] (List.getElem?_eq_getElem within)
  rw [equalItems_iff,List.forall₂_iff_get,fitItems_iff,same]
  constructor
  · rintro ⟨length,equal⟩
    refine ⟨length,fun item member => ?_⟩
    obtain ⟨i,within,rfl⟩ := List.getElem_of_mem member
    exact (fits i (length ▸ within) within).mp (equal i (length ▸ within) within)
  · rintro ⟨length,fit⟩
    exact ⟨length,fun i below within => (fits i below within).mpr (fit _ (List.getElem_mem within))⟩

include above within in
theorem array_read (items : List Json.Value)
    (stored : List.Forall₂ (Stored lua lo heap) (heap.at ref) (filled (itemEntries 0 items))) :
    ReadAs lua lo heap (.table ref) (.array items) := by
  have keys := keys_of_stored lua lo heap ref _ stored
  cases Nat.eq_zero_or_pos (lua.rawLen (heap.at ref).keys) with
  | inl object =>
    have each : ∀ field ∈ fields lua (heap.at ref), ∃ member, FieldAs lua lo heap field member := by
      intro field inside
      obtain ⟨key,entry⟩ := mem_of_fields lua (heap.at ref) field inside
      obtain ⟨_,_,_,j,lasting,-⟩ := related_left _ _ _ stored _ entry
      exact ⟨(field.1,j),rfl,lasting⟩
    obtain ⟨read,all⟩ := forall₂_of_each _ _ each
    refine ⟨_,lasting_object lua lo heap ref above within read object all,?_⟩
    constructor
    · intro equal
      cases equal
    · rintro ⟨some,length,-⟩
      rw [← keys,object] at length
      exact absurd (List.length_eq_zero_iff.mp length.symm) some
  | inr array =>
    obtain ⟨js,lasting,equal⟩ := items_read lua lo heap ref items (lua.rawLen (heap.at ref).keys) stored
    refine ⟨.array js,lasting_array lua lo heap ref above within js array lasting,?_⟩
    rw [Json.Value.equals,equal,Fits,← keys]
    constructor
    · rintro ⟨length,fit⟩
      refine ⟨?_,length,fit⟩
      rintro rfl
      exact absurd length (Nat.ne_of_gt array)
    · exact fun ⟨_,length,fit⟩ => ⟨length,fit⟩

/-- A member that was read and the entry behind it. -/
def Behind (member : String × Json.Value) (entry : Key × Json.Value) : Prop :=
  entry.1 = .string (.text member.1) ∧ (member.2.equals entry.2 = true ↔ Fits lua entry.2)

/-- Reading the fields; all keys are texts. -/
theorem fields_read (l : Table F) (given : List (Key × Json.Value)) (all : List.Forall₂ (Stored lua lo heap) l given)
    (texts : ∀ entry ∈ given, ∃ name, entry.1 = .string (.text name)) :
    ∃ read, List.Forall₂ (FieldAs lua lo heap) (l.filterMap (fun entry => (keyText entry.1).map (·,entry.2))) read ∧
      List.Forall₂ (Behind lua) read given := by
  induction all with
  | nil => exact ⟨[],.nil,.nil⟩
  | @cons entry other _ _ head _ ih =>
    obtain ⟨read,fields,members⟩ := ih (fun entry inside => texts entry (List.mem_cons_of_mem _ inside))
    obtain ⟨name,text⟩ := texts _ List.mem_cons_self
    obtain ⟨same,j,lasting,fits⟩ := head
    have key : keyText entry.1 = some name := by rw [same,text,keyText,LuaString.toStr]
    refine ⟨(name,j) :: read,?_,.cons ⟨text,fits⟩ members⟩
    rw [List.filterMap_cons,key]
    exact .cons ⟨rfl,lasting⟩ fields

theorem names_read (read : List (String × Json.Value)) (given : List (Key × Json.Value))
    (distinct : (given.map Prod.fst).Nodup) (all : List.Forall₂ (Behind lua) read given) : (keys read).Nodup := by
  have same : given.map Prod.fst = (keys read).map (fun name => Key.string (.text name)) := by
    rw [keys,List.map_map,← List.forall₂_eq_eq_eq,List.forall₂_map_left_iff,List.forall₂_map_right_iff]
    exact (all.imp (fun _ _ related => related.1)).flip
  rw [same] at distinct
  exact distinct.of_map

/-- The object that is read equals the other one if no member is null and each is read as it was. -/
theorem object_equals (read members : List (String × Json.Value)) (given : List (Key × Json.Value))
    (distinct : (keys members).Nodup) (perm : given.Perm (filled (memberEntries members)))
    (all : List.Forall₂ (Behind lua) read given) :
    (Json.Value.object read).equals (.object members) = true ↔ FitMembers lua members := by
  rw [filled_members] at perm
  have length : read.length = (members.filter (fun member => !isNull member.2)).length := by
    rw [all.length_eq,perm.length_eq,memberEntries,List.length_map]
  rw [Json.Value.equals,Bool.and_eq_true_iff,beq_iff_eq,equalMembers_iff,length,List.length_filter_eq_length_iff,
    fitMembers_iff]
  constructor
  · rintro ⟨full,equal⟩ member inside
    have present := full member inside
    refine ⟨by simpa using present,?_⟩
    have kept : (.string (.text member.1),member.2) ∈ given :=
      perm.mem_iff.mpr (List.mem_map.mpr ⟨member,List.mem_filter.mpr ⟨inside,present⟩,rfl⟩)
    obtain ⟨other,found,named,fits⟩ := related_right _ _ _ all _ kept
    obtain ⟨value,lookup,same⟩ := equal other found
    rw [← LuaString.text.inj (Key.string.inj named),lookup_of_mem members distinct member.1 member.2 inside] at lookup
    exact fits.mp (Option.some_inj.mp lookup ▸ same)
  · intro fit
    refine ⟨fun member inside => by simp [(fit member inside).1],fun member inside => ?_⟩
    obtain ⟨entry,kept,named,fits⟩ := related_left _ _ _ all member inside
    obtain ⟨other,filtered,rfl⟩ := List.mem_map.mp (perm.mem_iff.mp kept)
    have inside := (List.mem_filter.mp filtered).1
    have same : other.1 = member.1 := LuaString.text.inj (Key.string.inj named)
    exact ⟨other.2,same ▸ lookup_of_mem members distinct other.1 other.2 inside,fits.mpr (fit other inside).2⟩

include above within in
theorem object_read (members : List (String × Json.Value)) (distinct : (keys members).Nodup)
    (stored : List.Forall₂ (Stored lua lo heap) (heap.at ref) (filled (memberEntries members))) :
    ReadAs lua lo heap (.table ref) (.object members) := by
  have texts : ∀ entry ∈ filled (memberEntries members), ∃ name, entry.1 = .string (.text name) := by
    intro entry kept
    obtain ⟨member,-,rfl⟩ := List.mem_map.mp (List.mem_filter.mp kept).1
    exact ⟨member.1,rfl⟩
  have object : lua.rawLen (heap.at ref).keys = 0 := by
    refine (lua.border (heap.at ref).keys).1.resolve_right (fun numbered => ?_)
    rw [keys_of_stored lua lo heap ref _ stored] at numbered
    obtain ⟨entry,kept,same⟩ := List.mem_map.mp numbered
    obtain ⟨name,text⟩ := texts entry kept
    rw [text] at same
    cases same
  obtain ⟨given,all,perm⟩ := List.perm_comp_forall₂ (lua.paired (heap.at ref)) stored
  obtain ⟨read,fields,named⟩ := fields_read lua lo heap _ given all
    (fun entry inside => texts entry (perm.mem_iff.mp inside))
  have apart : (given.map Prod.fst).Nodup := (perm.map Prod.fst).nodup_iff.mpr
    ((memberEntries_distinct members distinct).sublist (List.filter_sublist.map Prod.fst))
  have fresh := foldl_assign read [] (names_read lua read given apart named)
  have lasting := lasting_object lua lo heap ref above within read object fields
  rw [fresh,List.nil_append] at lasting
  exact ⟨.object read,lasting,object_equals lua read members given distinct perm named⟩

end Reads

section Conversion
variable (depth : Nat)

theorem setItems_eq (ref i : Nat) (items : List Json.Value) (heap : Heap F) :
    setItems lua depth ref i items heap = setAll (jsonToLua lua (depth + 1)) ref (itemEntries i items) heap := by
  induction items generalizing i heap with
  | nil => rw [setItems,itemEntries,List.zipIdx_nil,List.map_nil,setAll]
  | cons item rest ih =>
    rw [setItems,itemEntries,List.zipIdx_cons,List.map_cons,setAll]
    exact ih (i + 1) _

theorem setMembers_eq (ref : Nat) (members : List (String × Json.Value)) (heap : Heap F) :
    setMembers lua depth ref members heap = setAll (jsonToLua lua (depth + 1)) ref (memberEntries members) heap := by
  induction members generalizing heap with
  | nil => rw [setMembers,memberEntries,List.map_nil,setAll]
  | cons member rest ih =>
    rw [setMembers,memberEntries,List.map_cons,setAll]
    exact ih _

theorem converted_scalar (heap : Heap F) (value j : Json.Value) (made : LuaValue F)
    (read : ∀ heap fuel, luaToJson lua heap fuel made = some j) (missing : made = .nil ↔ isNull value = true)
    (fits : j.equals value = true ↔ Fits lua value) : Converted lua heap value (made,heap) :=
  ⟨Nat.le_refl _,fun _ _ _ => rfl,missing,j,fun later _ => ⟨0,fun more _ => read later more⟩,fits⟩

/-- A new table is filled, and what is in it is read. -/
theorem converted_table (heap : Heap F) (value : Json.Value) (entries : List (Key × Json.Value))
    (some : isNull value = false)
    (converts : ∀ entry ∈ entries, ∀ heap, Converted lua heap entry.2 (jsonToLua lua (depth + 1) entry.2 heap))
    (distinct : (entries.map Prod.fst).Nodup)
    (read : ∀ after : Heap F, heap.length < after.length →
      List.Forall₂ (Stored lua heap.length after) (after.at heap.length) (filled entries) →
      ReadAs lua heap.length after (.table heap.length) value) :
    Converted lua heap value
      (.table heap.length,setAll (jsonToLua lua (depth + 1)) heap.length entries (heap ++ [[]])) := by
  have length : (heap ++ [[]]).length = heap.length + 1 := List.length_append
  have empty : (heap ++ [[]]).at heap.length = [] := by
    rw [Heap.at,List.getElem?_append_right (Nat.le_refl _),Nat.sub_self]
    rfl
  have filled := setAll_filled lua (jsonToLua lua (depth + 1)) heap.length entries (heap ++ [[]]) (by omega) converts
    distinct (fun entry _ taken => by rw [empty] at taken; cases taken)
  generalize setAll (jsonToLua lua (depth + 1)) heap.length entries (heap ++ [[]]) = after at filled ⊢
  have grows : heap.length < after.length := Nat.lt_of_lt_of_le (by omega) filled.grows
  obtain ⟨added,stored,all⟩ := filled.stored
  rw [empty,List.nil_append] at stored
  refine ⟨Nat.le_of_lt grows,fun other _ below => ?_,?_,?_⟩
  · rw [filled.kept other (by omega) (Nat.ne_of_lt below),List.getElem?_append_left below]
  · constructor
    · intro nil
      cases nil
    · intro null
      rw [some] at null
      cases null
  · refine read after grows ?_
    rw [stored]
    exact all.imp (fun entry given => stored_mono lua heap.length _ after entry given (by omega))

theorem converted_number (heap : Heap F) (value : Json.Value) (f : F) (some : isNull value = false)
    (fits : (lua.toJson f).equals value = true ↔ Fits lua value) : Converted lua heap value (.number f,heap) :=
  converted_scalar lua heap value (lua.toJson f) _ (fun _ _ => by rw [luaToJson]) (by simp [some]) fits

theorem converted_integer (heap : Heap F) (i : Int) :
    Converted lua heap (.integer i) (if IsI64 i then .integer i else .number (lua.asF64 i),heap) := by
  by_cases fits : IsI64 i
  · rw [if_pos fits]
    exact converted_scalar lua heap _ (.integer i) _ (fun _ _ => by rw [luaToJson]) (by simp [isNull])
      (by simp [Json.Value.equals,Fits,fits])
  · rw [if_neg fits]
    refine converted_number lua heap _ _ rfl ?_
    rw [Lua.toJson,Fits]
    cases lua.numberText (lua.asF64 i) <;> simp [Json.Value.equals,fits]

theorem converted_float (heap : Heap F) (text : String) :
    Converted lua heap (.float text) (.number (lua.parsed text),heap) := by
  refine converted_number lua heap _ _ rfl ?_
  rw [Lua.toJson,Fits]
  cases lua.numberText (lua.parsed text) <;> simp [Json.Value.equals]

mutual
/-- By induction on the value, with one table for each array and object. -/
theorem converted : ∀ (value : Json.Value) (depth : Nat) (heap : Heap F), Unique value → depth + value.depth ≤ 32 →
    Converted lua heap value (jsonToLua lua depth value heap)
  | .null, depth, heap, _, shallow => by
    rw [jsonToLua,if_neg (by omega)]
    exact converted_scalar lua heap _ .null .nil (fun _ _ => by rw [luaToJson]) (by simp [isNull])
      (by simp [Json.Value.equals,Fits])
  | .bool b, depth, heap, _, shallow => by
    rw [jsonToLua,if_neg (by omega)]
    exact converted_scalar lua heap _ (.bool b) _ (fun _ _ => by rw [luaToJson]) (by simp [isNull])
      (by simp [Json.Value.equals,Fits])
  | .integer i, depth, heap, _, shallow => by
    rw [jsonToLua,if_neg (by omega)]
    exact converted_integer lua heap i
  | .float text, depth, heap, _, shallow => by
    rw [jsonToLua,if_neg (by omega)]
    exact converted_float lua heap text
  | .string text, depth, heap, _, shallow => by
    rw [jsonToLua,if_neg (by omega)]
    exact converted_scalar lua heap _ (.string text) _ (fun _ _ => by rw [luaToJson]; rfl) (by simp [isNull])
      (by simp [Json.Value.equals,Fits])
  | .array items, depth, heap, unique, shallow => by
    rw [Json.Value.depth] at shallow
    rw [jsonToLua,if_neg (by omega),setItems_eq]
    refine converted_table lua depth heap _ _ rfl (fun entry inside => ?_) (itemEntries_distinct items)
      (fun after grows stored => array_read lua heap.length after heap.length (Nat.le_refl _) grows items stored)
    obtain ⟨item,listed,rfl⟩ := List.mem_map.mp inside
    exact converted_items items (depth + 1) unique (by omega) item.1 (List.fst_mem_of_mem_zipIdx listed)
  | .object members, depth, heap, unique, shallow => by
    rw [Json.Value.depth] at shallow
    rw [jsonToLua,if_neg (by omega),setMembers_eq]
    refine converted_table lua depth heap _ _ rfl (fun entry inside => ?_) (memberEntries_distinct members unique.1)
      (fun after grows stored => object_read lua heap.length after heap.length (Nat.le_refl _) grows members unique.1 stored)
    obtain ⟨member,listed,rfl⟩ := List.mem_map.mp inside
    exact converted_members members (depth + 1) unique.2 (by omega) member listed

theorem converted_items : ∀ (items : List Json.Value) (depth : Nat), UniqueItems items → depth + Json.itemsDepth items ≤ 32 →
    ∀ item ∈ items, ∀ heap : Heap F, Converted lua heap item (jsonToLua lua depth item heap)
  | [], _, _, _, _, member, _ => by cases member
  | item :: rest, depth, unique, shallow, other, member, heap => by
    rw [Json.itemsDepth] at shallow
    cases List.mem_cons.mp member with
    | inl first => exact first ▸ converted item depth heap unique.1 (by omega)
    | inr later => exact converted_items rest depth unique.2 (by omega) other later heap

theorem converted_members : ∀ (members : List (String × Json.Value)) (depth : Nat), UniqueMembers members →
    depth + Json.membersDepth members ≤ 32 →
    ∀ member ∈ members, ∀ heap : Heap F, Converted lua heap member.2 (jsonToLua lua depth member.2 heap)
  | [], _, _, _, _, member, _ => by cases member
  | (name,value) :: rest, depth, unique, shallow, other, member, heap => by
    rw [Json.membersDepth] at shallow
    cases List.mem_cons.mp member with
    | inl first => exact first ▸ converted value depth heap unique.1 (by omega)
    | inr later => exact converted_members rest depth unique.2 (by omega) other later heap
end

theorem converts_unique (heap : Heap F) (made : LuaValue F) (j j' : Json.Value) (one : Converts lua heap made j)
    (other : Converts lua heap made j') : j = j' := by
  obtain ⟨fuel,settled⟩ := one
  obtain ⟨fuel',settled'⟩ := other
  have first := settled (max fuel fuel') (Nat.le_max_left _ _)
  exact Option.some_inj.mp (first.symm.trans (settled' _ (Nat.le_max_right _ _)))

end Conversion

section Borders
variable (items : List Json.Value)

theorem place_iff (n : Nat) : .integer (n + 1) ∈ (filled (itemEntries 0 items)).map Prod.fst ↔
    ∃ item, items[n]? = some item ∧ isNull item = false := by
  rw [List.mem_map]
  constructor
  · rintro ⟨⟨key,item⟩,kept,rfl⟩
    obtain ⟨inside,present⟩ := List.mem_filter.mp kept
    exact ⟨item,(mem_itemEntries items n item).mp inside,by simpa using present⟩
  · rintro ⟨item,found,present⟩
    exact ⟨(.integer (n + 1),item),List.mem_filter.mpr ⟨(mem_itemEntries items n item).mpr found,by simp [present]⟩,rfl⟩

/-- An array without null is as long as its table. -/
theorem rawLen_full (full : ∀ item ∈ items, isNull item = false) :
    lua.rawLen ((filled (itemEntries 0 items)).map Prod.fst) = items.length := by
  have border := lua.border ((filled (itemEntries 0 items)).map Prod.fst)
  generalize lua.rawLen ((filled (itemEntries 0 items)).map Prod.fst) = n at border
  obtain ⟨last,gap⟩ := border
  have low : items.length ≤ n := by
    by_contra less
    have below : n < items.length := by omega
    exact gap ((place_iff items n).mpr ⟨items[n],List.getElem?_eq_getElem below,full _ (List.getElem_mem below)⟩)
  have high : n ≤ items.length := by
    cases n with
    | zero => exact Nat.zero_le _
    | succ m =>
      cases last with
      | inl zero => cases zero
      | inr place =>
        obtain ⟨item,found,-⟩ := (place_iff items m).mp (by exact_mod_cast place)
        have := (List.getElem?_eq_some_iff.mp found).1
        omega
  omega

/-- An array with null at its end is longer than its table. -/
theorem rawLen_null (rest : List Json.Value) :
    lua.rawLen ((filled (itemEntries 0 (rest ++ [.null]))).map Prod.fst) ≠ (rest ++ [Json.Value.null]).length := by
  intro same
  have border := (lua.border ((filled (itemEntries 0 (rest ++ [.null]))).map Prod.fst)).1
  rw [same,List.length_append,List.length_singleton] at border
  cases border with
  | inl zero => cases zero
  | inr place =>
    obtain ⟨item,found,present⟩ := (place_iff _ rest.length).mp (by exact_mod_cast place)
    rw [List.getElem?_append_right (Nat.le_refl _),Nat.sub_self] at found
    rw [← Option.some_inj.mp found] at present
    cases present

end Borders

theorem survives_iff (value : Json.Value) (heap : Heap F) (unique : Unique value) (shallow : value.depth ≤ 32) :
    Survives lua (jsonToLua lua 0 value heap).2 (jsonToLua lua 0 value heap).1 value ↔ Fits lua value := by
  obtain ⟨j,lasting,fits⟩ := (converted lua value 0 heap unique (by omega)).read
  have converts := lasting _ (fun _ _ _ => rfl)
  rw [← fits]
  constructor
  · rintro ⟨j',converts',equal⟩
    exact converts_unique lua _ _ j' j converts' converts ▸ equal
  · exact fun equal => ⟨j,converts,equal⟩

/-- A JSON value survives exactly if it fits, and the way back ends where no table contains itself. -/
theorem bridge_keeps :
    (∀ (value : Json.Value) (heap : Heap F), Unique value → value.depth ≤ 32 →
      (Survives lua (jsonToLua lua 0 value heap).2 (jsonToLua lua 0 value heap).1 value ↔ Fits lua value)) ∧
    ∀ (heap : Heap F) (value : LuaValue F), Grounded heap value → ∃ j, Converts lua heap value j :=
  ⟨survives_iff lua,converts_grounded lua⟩

theorem exists_gap (keys : List Key) : ∃ n : Nat, Key.integer (n + 1) ∉ keys := by
  by_contra none
  have all : ∀ n : Nat, Key.integer (n + 1) ∈ keys := fun n => by_contra (fun gap => none ⟨n,gap⟩)
  have apart : ((List.range (keys.length + 1)).map (fun n : Nat => Key.integer (n + 1))).Nodup := by
    refine List.nodup_range.map (fun n m same => ?_)
    have := Key.integer.inj same
    omega
  have inside : (List.range (keys.length + 1)).map (fun n : Nat => Key.integer (n + 1)) ⊆ keys := by
    intro key member
    obtain ⟨n,-,rfl⟩ := List.mem_map.mp member
    exact all n
  have fewer := (apart.subperm inside).length_le
  rw [List.length_map,List.length_range] at fewer
  omega

/-- An interpreter that takes the first border and gives pairs as they were set; its only number is zero. -/
def firstBorder : Lua Unit where
  asF64 _ := ()
  parsed _ := ()
  numberText _ := some "0.0"
  rawLen keys := Nat.find (exists_gap keys)
  border keys := by
    refine ⟨?_,Nat.find_spec (exists_gap keys)⟩
    cases found : Nat.find (exists_gap keys) with
    | zero => exact .inl rfl
    | succ n => exact .inr (not_not.mp (Nat.find_min (exists_gap keys) (by omega)))
  pairs t := t
  paired t := .refl t

theorem bridge_keeps_numbered :
    Survives firstBorder (jsonToLua firstBorder 0 (.object [("7",.array [.integer 1,.bool false])]) []).2
      (jsonToLua firstBorder 0 (.object [("7",.array [.integer 1,.bool false])]) []).1
      (.object [("7",.array [.integer 1,.bool false])]) ∧
    ∃ j, Converts firstBorder [[(.integer 1,.table 1)]] (.table 0) j := by
  constructor
  · refine ((bridge_keeps firstBorder).1 _ [] ?_ (by decide)).mpr ?_
    · simp [Serde.Unique,UniqueMembers,UniqueItems,keys]
    · have full := rawLen_full firstBorder [.integer 1,.bool false] (by simp [isNull])
      simp [Fits,FitItems,FitMembers,isNull,full,IsI64,i64Min,i64Max]
  · refine (bridge_keeps firstBorder).2 _ _ ?_
    have edge (a b : Nat) (has : Has ([[(.integer 1,.table 1)]] : Heap Unit) a b) : a = 0 ∧ b = 1 := by
      obtain ⟨key,inside⟩ := has
      cases a with
      | zero =>
        have same := List.mem_singleton.mp inside
        exact ⟨rfl,LuaValue.table.inj (Prod.mk.inj same).2⟩
      | succ a => cases inside
    intro _ _ ref _ cycle
    obtain ⟨_,first,_⟩ := Relation.TransGen.head'_iff.mp cycle
    obtain ⟨_,_,last⟩ := Relation.TransGen.tail'_iff.mp cycle
    have start := (edge _ _ first).1
    have finish := (edge _ _ last).2
    omega

/-- An empty array comes back as an object, and a table that contains itself is never read. -/
theorem bridge_loses :
    ¬Survives firstBorder (jsonToLua firstBorder 0 (.array []) []).2
      (jsonToLua firstBorder 0 (.array []) []).1 (.array []) ∧
    ∀ fuel, luaToJson firstBorder [[(.string (.text "self"),.table 0)]] fuel (.table 0) = none := by
  constructor
  · rintro ⟨j,converts,equal⟩
    have empty : firstBorder.rawLen [] = 0 := (firstBorder.border []).1.resolve_right (by simp)
    have object := converts_object firstBorder [[]] 0 [] empty .nil
    rw [converts_unique firstBorder [[]] (.table 0) j _ converts object] at equal
    cases equal
  · intro fuel
    have named : firstBorder.rawLen [.string (.text "self")] = 0 := (firstBorder.border _).1.resolve_right (by simp)
    induction fuel with
    | zero => rw [luaToJson]
    | succ fuel ih =>
      have fields : fields firstBorder ([(.string (.text "self"),.table 0)] : Table Unit) = [("self",.table 0)] := rfl
      have keys : Table.keys ([(.string (.text "self"),.table 0)] : Table Unit) = [.string (.text "self")] := rfl
      have table : Heap.at ([[(.string (.text "self"),.table 0)]] : Heap Unit) 0 = [(.string (.text "self"),.table 0)] := rfl
      rw [luaToJson]
      simp only [table,keys,named,Nat.lt_irrefl,if_false,fields,List.mapM_cons,ih]
      rfl

end ClawKernel.Script.RoundTrip
