import ClawKernel.Lib.Replace
import Mathlib.Data.List.Infix

/-! Reading symbolic expressions character by character: words, quoted texts with a backslash before
a quote or a backslash, lists in parentheses and comments up to the end of a line.
-/
namespace ClawKernel.Lib.Sexpr

inductive Datum where
  | word (letters : List Char)
  | text (letters : List Char)
  | list (items : List Datum)

/-- What the next character belongs to. -/
inductive Mode where
  | between
  | word (letters : List Char)
  | text (letters : List Char)
  | escaped (letters : List Char)
  | comment
  deriving DecidableEq, Repr

/-- The data of the innermost list that is open, and of the lists around it from the inside out. -/
structure Reader where
  mode : Mode
  items : List Datum
  outer : List (List Datum)

/-- A word ends before any character that is none of its own. -/
def Reader.settle (reader : Reader) : Reader :=
  match reader.mode with
  | .word letters => ⟨.between,reader.items ++ [.word letters],reader.outer⟩
  | _ => reader

def Reader.letter (reader : Reader) (c : Char) : Reader :=
  match reader.mode with
  | .word letters => { reader with mode := .word (letters ++ [c]) }
  | _ => { reader with mode := .word [c] }

/-- What a character does outside of texts and comments. -/
def Reader.token (reader : Reader) (c : Char) : Option Reader :=
  if c = '(' then some ⟨.between,[],reader.settle.items :: reader.settle.outer⟩
  else if c = ')' then
    match reader.settle.outer with
    | [] => none
    | around :: rest => some ⟨.between,around ++ [.list reader.settle.items],rest⟩
  else if c = '"' then some { reader.settle with mode := .text [] }
  else if c = ';' then some { reader.settle with mode := .comment }
  else if c.isWhitespace then some reader.settle
  else some (reader.letter c)

def Reader.take (reader : Reader) (c : Char) : Option Reader :=
  match reader.mode with
  | .text letters =>
    if c = '"' then some ⟨.between,reader.items ++ [.text letters],reader.outer⟩
    else if c = '\\' then some { reader with mode := .escaped letters }
    else some { reader with mode := .text (letters ++ [c]) }
  | .escaped letters =>
    if c = '"' ∨ c = '\\' then some { reader with mode := .text (letters ++ [c]) } else none
  | .comment => some (if c = '\n' then { reader with mode := .between } else reader)
  | _ => reader.token c

def takeAll (text : List Char) (reader : Reader) : Option Reader := text.foldlM Reader.take reader

def Reader.done (reader : Reader) : Option (List Datum) :=
  match reader.settle with
  | ⟨.between,items,[]⟩ => some items
  | _ => none

/-- The data a whole text spells. -/
def read (text : List Char) : Option (List Datum) := (takeAll text ⟨.between,[],[]⟩).bind Reader.done

@[simp] theorem takeAll_nil (reader : Reader) : takeAll [] reader = some reader := rfl

@[simp] theorem takeAll_cons (c : Char) (text : List Char) (reader : Reader) :
    takeAll (c :: text) reader = (reader.take c).bind (takeAll text) := rfl

theorem takeAll_append (first second : List Char) (reader : Reader) :
    takeAll (first ++ second) reader = (takeAll first reader).bind (takeAll second) := by
  rw [takeAll,List.foldlM_append]
  rfl

/-- A text that spells these data wherever one datum may stand. -/
def Spells (text : List Char) (data : List Datum) : Prop :=
  ∀ items outer, takeAll text ⟨.between,items,outer⟩ = some ⟨.between,items ++ data,outer⟩

theorem Spells.nil : Spells [] [] := by
  intro items outer
  rw [takeAll_nil,List.append_nil]

theorem Spells.append {first second : List Char} {one other : List Datum} (left : Spells first one)
    (right : Spells second other) : Spells (first ++ second) (one ++ other) := by
  intro items outer
  rw [takeAll_append,left,Option.bind_some,right,List.append_assoc]

theorem Spells.flatten {α : Type*} {text : α → List Char} {data : α → List Datum} (xs : List α)
    (each : ∀ x ∈ xs, Spells (text x) (data x)) : Spells (xs.flatMap text) (xs.flatMap data) := by
  induction xs with
  | nil => exact .nil
  | cons x rest ih =>
    rw [List.flatMap_cons,List.flatMap_cons]
    exact (each x List.mem_cons_self).append (ih fun y member => each y (List.mem_cons_of_mem x member))

theorem Spells.read {text : List Char} {data : List Datum} (spells : Spells text data) :
    read text = some data := by
  rw [Sexpr.read,spells,Option.bind_some,List.nil_append]
  rfl

/-- A list over several texts: the first opens it, the last closes it. -/
theorem Spells.block {front inside back : List Char} {data : List Datum} (held last : List Datum)
    (opens : ∀ items outer, takeAll front ⟨.between,items,outer⟩ = some ⟨.between,held,items :: outer⟩)
    (within : Spells inside data)
    (closes : ∀ items around outer, takeAll back ⟨.between,items,around :: outer⟩ =
      some ⟨.between,around ++ [.list (items ++ last)],outer⟩) :
    Spells (front ++ inside ++ back) [.list (held ++ data ++ last)] := by
  intro items outer
  rw [takeAll_append,takeAll_append,opens,Option.bind_some,within,Option.bind_some,closes]

section Escaped
open Replace

/-- The characters that stand for one character of a text. -/
def spelled (c : Char) : List Char := if c = '"' ∨ c = '\\' then ['\\',c] else [c]

theorem takeAll_spelled (c : Char) (letters : List Char) (items : List Datum) (outer : List (List Datum)) :
    takeAll (spelled c) ⟨.text letters,items,outer⟩ = some ⟨.text (letters ++ [c]),items,outer⟩ := by
  by_cases special : c = '"' ∨ c = '\\'
  · rw [spelled,if_pos special,takeAll_cons]
    rcases special with rfl | rfl <;> rfl
  · obtain ⟨quote,backslash⟩ := not_or.mp special
    simp [spelled,Reader.take,quote,backslash]

/-- Within a text the characters spelled are the characters read. -/
theorem takeAll_text (text letters : List Char) (items : List Datum) (outer : List (List Datum)) :
    takeAll (text.flatMap spelled) ⟨.text letters,items,outer⟩ = some ⟨.text (letters ++ text),items,outer⟩ := by
  induction text generalizing letters with
  | nil => rw [List.flatMap_nil,takeAll_nil,List.append_nil]
  | cons c rest ih =>
    rw [List.flatMap_cons,takeAll_append,takeAll_spelled,Option.bind_some,ih,List.append_assoc,List.singleton_append]

theorem replaceAll_single (a : Char) (fresh text : List Char) :
    replaceAll [a] fresh text = text.flatMap (fun c => if c = a then fresh else [c]) := by
  rw [replaceAll]
  induction text with
  | nil => rfl
  | cons c rest ih =>
    rw [replaceFrom,List.flatMap_cons]
    by_cases same : c = a
    · rw [if_pos (by rw [same]; exact List.prefix_append [a] rest),if_pos same]
      exact congrArg (fresh ++ ·) ih
    · have other : ¬[a] <+: c :: rest := fun starts => same (List.cons_prefix_cons.mp starts).1.symm
      rw [if_neg other,if_neg same,ih,List.singleton_append]

/-- A list that ends with a quoted text: what stands around the text spells the rest. -/
theorem spells_quoted {front back : List Char} (datum : List Char → Datum) (text : List Char)
    (opens : ∀ items outer, ∃ held around, takeAll front ⟨.between,items,outer⟩ = some ⟨.text [],held,around⟩ ∧
      ∀ letters, takeAll back ⟨.text letters,held,around⟩ = some ⟨.between,items ++ [datum letters],outer⟩) :
    Spells (front ++ text.flatMap spelled ++ back) [datum text] := by
  intro items outer
  obtain ⟨held,around,opened,closes⟩ := opens items outer
  rw [takeAll_append,takeAll_append,opened,Option.bind_some,takeAll_text,List.nil_append,Option.bind_some,closes]

/-- Backslashes first and quotes then: each character is spelled by itself. -/
theorem replaceAll_escapes (text : List Char) :
    replaceAll ['"'] ['\\','"'] (replaceAll ['\\'] ['\\','\\'] text) = text.flatMap spelled := by
  rw [replaceAll_single,replaceAll_single,List.flatMap_assoc]
  congr 1
  funext c
  by_cases backslash : c = '\\'
  · subst backslash
    rfl
  · by_cases quote : c = '"'
    · subst quote
      rfl
    · simp [spelled,backslash,quote]

end Escaped

end ClawKernel.Lib.Sexpr
