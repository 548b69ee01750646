import ClawKernel.Lib.Json
import Mathlib.Data.List.Infix

/-! Where a word in quotes stands in the text of a JSON value: it is a string of the
value, or one of its strings ends with the word after a quote of its own.
-/
namespace ClawKernel.Lib.Json

def quotedWord (word : List Char) : List Char := '"' :: word ++ ['"']

def endsQuoted (word text : List Char) : Bool := decide (text = word) || decide ('"' :: word <:+ text)

mutual
/-- A string of the value, or the name of a member, that reads as the word in quotes. -/
def Value.mentions (word : List Char) : Value → Bool
  | .float text => decide (quotedWord word <:+: text.toList)
  | .string text => endsQuoted word text.toList
  | .array items => mentionsItems word items
  | .object members => mentionsMembers word members
  | _ => false

def mentionsItems (word : List Char) : List Value → Bool
  | [] => false
  | item :: rest => item.mentions word || mentionsItems word rest

def mentionsMembers (word : List Char) : List (String × Value) → Bool
  | [] => false
  | (name,value) :: rest => endsQuoted word name.toList || value.mentions word || mentionsMembers word rest
end

section Infix
variable {α : Type*} (needle : List α)

/-- What does not hold an element of a text lies on one side of it. -/
theorem infix_append_cons (before after : List α) (a : α) (apart : a ∉ needle) :
    needle <:+: before ++ a :: after ↔ needle <:+: before ∨ needle <:+: after := by
  constructor
  · rintro ⟨front,back,parts⟩
    rw [List.append_assoc] at parts
    rcases List.append_eq_append_iff.mp parts with ⟨middle,rfl,rest⟩ | ⟨middle,rfl,rest⟩
    · rcases List.append_eq_append_iff.mp rest with ⟨gap,rfl,_⟩ | ⟨gap,rfl,more⟩
      · exact .inl ⟨front,gap,List.append_assoc _ _ _⟩
      · cases gap with
        | nil => exact .inl ⟨front,[],by simp⟩
        | cons b gap =>
          obtain ⟨rfl,_⟩ := List.cons.inj more
          simp at apart
    · cases middle with
      | nil =>
        cases needle with
        | nil => exact .inl List.nil_infix
        | cons b needle =>
          obtain ⟨rfl,_⟩ := List.cons.inj rest
          simp at apart
      | cons b middle =>
        obtain ⟨_,later⟩ := List.cons.inj rest
        refine .inr ⟨middle,back,?_⟩
        rw [List.append_assoc]
        exact later.symm
  · rintro (left | right)
    · exact left.trans (List.prefix_append _ _).isInfix
    · exact right.trans ((List.suffix_cons a after).trans (List.suffix_append _ _)).isInfix

theorem infix_surrounded (first last : α) (text : List α) (filled : needle ≠ []) (opens : first ∉ needle)
    (closes : last ∉ needle) : needle <:+: first :: text ++ [last] ↔ needle <:+: text := by
  have none : ¬needle <:+: [] := fun inside => filled (List.infix_nil.mp inside)
  rw [infix_append_cons needle (first :: text) [] last closes,or_iff_left none]
  have front := infix_append_cons needle [] text first opens
  rw [List.nil_append] at front
  rw [front,or_iff_right none]

end Infix

theorem infix_separated (needle : List Char) (filled : needle ≠ []) (apart : ',' ∉ needle) (parts : List (List Char)) :
    needle <:+: separated parts ↔ ∃ part ∈ parts, needle <:+: part := by
  induction parts with
  | nil => simpa [separated] using filled
  | cons part rest ih =>
    cases rest with
    | nil => simp [separated]
    | cons next rest =>
      rw [separated,infix_append_cons needle _ _ _ apart,ih]
      simp

/-- A character that is written as it is, and not between the parts of a value. -/
def plain (c : Char) : Bool := decide (escape c = [c]) && !decide (c ∈ [',',':','[',']','\x7b','\x7d'])

theorem hexDigit_ne_quote : ∀ n < 16, hexDigit n ≠ '"' := by
  decide

theorem escape_no_quote (c : Char) (other : c ≠ '"') : '"' ∉ escape c := by
  unfold escape
  rw [if_neg other]
  split_ifs
  all_goals try decide
  · have high := hexDigit_ne_quote (c.toNat / 16) (by omega)
    have low := hexDigit_ne_quote (c.toNat % 16) (by omega)
    simp only [List.mem_cons,List.not_mem_nil,or_false,not_or]
    exact ⟨by decide,by decide,by decide,by decide,high.symm,low.symm⟩
  · simpa using other.symm

/-- An escape begins with a backslash. -/
theorem escape_head (c : Char) : (∃ rest, escape c = '\\' :: rest) ∨ escape c = [c] ∧ c ≠ '"' := by
  by_cases quote : c = '"'
  · exact .inl ⟨_,if_pos quote⟩
  unfold escape
  rw [if_neg quote]
  split_ifs
  all_goals try exact .inl ⟨_,rfl⟩
  exact .inr ⟨rfl,quote⟩

/-- What starts with an element that the front does not hold starts behind it. -/
theorem infix_skip {α : Type*} (needle : List α) (a : α) (front text : List α) (starts : needle.head? = some a)
    (apart : a ∉ front) : needle <:+: front ++ text ↔ needle <:+: text := by
  induction front with
  | nil => rfl
  | cons b front ih =>
    obtain ⟨other,rest⟩ := List.ne_and_not_mem_of_not_mem_cons apart
    obtain ⟨tail,rfl⟩ := List.head?_eq_some_iff.mp starts
    rw [List.cons_append,List.infix_cons_iff,or_iff_right (fun here => other (List.cons_prefix_cons.mp here).1)]
    exact ih rest

theorem plain_itself (c : Char) (simple : plain c = true) : escape c = [c] := by
  rw [plain,Bool.and_eq_true,decide_eq_true_iff] at simple
  exact simple.1

theorem plain_not_quote (c : Char) (simple : plain c = true) : c ≠ '"' ∧ c ≠ '\\' := by
  constructor
  · rintro rfl
    exact absurd simple (by decide)
  · rintro rfl
    exact absurd simple (by decide)

theorem number_no_quote (value : Int) : '"' ∉ (toString value).toList := by
  have digits : ∀ n : Nat, '"' ∉ n.repr.toList := by
    intro n member
    rw [Nat.repr_eq_ofList_toDigits,String.toList_ofList] at member
    have digit := Nat.isDigit_of_mem_toDigits (by decide) (by decide) member
    exact absurd digit (by decide)
  cases value with
  | ofNat n => exact digits n
  | negSucc n =>
    change '"' ∉ ("-" ++ (n + 1).repr).toList
    rw [String.toList_append,List.mem_append,not_or]
    exact ⟨by decide,digits (n + 1)⟩

theorem word_not_in (word text : List Char) (none : '"' ∉ text) : ¬quotedWord word <:+: text :=
  fun inside => none (inside.subset List.mem_cons_self)

section Words
variable (word : List Char) (simple : ∀ c ∈ word, plain c = true)
include simple

theorem apart_of_plain (c : Char) (between : c ∈ [',',':','[',']','\x7b','\x7d']) : c ∉ quotedWord word := by
  have other : c ≠ '"' := by
    rintro rfl
    revert between
    decide
  intro member
  simp only [quotedWord,List.cons_append,List.mem_cons,List.mem_append,List.not_mem_nil,or_false] at member
  rcases member with quote | inside | quote
  · exact other quote
  · have plainly := simple c inside
    rw [plain,decide_eq_true between] at plainly
    simp at plainly
  · exact other quote

/-- A written string begins with the word and ends there only if it is the word. -/
theorem word_prefix_iff (text : List Char) : word ++ ['"'] <+: text.flatMap escape ++ ['"'] ↔ text = word := by
  induction word generalizing text with
  | nil =>
    cases text with
    | nil => exact iff_of_true (List.prefix_refl _) rfl
    | cons c text =>
      refine iff_of_false ?_ (List.cons_ne_nil c text)
      intro starts
      rw [List.flatMap_cons,List.append_assoc] at starts
      rcases escape_head c with ⟨rest,slash⟩ | ⟨itself,other⟩
      · rw [slash] at starts
        exact absurd (List.cons_prefix_cons.mp starts).1 (by decide)
      · rw [itself] at starts
        exact other (List.cons_prefix_cons.mp starts).1.symm
  | cons w word ih =>
    obtain ⟨notQuote,notSlash⟩ := plain_not_quote w (simple w List.mem_cons_self)
    have later := ih (fun c member => simple c (List.mem_cons_of_mem w member))
    cases text with
    | nil =>
      refine iff_of_false ?_ (List.cons_ne_nil w word).symm
      exact fun starts => notQuote (List.cons_prefix_cons.mp starts).1
    | cons c text =>
      rw [List.flatMap_cons,List.append_assoc,List.cons_eq_cons]
      rcases escape_head c with ⟨rest,slash⟩ | ⟨itself,_⟩
      · rw [slash]
        refine iff_of_false (fun starts => notSlash (List.cons_prefix_cons.mp starts).1) ?_
        rintro ⟨rfl,_⟩
        have same := plain_itself c (simple c List.mem_cons_self)
        rw [slash] at same
        exact notSlash (List.cons.inj same).1.symm
      · rw [itself,← later text]
        exact List.cons_prefix_cons.trans (and_congr_left (fun _ => eq_comm))

/-- Behind the opening quote of a written string. -/
theorem word_infix_iff (text : List Char) :
    quotedWord word <:+: text.flatMap escape ++ ['"'] ↔ '"' :: word <:+ text := by
  induction text with
  | nil =>
    refine iff_of_false ?_ (fun ends => absurd (List.suffix_nil.mp ends) (List.cons_ne_nil _ _))
    intro inside
    have short := inside.length_le
    simp [quotedWord] at short
  | cons c text ih =>
    rw [List.flatMap_cons,List.append_assoc]
    by_cases quote : c = '"'
    · subst quote
      have slash : ¬quotedWord word <+: '\\' :: '"' :: (text.flatMap escape ++ ['"']) :=
        fun starts => absurd (List.cons_prefix_cons.mp starts).1 (by decide)
      have opened : quotedWord word <+: '"' :: (text.flatMap escape ++ ['"']) ↔ text = word := by
        rw [← word_prefix_iff word simple text]
        exact List.cons_prefix_cons.trans (and_iff_right rfl)
      change quotedWord word <:+: '\\' :: '"' :: (text.flatMap escape ++ ['"']) ↔ _
      rw [List.infix_cons_iff,or_iff_right slash,List.infix_cons_iff,opened,ih,List.suffix_cons_iff,List.cons_eq_cons,
        and_iff_right rfl,eq_comm]
    · have skipped := infix_skip (quotedWord word) '"' (escape c) (text.flatMap escape ++ ['"']) rfl
        (escape_no_quote c quote)
      rw [skipped,ih,List.suffix_cons_iff,or_iff_right]
      intro same
      exact quote (List.cons.inj same).1.symm

/-- The word in quotes stands in a written string. -/
theorem quoted_infix_iff (text : String) : quotedWord word <:+: quoted text ↔ endsQuoted word text.toList = true := by
  have opened : quotedWord word <+: '"' :: (text.toList.flatMap escape ++ ['"']) ↔ text.toList = word := by
    rw [← word_prefix_iff word simple text.toList]
    exact List.cons_prefix_cons.trans (and_iff_right rfl)
  rw [quoted,List.cons_append,List.infix_cons_iff,opened,word_infix_iff word simple text.toList,endsQuoted,
    Bool.or_eq_true,decide_eq_true_iff,decide_eq_true_iff]

mutual
/-- The word in quotes stands in the text of a value that mentions it. -/
theorem mentions_iff : ∀ value : Value, quotedWord word <:+: value.chars ↔ value.mentions word = true
  | .null => iff_of_false (word_not_in word _ (by decide)) Bool.false_ne_true
  | .bool true => iff_of_false (word_not_in word _ (by decide)) Bool.false_ne_true
  | .bool false => iff_of_false (word_not_in word _ (by decide)) Bool.false_ne_true
  | .integer value => iff_of_false (word_not_in word _ (number_no_quote value)) Bool.false_ne_true
  | .float text => by rw [Value.chars,Value.mentions,decide_eq_true_iff]
  | .string text => quoted_infix_iff word simple text
  | .array items => by
    have apart := apart_of_plain word simple
    have framed := infix_surrounded (quotedWord word) '[' ']' (separated (itemChars items)) (List.cons_ne_nil _ _)
      (apart '[' (by decide)) (apart ']' (by decide))
    rw [Value.chars,framed,infix_separated (quotedWord word) (List.cons_ne_nil _ _) (apart ',' (by decide)),
      Value.mentions]
    exact mentionsItems_iff items
  | .object members => by
    have apart := apart_of_plain word simple
    have framed := infix_surrounded (quotedWord word) '\x7b' '\x7d' (separated (memberChars members))
      (List.cons_ne_nil _ _) (apart '\x7b' (by decide)) (apart '\x7d' (by decide))
    rw [Value.chars,framed,infix_separated (quotedWord word) (List.cons_ne_nil _ _) (apart ',' (by decide)),
      Value.mentions]
    exact mentionsMembers_iff members

theorem mentionsItems_iff : ∀ items : List Value,
    (∃ part ∈ itemChars items, quotedWord word <:+: part) ↔ mentionsItems word items = true
  | [] => by simp [itemChars,mentionsItems]
  | item :: rest => by
    have first := mentions_iff item
    have later := mentionsItems_iff rest
    rw [itemChars,mentionsItems,Bool.or_eq_true,← first,← later]
    simp only [List.mem_cons,exists_eq_or_imp]

theorem mentionsMembers_iff : ∀ members : List (String × Value),
    (∃ part ∈ memberChars members, quotedWord word <:+: part) ↔ mentionsMembers word members = true
  | [] => by simp [memberChars,mentionsMembers]
  | (name,value) :: rest => by
    have first := mentions_iff value
    have named := quoted_infix_iff word simple name
    have later := mentionsMembers_iff rest
    have parted := infix_append_cons (quotedWord word) (quoted name) value.chars ':'
      (apart_of_plain word simple ':' (by decide))
    rw [memberChars,mentionsMembers,Bool.or_eq_true,Bool.or_eq_true,← first,← later,← named,← parted]
    simp only [List.mem_cons,exists_eq_or_imp]
end

end Words

end ClawKernel.Lib.Json
