import ClawKernel.Lib.Sized
import ClawKernel.Provider.Types
import Mathlib.Data.List.Infix

/-! `SimpleSummarizer`: previews of the first messages, cut at a number of bytes.
-/
namespace ClawKernel.Loop.Summarizer
open Lib.Sized
open Provider.Types (Role Message)

/-- A text's size in UTF-8. -/
abbrev len (text : List Char) : Nat := total Char.utf8Size text

/-- The name a role is formatted with. -/
def roleName : Role → String
  | .user => "User"
  | .assistant => "Assistant"
  | .system => "System"
  | .tool => "Tool"

def marker : List Char := "...".toList

def header : List Char := "Summary of conversation:\n".toList

def preview (content : List Char) : List Char :=
  let preview := content.take 100
  if 100 < len content then preview ++ marker else preview

def label (i : Nat) (role : Role) : List Char :=
  "[".toList ++ (toString i).toList ++ "] ".toList ++ (roleName role).toList ++ ": ".toList

def line (i : Nat) (msg : Message) : List Char := label i msg.role ++ preview msg.content.toList ++ ['\n']

/-- The lines of the messages, counted from a number. -/
def lines : Nat → List Message → List Char
  | _,[] => []
  | i,msg :: rest => line i msg ++ lines (i + 1) rest

def more (count : Nat) : List Char :=
  if 5 < count then "\n... and ".toList ++ (toString (count - 5)).toList ++ " more messages".toList else []

/-- The summary of some messages, of any length. -/
def whole (messages : List Message) : List Char :=
  header ++ lines 1 (messages.take 5) ++ more messages.length

/-- `none` is a panic: `String::truncate` within a character. -/
def summarize (maxLength : Nat) (messages : List Message) : Option (List Char) :=
  if messages.isEmpty then some "No messages to summarize.".toList
  else
    let summary := whole messages
    if maxLength < len summary then (cut Char.utf8Size summary maxLength).map (· ++ marker) else some summary

theorem length_le_len (text : List Char) : text.length ≤ len text := length_le_total _ Char.utf8Size_pos text

/-! Only previews have characters of more than a byte. -/

def Ascii (text : List Char) : Prop := ∀ c ∈ text, c.utf8Size = 1

instance (text : List Char) : Decidable (Ascii text) :=
  decidable_of_iff (text.all (fun c => c.utf8Size == 1) = true) (by simp [Ascii])

theorem ascii_append (l m : List Char) (one : Ascii l) (two : Ascii m) : Ascii (l ++ m) :=
  List.forall_mem_append.mpr ⟨one,two⟩

theorem ascii_digits (n : Nat) : Ascii (toString n).toList := by
  intro c inside
  rw [Nat.toString_eq_repr,Nat.toList_repr] at inside
  have digit : c.isDigit = true := Nat.isDigit_of_mem_toDigits (by omega) (by omega) inside
  rw [Char.isDigit,Bool.and_eq_true,decide_eq_true_iff,decide_eq_true_iff] at digit
  exact Char.utf8Size_eq_one_iff.mpr (Nat.le_trans digit.2 (by decide))

theorem ascii_roleName (role : Role) : Ascii (roleName role).toList := by
  cases role <;> decide

theorem ascii_label (i : Nat) (role : Role) : Ascii (label i role) := by
  unfold label
  refine ascii_append _ _ (ascii_append _ _ (ascii_append _ _ (ascii_append _ _ ?_ (ascii_digits i)) ?_)
    (ascii_roleName role)) ?_
  · decide
  · decide
  · decide

theorem ascii_more (count : Nat) : Ascii (more count) := by
  unfold more
  split_ifs
  · exact ascii_append _ _ (ascii_append _ _ (by decide) (ascii_digits _)) (by decide)
  · exact List.forall_mem_nil _

/-- The bytes before the preview in a line. -/
def labelSize (role : Role) : Nat := 6 + (roleName role).length

def lineSize (msg : Message) : Nat := labelSize msg.role + len (preview msg.content.toList) + 1

theorem len_label (i : Nat) (role : Role) (small : i < 10) : len (label i role) = labelSize role := by
  have digits : (toString i).toList.length = 1 := by
    rw [Nat.toString_eq_repr,Nat.toList_repr,Nat.toDigits_of_lt_base small,List.length_singleton]
  rw [len,total_units _ _ (ascii_label i role),label,labelSize,← String.length_toList]
  simp only [List.length_append,digits]
  have opening : "[".toList.length = 1 := rfl
  have closing : "] ".toList.length = 2 := rfl
  have colon : ": ".toList.length = 2 := rfl
  omega

theorem len_line (i : Nat) (msg : Message) (small : i < 10) : len (line i msg) = lineSize msg := by
  rw [line,len,total_append,total_append,lineSize,← len_label i msg.role small]
  rfl

section Places
variable (start n : Nat)

theorem within_preview (content : List Char) :
    Within Char.utf8Size start (preview content) n ↔ Within Char.utf8Size start (content.take 100) n := by
  unfold preview
  simp only
  split_ifs
  · rw [within_append]
    exact or_iff_left (not_within_units _ _ _ _ (show Ascii marker by decide))
  · rfl

theorem within_line (i : Nat) (msg : Message) (small : i < 10) :
    Within Char.utf8Size start (line i msg) n ↔
      Within Char.utf8Size (start + labelSize msg.role) (msg.content.toList.take 100) n := by
  rw [line,within_append,within_append,within_preview,or_iff_left,or_iff_right,← len_label i msg.role small]
  · exact not_within_units _ _ _ _ (ascii_label i msg.role)
  · exact not_within_units _ _ _ _ (show Ascii ['\n'] by decide)

/-- A place within the lines is one within a preview. -/
theorem within_lines (msgs : List Message) (i : Nat) (small : i + msgs.length ≤ 10) :
    Within Char.utf8Size start (lines i msgs) n ↔ ∃ before msg after, msgs = before ++ msg :: after ∧
      Within Char.utf8Size (start + total lineSize before + labelSize msg.role) (msg.content.toList.take 100) n := by
  induction msgs generalizing i start with
  | nil =>
    refine iff_of_false (not_within_nil _ _ _) ?_
    rintro ⟨before,msg,after,same,_⟩
    simp at same
  | cons msg rest ih =>
    rw [List.length_cons] at small
    have size : total Char.utf8Size (line i msg) = lineSize msg := len_line i msg (by omega)
    rw [lines,within_append,within_line start n i msg (by omega),ih (start + total Char.utf8Size (line i msg)) (i + 1)
      (by omega),size]
    constructor
    · rintro (first | ⟨before,later,after,rfl,inside⟩)
      · exact ⟨[],msg,rest,rfl,first⟩
      · refine ⟨msg :: before,later,after,rfl,?_⟩
        rwa [total_cons,← Nat.add_assoc]
    · rintro ⟨before,later,after,same,inside⟩
      cases before with
      | nil =>
        obtain ⟨rfl,rfl⟩ := List.cons_eq_cons.mp same
        exact .inl inside
      | cons first before =>
        obtain ⟨rfl,rfl⟩ := List.cons_eq_cons.mp same
        rw [total_cons,← Nat.add_assoc] at inside
        exact .inr ⟨before,later,after,rfl,inside⟩

end Places

/-! What a whole summary ends with. -/

def EndsLine (text : List Char) : Prop := text.getLast? = some '\n'

theorem lines_endsLine (front : List Char) (ends : EndsLine front) (i : Nat) (msgs : List Message) :
    EndsLine (front ++ lines i msgs) := by
  induction msgs generalizing front i with
  | nil => rwa [lines,List.append_nil]
  | cons msg rest ih =>
    rw [lines,← List.append_assoc]
    refine ih _ ?_ (i + 1)
    rw [EndsLine,line,← List.append_assoc,List.getLast?_concat]

theorem last_of_marker (text : List Char) (ends : marker <:+ text) : text.getLast? = some '.' := by
  obtain ⟨front,rfl⟩ := ends
  rw [List.getLast?_append]
  rfl

/-- A summary that is not cut does not end as one that is. -/
theorem whole_unmarked (messages : List Message) : ¬marker <:+ whole messages := by
  intro ends
  have last := last_of_marker _ ends
  unfold whole more at last
  split_ifs at last with many
  · have letter : " more messages".toList.getLast? = some 's' := rfl
    rw [← List.append_assoc,List.getLast?_append,letter,Option.some_or] at last
    exact absurd last (by decide)
  · rw [List.append_nil,lines_endsLine header rfl 1] at last
    exact absurd last (by decide)

section Claim
variable (maxLength : Nat) (messages : List Message)

/-- The summary is as it should be. -/
structure Bounded : Prop where
  returns : summarize maxLength messages ≠ none
  bounded : ∀ text, summarize maxLength messages = some text → text.length ≤ maxLength + marker.length
  kept : messages ≠ [] → ∀ text, summarize maxLength messages = some text →
    text = whole messages ∨ ∃ kept, kept <+: whole messages ∧ text = kept ++ marker
  marked : messages ≠ [] → ∀ text, summarize maxLength messages = some text →
    (marker <:+ text ↔ text ≠ whole messages)

/-- The limit falls within a character of a preview: at a byte after its first, before its last. -/
def Splits : Prop :=
  ∃ before msg after, messages.take 5 = before ++ msg :: after ∧
    Within Char.utf8Size (25 + total lineSize before + labelSize msg.role) (msg.content.toList.take 100) maxLength

theorem splits_iff : Within Char.utf8Size 0 (whole messages) maxLength ↔ Splits maxLength messages := by
  have size : total Char.utf8Size header = 25 := rfl
  rw [whole,within_append,within_append,or_iff_left,or_iff_right,size,within_lines]
  · rfl
  · rw [List.length_take]
    omega
  · exact not_within_units _ _ _ _ (show Ascii header by decide)
  · exact not_within_units _ _ _ _ (ascii_more _)

theorem summarize_filled (filled : messages ≠ []) :
    summarize maxLength messages =
      if maxLength < len (whole messages) then (cut Char.utf8Size (whole messages) maxLength).map (· ++ marker)
      else some (whole messages) := by
  rw [summarize,if_neg (by simpa using filled)]

/-- Without a panic the summary is whole, or what fits in the limit with the marker. -/
theorem summarize_some (filled : messages ≠ []) (text : List Char) (ends : summarize maxLength messages = some text) :
    (len (whole messages) ≤ maxLength ∧ text = whole messages) ∨
      ∃ kept, kept <+: whole messages ∧ len kept = maxLength ∧ text = kept ++ marker := by
  rw [summarize_filled maxLength messages filled] at ends
  split_ifs at ends with long
  · obtain ⟨kept,cuts,rfl⟩ := Option.map_eq_some_iff.mp ends
    obtain ⟨starts,size⟩ := cut_some _ _ kept maxLength cuts
    exact .inr ⟨kept,starts,size.trans (Nat.min_eq_left long.le),rfl⟩
  · exact .inl ⟨not_lt.mp long,(Option.some.inj ends).symm⟩

theorem summarize_none (filled : messages ≠ []) : summarize maxLength messages = none ↔ Splits maxLength messages := by
  rw [summarize_filled maxLength messages filled,← splits_iff]
  split_ifs with long
  · rw [Option.map_eq_none_iff,cut_none _ _ maxLength 0,Nat.zero_add]
  · refine iff_of_false (by simp) ?_
    rintro ⟨before,c,after,same,_,below⟩
    have size : len (whole messages) = total Char.utf8Size before + (c.utf8Size + total Char.utf8Size after) := by
      rw [len,same,total_append,total_cons]
    omega

theorem bounded_filled (filled : messages ≠ []) : Bounded maxLength messages ↔ ¬Splits maxLength messages := by
  rw [← summarize_none maxLength messages filled]
  refine ⟨fun bounded => bounded.returns,fun returns => ⟨returns,?_,fun _ => ?_,fun _ => ?_⟩⟩
  · intro text ends
    obtain ⟨fits,rfl⟩ | ⟨kept,_,size,rfl⟩ := summarize_some maxLength messages filled text ends
    · have short := length_le_len (whole messages)
      omega
    · have short := length_le_len kept
      rw [List.length_append]
      omega
  · intro text ends
    obtain ⟨_,rfl⟩ | ⟨kept,starts,_,rfl⟩ := summarize_some maxLength messages filled text ends
    · exact .inl rfl
    · exact .inr ⟨kept,starts,rfl⟩
  · intro text ends
    obtain ⟨_,rfl⟩ | ⟨kept,_,_,rfl⟩ := summarize_some maxLength messages filled text ends
    · exact iff_of_false (whole_unmarked messages) (fun cuts => cuts rfl)
    · refine iff_of_true (List.suffix_append kept marker) (fun same => whole_unmarked messages ?_)
      rw [← same]
      exact List.suffix_append kept marker

theorem bounded_empty : Bounded maxLength [] ↔ 22 ≤ maxLength := by
  have size : "No messages to summarize.".toList.length = 25 := rfl
  have dots : marker.length = 3 := rfl
  constructor
  · intro bounded
    have short := bounded.bounded _ rfl
    omega
  · intro large
    refine ⟨by simp [summarize],fun text ends => ?_,fun filled => (filled rfl).elim,fun filled => (filled rfl).elim⟩
    obtain rfl := Option.some.inj ends
    omega

/-- A summary is as it should be unless the limit falls within a character, or is too small for the text for no
messages. -/
theorem summarize_bounded :
    Bounded maxLength messages ↔ (messages = [] → 22 ≤ maxLength) ∧ ¬Splits maxLength messages := by
  by_cases empty : messages = []
  · obtain rfl := empty
    rw [bounded_empty,forall_prop_of_true rfl,and_iff_left]
    rintro ⟨before,msg,after,same,_⟩
    simp at same
  · rw [bounded_filled maxLength messages empty,and_iff_right (fun none => (empty none).elim)]

end Claim

/-- A limit within the letter of a message, and none at all. -/
theorem summaries_fail : ¬Bounded 36 [.user "é"] ∧ ¬Bounded 0 [] := by
  constructor
  · intro bounded
    exact bounded.returns (by decide)
  · intro bounded
    exact absurd (bounded.bounded _ rfl) (by decide)

end ClawKernel.Loop.Summarizer
