import ClawKernel.Script.Transpile

/-! Integers as they are written in JavaScript, and which of these texts are read as an `i32` in the
same way.
-/
namespace ClawKernel.Script.Literals
open Lib Lib.Pieces Lib.Addresses
open Provider.Sse (isWhitespace trim)
open Tools.Validation (Text)
open Transpile

def underscore (c : Char) : Bool := c = '_'

/-- Digits in groups, with an underscore between two of them. -/
def readSeparated (radix : Nat) (text : Text) : Option Nat :=
  if [] ∈ pieces underscore text then none else readDigits radix 0 (pieces underscore text).flatten

/-- The number that is written after the sign. A leading zero stands for another radix, or alone. -/
def magnitude : Text → Option Nat
  | '0' :: c :: digits =>
    if c = 'x' ∨ c = 'X' then readSeparated 16 digits
    else if c = 'o' ∨ c = 'O' then readSeparated 8 digits
    else if c = 'b' ∨ c = 'B' then readSeparated 2 digits
    else none
  | digits => readSeparated 10 digits

def integerValue : Text → Option Int
  | '-' :: rest => (magnitude (rest.dropWhile isWhitespace)).map (fun n : Nat => -(n : Int))
  | '+' :: rest => (magnitude (rest.dropWhile isWhitespace)).map (fun n : Nat => (n : Int))
  | text => (magnitude text).map (fun n : Nat => (n : Int))

example : integerValue "-0x1F".toList = some (-31) := by decide

/-! The characters of a literal. -/

/-- A character that has no meaning between the members of an enum. -/
def Firm (c : Char) : Prop := isWhitespace c = false ∧ c ≠ ',' ∧ c ≠ '=' ∧ c ≠ '\x7b' ∧ c ≠ '\x7d'

instance (c : Char) : Decidable (Firm c) := inferInstanceAs (Decidable (_ ∧ _))

theorem firm_table : ∀ k < 128, (48 ≤ k ∧ k ≤ 57) ∨ (97 ≤ k ∧ k ≤ 122) ∨ (65 ≤ k ∧ k ≤ 90) → Firm (Char.ofNat k) := by
  decide +kernel

theorem firm_digit (radix : Nat) (c : Char) (n : Nat) (digit : digitValue radix c = some n) : Firm c := by
  have table := firm_table c.toNat
  rw [Char.ofNat_toNat] at table
  obtain ⟨value,_⟩ := Option.filter_eq_some_iff.mp digit
  split_ifs at value with decimal lower upper
  · exact table (Nat.lt_of_le_of_lt decimal.2 (by decide)) (.inl decimal)
  · exact table (Nat.lt_of_le_of_lt lower.2 (by decide)) (.inr (.inl lower))
  · exact table (Nat.lt_of_le_of_lt upper.2 (by decide)) (.inr (.inr upper))

theorem firm_digits (radix value n : Nat) (digits : Text) (read : readDigits radix value digits = some n) :
    ∀ c ∈ digits, Firm c := by
  induction digits generalizing value with
  | nil => exact List.forall_mem_nil _
  | cons c digits ih =>
    rw [readDigits] at read
    obtain ⟨digit,first,later⟩ := Option.bind_eq_some_iff.mp read
    exact List.forall_mem_cons.mpr ⟨firm_digit radix c digit first,ih _ later⟩

theorem firm_separated (radix n : Nat) (text : Text) (read : readSeparated radix text = some n) :
    text ≠ [] ∧ ∀ c ∈ text, Firm c := by
  unfold readSeparated at read
  split_ifs at read with empty
  refine ⟨?_,fun c inside => ?_⟩
  · rintro rfl
    exact empty List.mem_cons_self
  · rcases mem_flatten_pieces underscore text c inside with mark | digit
    · rw [of_decide_eq_true mark]
      decide
    · exact firm_digits radix 0 n _ read c digit

theorem firm_magnitude (text : Text) (n : Nat) (read : magnitude text = some n) : text ≠ [] ∧ ∀ c ∈ text, Firm c := by
  have zero : Firm '0' := by decide
  unfold magnitude at read
  split at read
  · rename_i c digits
    have letter : Firm c ∧ ∀ d ∈ digits, Firm d := by
      split_ifs at read with sixteen eight two
      · exact ⟨by rcases sixteen with rfl | rfl <;> decide,(firm_separated 16 n digits read).2⟩
      · exact ⟨by rcases eight with rfl | rfl <;> decide,(firm_separated 8 n digits read).2⟩
      · exact ⟨by rcases two with rfl | rfl <;> decide,(firm_separated 2 n digits read).2⟩
    exact ⟨List.cons_ne_nil _ _,List.forall_mem_cons.mpr ⟨zero,List.forall_mem_cons.mpr letter⟩⟩
  · exact firm_separated 10 n _ read

/-- What an integer is written with: it is not blank at its ends, and no mark of an enum is in it. -/
structure Written (text : Text) : Prop where
  filled : text ≠ []
  opens : ∀ c, text.head? = some c → isWhitespace c = false
  closes : ∀ c, text.getLast? = some c → isWhitespace c = false
  plain : ∀ c ∈ text, c ≠ ',' ∧ c ≠ '\x7d'

theorem written_firm (text : Text) (filled : text ≠ []) (firm : ∀ c ∈ text, Firm c) : Written text where
  filled := filled
  opens := fun c first => (firm c (List.mem_of_mem_head? first)).1
  closes := fun c last => (firm c (List.mem_of_mem_getLast? last)).1
  plain := fun c inside => ⟨(firm c inside).2.1,(firm c inside).2.2.2.2⟩

theorem written_signed (sign : Char) (rest : Text) (n : Nat) (firm : Firm sign)
    (read : magnitude (rest.dropWhile isWhitespace) = some n) : Written (sign :: rest) := by
  obtain ⟨filled,digits⟩ := firm_magnitude _ n read
  have parts : rest.takeWhile isWhitespace ++ rest.dropWhile isWhitespace = rest := List.takeWhile_append_dropWhile
  refine ⟨List.cons_ne_nil _ _,fun c first => ?_,fun c last => ?_,List.forall_mem_cons.mpr ⟨?_,fun c inside => ?_⟩⟩
  · cases first
    exact firm.1
  · rw [← parts,← List.cons_append,List.getLast?_append_of_ne_nil _ filled] at last
    exact (digits c (List.mem_of_mem_getLast? last)).1
  · exact ⟨firm.2.1,firm.2.2.2.2⟩
  · rw [← parts] at inside
    cases List.mem_append.mp inside with
    | inl blank =>
      have white := List.mem_takeWhile_imp blank
      constructor
      · rintro rfl
        exact absurd white (by decide)
      · rintro rfl
        exact absurd white (by decide)
    | inr digit => exact ⟨(digits c digit).2.1,(digits c digit).2.2.2.2⟩

theorem written_integer (text : Text) (value : Int) (read : integerValue text = some value) : Written text := by
  unfold integerValue at read
  split at read
  · obtain ⟨n,digits,_⟩ := Option.map_eq_some_iff.mp read
    exact written_signed '-' _ n (by decide) digits
  · obtain ⟨n,digits,_⟩ := Option.map_eq_some_iff.mp read
    exact written_signed '+' _ n (by decide) digits
  · obtain ⟨n,digits,_⟩ := Option.map_eq_some_iff.mp read
    obtain ⟨filled,firm⟩ := firm_magnitude text n digits
    exact written_firm text filled firm

/-! Texts that are read as an `i32`. -/

theorem decimal_digits (value n : Nat) (digits : Text) (decimal : readDigits 10 value digits = some n) :
    ∀ c ∈ digits, 48 ≤ c.toNat ∧ c.toNat ≤ 57 := by
  induction digits generalizing value with
  | nil => exact List.forall_mem_nil _
  | cons c digits ih =>
    rw [readDigits] at decimal
    obtain ⟨digit,first,later⟩ := Option.bind_eq_some_iff.mp decimal
    refine List.forall_mem_cons.mpr ⟨?_,ih _ later⟩
    obtain ⟨read,small⟩ := Option.filter_eq_some_iff.mp first
    have bound := of_decide_eq_true small
    split_ifs at read with figure lower upper
    · exact figure
    · have letter : 97 ≤ c.toNat := lower.1
      have value := Option.some.inj read
      omega
    · have letter : 65 ≤ c.toNat := upper.1
      have value := Option.some.inj read
      omega

/-- Decimal digits are read alike, where a leading zero does not say otherwise. -/
theorem magnitude_decimal (digits : Text) (n m : Nat) (decimal : readDigits 10 0 digits = some n)
    (read : magnitude digits = some m) : m = n := by
  have figures := decimal_digits 0 n digits decimal
  unfold magnitude at read
  split at read
  · rename_i c digits
    have figure := figures c (List.mem_cons_of_mem _ List.mem_cons_self)
    split_ifs at read with sixteen eight two
    · rcases sixteen with rfl | rfl <;> exact absurd figure (by decide)
    · rcases eight with rfl | rfl <;> exact absurd figure (by decide)
    · rcases two with rfl | rfl <;> exact absurd figure (by decide)
  · have whole : pieces underscore digits = [digits] := by
      refine pieces_of_none underscore digits (fun c inside => decide_eq_false ?_)
      rintro rfl
      exact absurd (figures '_' inside) (by decide)
    unfold readSeparated at read
    split_ifs at read
    rw [whole,List.flatten_singleton,decimal] at read
    exact (Option.some.inj read).symm

theorem digitsValue_some (digits : Text) (n : Nat) (parsed : digitsValue digits = some n) :
    readDigits 10 0 digits = some n := by
  unfold digitsValue at parsed
  split_ifs at parsed
  exact parsed

theorem dropWhile_decimal (value n : Nat) (digits : Text) (decimal : readDigits 10 value digits = some n) :
    digits.dropWhile isWhitespace = digits := by
  cases digits with
  | nil => rfl
  | cons c rest =>
    have firm := firm_digits 10 value n _ decimal c List.mem_cons_self
    exact List.dropWhile_cons_of_neg (by simp [firm.1])

theorem magnitude_signed (digits : Text) (n m : Nat) (parsed : digitsValue digits = some n)
    (read : magnitude (digits.dropWhile isWhitespace) = some m) : m = n := by
  have decimal := digitsValue_some digits n parsed
  rw [dropWhile_decimal 0 n digits decimal] at read
  exact magnitude_decimal digits n m decimal read

/-- What the parser takes: digits, perhaps after a sign, of a number in its range. -/
inductive Taken : Text → Int → Prop where
  | minus (digits : Text) (k : Nat) (parsed : digitsValue digits = some k) (small : k ≤ 2147483648) :
      Taken ('-' :: digits) (-(k : Int))
  | plus (digits : Text) (k : Nat) (parsed : digitsValue digits = some k) (small : k < 2147483648) :
      Taken ('+' :: digits) k
  | bare (digits : Text) (k : Nat) (minus : ∀ rest, digits ≠ '-' :: rest) (plus : ∀ rest, digits ≠ '+' :: rest)
      (parsed : digitsValue digits = some k) (small : k < 2147483648) : Taken digits k

theorem parseI32_taken (text : Text) (n : Int) (parsed : parseI32 text = some n) : Taken text n := by
  have cast (found : Option Nat) (k : Int) (same : (do let m ← found; pure (m : Int)) = some k) :
      ∃ m : Nat, found = some m ∧ k = m := by
    cases found with
    | none => cases same
    | some m => exact ⟨m,rfl,(Option.some.inj same).symm⟩
  unfold parseI32 at parsed
  split at parsed
  · obtain ⟨_,taken,rfl⟩ := Option.map_eq_some_iff.mp parsed
    obtain ⟨k,found,rfl⟩ := cast _ _ taken
    obtain ⟨value,small⟩ := Option.filter_eq_some_iff.mp found
    exact .minus _ k value (of_decide_eq_true small)
  · obtain ⟨_,taken,rfl⟩ := Option.map_eq_some_iff.mp parsed
    obtain ⟨k,found,rfl⟩ := cast _ _ taken
    obtain ⟨value,small⟩ := Option.filter_eq_some_iff.mp found
    exact .plus _ k value (of_decide_eq_true small)
  · rename_i minus plus
    obtain ⟨_,taken,rfl⟩ := Option.map_eq_some_iff.mp parsed
    obtain ⟨k,found,rfl⟩ := cast _ _ taken
    obtain ⟨value,small⟩ := Option.filter_eq_some_iff.mp found
    exact .bare _ k (fun rest same => minus rest same) (fun rest same => plus rest same) value (of_decide_eq_true small)

/-- An integer that the parser takes is the one that is written. -/
theorem parseI32_integer (text : Text) (n value : Int) (parsed : parseI32 text = some n)
    (read : integerValue text = some value) : n = value := by
  cases parseI32_taken text n parsed with
  | minus digits k whole =>
    obtain ⟨m,written,rfl⟩ := Option.map_eq_some_iff.mp read
    rw [magnitude_signed digits k m whole written]
  | plus digits k whole =>
    obtain ⟨m,written,rfl⟩ := Option.map_eq_some_iff.mp read
    rw [magnitude_signed digits k m whole written]
  | bare _ k minus plus whole =>
    unfold integerValue at read
    split at read
    · exact (minus _ rfl).elim
    · exact (plus _ rfl).elim
    · obtain ⟨m,written,rfl⟩ := Option.map_eq_some_iff.mp read
      rw [magnitude_decimal text k m (digitsValue_some text k whole) written]

/-- The parser answers with an `i32`. -/
theorem parseI32_range (text : Text) (n : Int) (parsed : parseI32 text = some n) :
    -2147483648 ≤ n ∧ n ≤ 2147483647 := by
  cases parseI32_taken text n parsed with
  | minus digits k _ small => omega
  | plus digits k _ small => omega
  | bare digits k _ _ _ small => omega

/-! Numbers that are written out. -/

theorem magnitude_toDigits (n : Nat) : magnitude (Nat.toDigits 10 n) = some n := by
  have decimal := readDigits_toDigits n
  have separated : readSeparated 10 (Nat.toDigits 10 n) = some n := by
    have whole : pieces underscore (Nat.toDigits 10 n) = [Nat.toDigits 10 n] := by
      refine pieces_of_none underscore _ (fun c inside => decide_eq_false ?_)
      rintro rfl
      exact absurd (decimal_digits 0 n _ decimal '_' inside) (by decide)
    rw [readSeparated,whole,if_neg (by simp [Nat.toDigits_ne_nil.symm]),List.flatten_singleton,decimal]
  unfold magnitude
  split
  · rename_i c digits same
    rcases Nat.eq_zero_or_pos n with rfl | positive
    · cases same
    · exact (toDigits_starts n positive (by rw [same]; rfl)).elim
  · exact separated

theorem integerValue_toString (n : Int) : integerValue (toString n).toList = some n := by
  cases n with
  | ofNat m =>
    have text : (toString (Int.ofNat m)).toList = Nat.toDigits 10 m := Nat.toList_repr
    have figures := decimal_digits 0 m _ (readDigits_toDigits m)
    rw [text]
    unfold integerValue
    split
    · rename_i rest same
      rw [same] at figures
      exact absurd (figures '-' List.mem_cons_self) (by decide)
    · rename_i rest same
      rw [same] at figures
      exact absurd (figures '+' List.mem_cons_self) (by decide)
    · rw [magnitude_toDigits]
      rfl
  | negSucc m =>
    have text : (toString (Int.negSucc m)).toList = '-' :: Nat.toDigits 10 (m + 1) := by
      rw [← Nat.toList_repr]
      exact String.toList_append
    have close := dropWhile_decimal 0 (m + 1) _ (readDigits_toDigits (m + 1))
    rw [text]
    unfold integerValue
    simp only
    rw [close,magnitude_toDigits]
    rfl

end ClawKernel.Script.Literals
