import ClawKernel.Lib.Pieces
import Mathlib.Tactic.IntervalCases

/-! Internet addresses and the texts they are read from: four decimal numbers without leading
zeros, or up to eight groups of hexadecimal digits of which one run may be left out.
-/
namespace ClawKernel.Lib.Addresses
open Lib.Pieces

structure Ipv4Addr where
  a : Fin 256
  b : Fin 256
  c : Fin 256
  d : Fin 256
  deriving DecidableEq, Repr

structure Ipv6Addr where
  segments : List Nat
  deriving DecidableEq, Repr

def Ipv4Addr.localhost : Ipv4Addr := ⟨127,0,0,1⟩

def Ipv4Addr.unspecified : Ipv4Addr := ⟨0,0,0,0⟩

inductive IpAddr where
  | v4 (addr : Ipv4Addr)
  | v6 (addr : Ipv6Addr)
  deriving DecidableEq, Repr

def Ipv4Addr.isLoopback (addr : Ipv4Addr) : Bool := addr.a = 127

def Ipv6Addr.isLoopback (addr : Ipv6Addr) : Bool := addr.segments = [0,0,0,0,0,0,0,1]

def IpAddr.isLoopback : IpAddr → Bool
  | .v4 addr => addr.isLoopback
  | .v6 addr => addr.isLoopback

def digits (octet : Fin 256) : List Char := Nat.toDigits 10 octet.val

def Ipv4Addr.chars (addr : Ipv4Addr) : List Char :=
  digits addr.a ++ '.' :: (digits addr.b ++ '.' :: (digits addr.c ++ '.' :: digits addr.d))

def digitValue (radix : Nat) (c : Char) : Option Nat :=
  let value :=
    if '0' ≤ c ∧ c ≤ '9' then some (c.toNat - 48)
    else if 'a' ≤ c ∧ c ≤ 'z' then some (c.toNat - 87)
    else if 'A' ≤ c ∧ c ≤ 'Z' then some (c.toNat - 55)
    else none
  value.filter (· < radix)

def readDigits (radix : Nat) : Nat → List Char → Option Nat
  | value, [] => some value
  | value, c :: rest => (digitValue radix c).bind (fun digit => readDigits radix (value * radix + digit) rest)

def readOctet (text : List Char) : Option (Fin 256) :=
  if text = [] ∨ 3 < text.length ∨ 1 < text.length ∧ text.head? = some '0' then none
  else (readDigits 10 0 text).bind (fun value => if inside : value < 256 then some ⟨value,inside⟩ else none)

def readGroup (text : List Char) : Option Nat :=
  if text = [] ∨ 4 < text.length then none else readDigits 16 0 text

def readIpv4 (text : List Char) : Option Ipv4Addr :=
  match pieces (· = '.') text with
  | [a,b,c,d] => do return ⟨← readOctet a,← readOctet b,← readOctet c,← readOctet d⟩
  | _ => none

/-- Groups between colons; an address of four numbers may stand for the last two. -/
def readGroups : List (List Char) → Option (List Nat)
  | [] => some []
  | [last] =>
    match readIpv4 last with
    | some addr => some [addr.a.val * 256 + addr.b.val,addr.c.val * 256 + addr.d.val]
    | none => (readGroup last).map ([·])
  | group :: rest => do return (← readGroup group) :: (← readGroups rest)

/-- The text before and after the first two colons in a row. -/
def cutAtDouble : List Char → List Char × Option (List Char)
  | ':' :: ':' :: rest => ([],some rest)
  | c :: rest => (c :: (cutAtDouble rest).1,(cutAtDouble rest).2)
  | [] => ([],none)

def groupsOf (text : List Char) : List (List Char) := if text = [] then [] else pieces (· = ':') text

def readIpv6 (text : List Char) : Option Ipv6Addr :=
  match cutAtDouble text with
  | (whole,none) => ((readGroups (groupsOf whole)).filter (fun groups => groups.length = 8)).map Ipv6Addr.mk
  | (head,some tail) => do
    let before ← (groupsOf head).mapM readGroup
    let after ← readGroups (groupsOf tail)
    if before.length + after.length ≤ 7 then
      return ⟨before ++ List.replicate (8 - (before.length + after.length)) 0 ++ after⟩
    else none

/-- `str::parse::<IpAddr>`. -/
def readIpAddr (text : List Char) : Option IpAddr :=
  match readIpv4 text with
  | some addr => some (.v4 addr)
  | none => (readIpv6 text).map .v6

theorem digitValue_digitChar (n : Nat) (small : n < 10) : digitValue 10 n.digitChar = some n := by
  interval_cases n <;> rfl

theorem readDigits_append (radix : Nat) (front back : List Char) (value : Nat) :
    readDigits radix value (front ++ back) = (readDigits radix value front).bind (readDigits radix · back) := by
  induction front generalizing value with
  | nil => rfl
  | cons c front ih =>
    simp only [List.cons_append,readDigits]
    cases digitValue radix c with
    | none => rfl
    | some digit => exact ih _

/-- A number is read back from its decimal digits. -/
theorem readDigits_toDigits (n : Nat) : readDigits 10 0 (Nat.toDigits 10 n) = some n := by
  induction n using Nat.strongRecOn with
  | ind n ih =>
    by_cases small : n < 10
    · rw [Nat.toDigits_of_lt_base small]
      simp [readDigits,digitValue_digitChar n small]
    · have last : digitValue 10 (n % 10).digitChar = some (n % 10) := digitValue_digitChar _ (by omega)
      rw [Nat.toDigits_of_base_le (by omega) (by omega),readDigits_append,ih (n / 10) (by omega)]
      simp [readDigits,last,Nat.div_add_mod']

/-- Only zero is written with a leading zero. -/
theorem toDigits_starts (n : Nat) (positive : 0 < n) : (Nat.toDigits 10 n).head? ≠ some '0' := by
  induction n using Nat.strongRecOn with
  | ind n ih =>
    by_cases small : n < 10
    · rw [Nat.toDigits_of_lt_base small]
      simpa using Nat.ne_of_gt positive
    · rw [Nat.toDigits_of_base_le (by omega) (by omega),List.head?_append_of_ne_nil _ Nat.toDigits_ne_nil]
      exact ih (n / 10) (by omega) (by omega)

theorem readOctet_digits (octet : Fin 256) : readOctet (digits octet) = some octet := by
  have short : (digits octet).length ≤ 3 := (Nat.length_toDigits_le_iff (by omega) (by omega)).mpr (by omega)
  have plain : ¬(1 < (digits octet).length ∧ (digits octet).head? = some '0') := by
    rintro ⟨long,zero⟩
    refine toDigits_starts octet.val ?_ zero
    by_contra absent
    rw [digits,Nat.eq_zero_of_not_pos absent] at long
    exact absurd long (by decide)
  rw [readOctet,if_neg]
  · rw [digits,readDigits_toDigits]
    exact dif_pos octet.isLt
  · rintro (empty | long | leading)
    · exact Nat.toDigits_ne_nil empty
    · exact absurd short (Nat.not_le_of_gt long)
    · exact plain leading

theorem digits_plain (octet : Fin 256) : ∀ c ∈ digits octet, decide (c = '.') = false := by
  intro c member
  have digit : c.isDigit := Nat.isDigit_of_mem_toDigits (by omega) (by omega) member
  refine decide_eq_false ?_
  rintro rfl
  exact absurd digit (by decide)
/-- An address is read back from its text. -/
theorem readIpv4_chars (addr : Ipv4Addr) : readIpv4 addr.chars = some addr := by
  obtain ⟨a,b,c,d⟩ := addr
  rw [readIpv4,Ipv4Addr.chars,pieces_cut _ _ _ _ (digits_plain a) rfl,pieces_cut _ _ _ _ (digits_plain b) rfl,
    pieces_cut _ _ _ _ (digits_plain c) rfl,pieces_of_none _ _ (digits_plain d)]
  simp [readOctet_digits]

theorem readIpAddr_chars (addr : Ipv4Addr) : readIpAddr addr.chars = some (.v4 addr) := by
  rw [readIpAddr,readIpv4_chars]

/-! No address starts with a character that is neither a digit nor a separator. -/
section Starts
variable (c : Char) (rest : List Char) (decimal : digitValue 10 c = none) (hexadecimal : digitValue 16 c = none)

include decimal in
theorem readOctet_starts : readOctet (c :: rest) = none := by
  unfold readOctet
  split
  · rfl
  · rw [readDigits,decimal]
    rfl

include hexadecimal in
theorem readGroup_starts : readGroup (c :: rest) = none := by
  unfold readGroup
  split
  · rfl
  · rw [readDigits,hexadecimal]
    rfl

theorem pieces_starts (sep : Char → Bool) (inside : sep c = false) :
    pieces sep (c :: rest) = (c :: firstPiece sep rest) :: (pieces sep rest).tail := by
  rw [pieces,if_neg (Bool.eq_false_iff.mp inside)]
  rfl

variable (dot : c ≠ '.') (colon : c ≠ ':')
include decimal dot

theorem readIpv4_starts : readIpv4 (c :: rest) = none := by
  rw [readIpv4,pieces_starts c rest _ (decide_eq_false dot)]
  split
  · rename_i parts
    obtain ⟨first,_⟩ := List.cons.inj parts
    rw [← first,readOctet_starts c _ decimal]
    rfl
  · rfl

include hexadecimal

theorem readGroups_starts (groups : List (List Char)) : readGroups ((c :: rest) :: groups) = none := by
  cases groups with
  | nil =>
    rw [readGroups,readIpv4_starts c rest decimal dot,readGroup_starts c rest hexadecimal]
    rfl
  | cons group groups =>
    rw [readGroups,readGroup_starts c rest hexadecimal]
    · rfl
    · exact fun clash => by cases clash

include colon

theorem readIpAddr_starts : readIpAddr (c :: rest) = none := by
  have cut : cutAtDouble (c :: rest) = (c :: (cutAtDouble rest).1,(cutAtDouble rest).2) := by
    rw [cutAtDouble.eq_def]
    split
    · rename_i same
      exact absurd (List.cons.inj same).1 colon
    · rename_i same
      obtain ⟨rfl,rfl⟩ := List.cons.inj same
      rfl
    · rename_i same
      cases same
  have groups : groupsOf (c :: (cutAtDouble rest).1) = (c :: firstPiece (· = ':') (cutAtDouble rest).1) ::
      (pieces (· = ':') (cutAtDouble rest).1).tail := by
    rw [groupsOf,if_neg (List.cons_ne_nil _ _),pieces_starts c _ _ (decide_eq_false colon)]
  rw [readIpAddr,readIpv4_starts c rest decimal dot,readIpv6,cut]
  cases (cutAtDouble rest).2 with
  | none =>
    simp only [groups,readGroups_starts c _ decimal hexadecimal dot]
    rfl
  | some tail =>
    simp only [groups,List.mapM_cons,readGroup_starts c _ hexadecimal]
    rfl

end Starts

end ClawKernel.Lib.Addresses
