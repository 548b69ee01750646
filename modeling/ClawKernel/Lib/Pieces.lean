import ClawKernel.Lib.Utf8
import Mathlib.Data.List.Basic

/-! A list cut into the pieces between separators, and what cutting it in two
first does to its pieces. Text decoded from bytes has the pieces of its bytes.
-/
namespace ClawKernel.Lib.Pieces
open Utf8

section General
variable {α : Type*} {β : Type*} (sep : α → Bool)

def pieces : List α → List (List α)
  | [] => [[]]
  | a :: rest => if sep a then [] :: pieces rest else (a :: (pieces rest).headD []) :: (pieces rest).tail

def firstPiece (l : List α) : List α :=
  (pieces sep l).headD []

def lastPiece (l : List α) : List α :=
  (pieces sep l).getLastD []

theorem pieces_ne_nil (l : List α) : pieces sep l ≠ [] := by
  cases l with
  | nil => simp [pieces]
  | cons a rest =>
    unfold pieces
    split <;> simp

/-- No piece has a separator. -/
theorem pieces_clean (l : List α) : ∀ piece ∈ pieces sep l, ∀ a ∈ piece, sep a = false := by
  induction l with
  | nil =>
    intro piece member a inside
    rw [List.mem_singleton.mp member] at inside
    cases inside
  | cons b rest ih =>
    intro piece member a inside
    rw [pieces] at member
    split at member
    · cases List.mem_cons.mp member with
      | inl first =>
        rw [first] at inside
        cases inside
      | inr later => exact ih piece later a inside
    · rename_i plain
      cases List.mem_cons.mp member with
      | inl first =>
        rw [first] at inside
        cases List.mem_cons.mp inside with
        | inl here => exact here ▸ Bool.eq_false_iff.mpr plain
        | inr further =>
          cases parts : pieces sep rest with
          | nil => exact absurd parts (pieces_ne_nil sep rest)
          | cons head tail =>
            rw [parts] at further
            exact ih head (parts ▸ List.mem_cons_self) a further
      | inr later => exact ih piece (List.mem_of_mem_tail later) a inside

theorem pieces_eq_first (l : List α) : pieces sep l = firstPiece sep l :: (pieces sep l).tail := by
  cases parts : pieces sep l with
  | nil => exact absurd parts (pieces_ne_nil sep l)
  | cons p ps => simp [firstPiece,parts]

theorem pieces_eq_last (l : List α) : pieces sep l = (pieces sep l).dropLast ++ [lastPiece sep l] := by
  have last : lastPiece sep l = (pieces sep l).getLast (pieces_ne_nil sep l) := by
    rw [lastPiece,List.getLastD_eq_getLast?,List.getLast?_eq_getLast_of_ne_nil (pieces_ne_nil sep l)]
    rfl
  rw [last,List.dropLast_append_getLast]

theorem pieces_append (x y : List α) :
    pieces sep (x ++ y) =
      (pieces sep x).dropLast ++ (lastPiece sep x ++ firstPiece sep y) :: (pieces sep y).tail := by
  induction x with
  | nil => simpa [pieces,lastPiece] using pieces_eq_first sep y
  | cons a rest ih =>
    unfold lastPiece at ih ⊢
    -- The pieces of the rest are one piece or more; a separator opens another.
    cases parts : pieces sep rest with
    | nil => exact absurd parts (pieces_ne_nil sep rest)
    | cons p ps =>
      rw [parts] at ih
      cases cut : sep a with
      | true => cases ps <;> simp_all [pieces]
      | false => cases ps <;> simp_all [pieces]

theorem flatMap_pieces_append (g : List α → List β) (x y : List α)
    (joined : g (lastPiece sep x ++ firstPiece sep y) = g (lastPiece sep x) ++ g (firstPiece sep y)) :
    (pieces sep (x ++ y)).flatMap g = (pieces sep x).flatMap g ++ (pieces sep y).flatMap g := by
  have left : (pieces sep x).flatMap g = (pieces sep x).dropLast.flatMap g ++ g (lastPiece sep x) := by
    rw [pieces_eq_last sep x]
    simp
  have right : (pieces sep y).flatMap g = g (firstPiece sep y) ++ (pieces sep y).tail.flatMap g := by
    rw [pieces_eq_first sep y]
    simp
  rw [pieces_append,left,right,List.flatMap_append,List.flatMap_cons,joined]
  simp only [List.append_assoc]

theorem pieces_of_none (l : List α) (none : ∀ a ∈ l, sep a = false) : pieces sep l = [l] := by
  induction l with
  | nil => rfl
  | cons a rest ih =>
    have later := ih (fun b member => none b (List.mem_cons_of_mem a member))
    simp [pieces,none a List.mem_cons_self,later]

theorem pieces_cut (l : List α) (a : α) (rest : List α) (none : ∀ b ∈ l, sep b = false) (cut : sep a = true) :
    pieces sep (l ++ a :: rest) = l :: pieces sep rest := by
  induction l with
  | nil => simp [pieces,cut]
  | cons b l ih =>
    have later := ih (fun c member => none c (List.mem_cons_of_mem b member))
    simp [pieces,none b List.mem_cons_self,later]

/-- Texts without separators are the pieces of their concatenation. -/
theorem pieces_intercalate (a : α) (cut : sep a = true) (parts : List (List α)) (filled : parts ≠ [])
    (none : ∀ part ∈ parts, ∀ b ∈ part, sep b = false) : pieces sep ([a].intercalate parts) = parts := by
  induction parts with
  | nil => exact (filled rfl).elim
  | cons part rest ih =>
    obtain ⟨here,later⟩ := List.forall_mem_cons.mp none
    cases rest with
    | nil => rw [List.intercalate_singleton,pieces_of_none sep part here]
    | cons next rest =>
      rw [List.intercalate_cons_cons,List.append_assoc,List.singleton_append,pieces_cut sep part a _ here cut,
        ih (List.cons_ne_nil next rest) later]

theorem head_mem_firstPiece (l : List α) (a : α) (first : a ∈ l.head?) : sep a = true ∨ a ∈ firstPiece sep l := by
  cases l with
  | nil => cases first
  | cons b rest =>
    cases first
    cases cut : sep a with
    | true => exact .inl rfl
    | false => exact .inr (by simp [firstPiece,pieces,cut])

theorem last_mem_lastPiece (l : List α) (a : α) (last : a ∈ l.getLast?) : sep a = true ∨ a ∈ lastPiece sep l := by
  obtain ⟨front,rfl⟩ := List.getLast?_eq_some_iff.mp last
  cases cut : sep a with
  | true => exact .inl rfl
  | false =>
    right
    have parts := pieces_append sep front [a]
    rw [pieces_of_none sep [a] (by simp [cut])] at parts
    simp [lastPiece,parts,firstPiece,pieces,cut]

/-- Nothing but the separators is lost. -/
theorem mem_flatten_pieces (l : List α) (a : α) (inside : a ∈ l) : sep a = true ∨ a ∈ (pieces sep l).flatten := by
  induction l with
  | nil => cases inside
  | cons b rest ih =>
    have parts : (pieces sep rest).headD [] ++ (pieces sep rest).tail.flatten = (pieces sep rest).flatten := by
      cases pieces sep rest <;> rfl
    rw [pieces]
    by_cases cut : sep b = true
    · cases List.mem_cons.mp inside with
      | inl here => exact .inl (here ▸ cut)
      | inr later =>
        rw [if_pos cut]
        exact ih later
    · rw [if_neg cut,List.flatten_cons,List.cons_append,parts,List.mem_cons]
      cases List.mem_cons.mp inside with
      | inl here => exact .inr (.inl here)
      | inr later => exact (ih later).imp id .inr

theorem countP_pieces (p : α → Bool) (apart : ∀ a, sep a = true → p a = false) (l : List α) :
    ((pieces sep l).map (List.countP p)).sum = l.countP p := by
  induction l with
  | nil => rfl
  | cons a rest ih =>
    cases cut : sep a with
    | true => simp [pieces,cut,apart a cut,ih]
    | false =>
      cases parts : pieces sep rest with
      | nil => exact absurd parts (pieces_ne_nil sep rest)
      | cons piece more =>
        simp only [parts,List.map_cons,List.sum_cons] at ih
        simp only [pieces,cut,parts,Bool.false_eq_true,if_false,List.headD_cons,List.tail_cons,List.map_cons,
          List.sum_cons,List.countP_cons]
        omega

end General

def lineFeed (byte : UInt8) : Bool := byte = 10

def newline (c : Char) : Bool := c = '\n'

theorem pieces_lossy (bytes : List UInt8) :
    pieces newline (lossy bytes) = (pieces lineFeed bytes).map lossy := by
  induction size : bytes.length using Nat.strongRecOn generalizing bytes with
  | _ n ih =>
    by_cases feed : (10 : UInt8) ∈ bytes
    · obtain ⟨line,rest,rfl,clean⟩ := List.eq_append_cons_of_mem feed
      have leads : Leads (10 :: rest) := by
        intro byte first
        cases first
        rfl
      have quiet : ∀ c ∈ lossy line, newline c = false := by
        intro c member
        simp only [newline,decide_eq_false_iff_not]
        rintro rfl
        exact clean (newline_mem line member)
      have plain : ∀ byte ∈ line, lineFeed byte = false := by
        intro byte member
        simp only [lineFeed,decide_eq_false_iff_not]
        rintro rfl
        exact clean member
      simp only [List.length_append,List.length_cons] at size
      rw [lossy_append_leads line _ leads,lossy_newline,pieces_cut newline _ _ _ quiet rfl,
        pieces_cut lineFeed _ _ _ plain rfl,ih _ (by omega) rest rfl,List.map_cons]
    · have quiet : ∀ c ∈ lossy bytes, newline c = false := by
        intro c member
        simp only [newline,decide_eq_false_iff_not]
        rintro rfl
        exact feed (newline_mem bytes member)
      have plain : ∀ byte ∈ bytes, lineFeed byte = false := by
        intro byte member
        simp only [lineFeed,decide_eq_false_iff_not]
        rintro rfl
        exact feed member
      rw [pieces_of_none newline _ quiet,pieces_of_none lineFeed _ plain]
      rfl

theorem length_le_flatten {α : Type*} (lists : List (List α)) (nonempty : ∀ list ∈ lists, list ≠ []) :
    lists.length ≤ lists.flatten.length := by
  induction lists with
  | nil => exact Nat.le_refl 0
  | cons first rest ih =>
    obtain ⟨filled,later⟩ := List.forall_mem_cons.mp nonempty
    have some := List.length_pos_iff.mpr filled
    have more := ih later
    rw [List.length_cons,List.flatten_cons,List.length_append]
    omega

/-- As many nonempty lists as there are items give the items only if each gives one. -/
theorem flatten_eq_iff {α : Type*} (lists : List (List α)) (items : List α) (same : lists.length = items.length)
    (nonempty : ∀ list ∈ lists, list ≠ []) : lists.flatten = items ↔ lists = items.map (fun item => [item]) := by
  induction lists generalizing items with
  | nil =>
    obtain rfl := List.eq_nil_of_length_eq_zero same.symm
    exact iff_of_true rfl rfl
  | cons first rest ih =>
    obtain ⟨filled,later⟩ := List.forall_mem_cons.mp nonempty
    match items, first with
    | [], _ => cases same
    | _, [] => exact absurd rfl filled
    | item :: items, a :: tail =>
      have same : rest.length = items.length := Nat.succ.inj same
      have long := length_le_flatten rest later
      rw [List.flatten_cons,List.map_cons,List.cons_eq_cons,List.cons_append,List.cons_eq_cons,List.cons_eq_cons,
        ← ih items same later]
      constructor
      · rintro ⟨rfl,parts⟩
        have short := congrArg List.length parts
        rw [List.length_append] at short
        obtain rfl := List.eq_nil_of_length_eq_zero (by omega : tail.length = 0)
        exact ⟨⟨rfl,rfl⟩,parts⟩
      · rintro ⟨⟨rfl,rfl⟩,parts⟩
        exact ⟨rfl,parts⟩

/-- Two listings, one giving no fewer items at any place, agree only if they agree at each place. -/
theorem flatMap_eq_iff {α β : Type*} (f g : α → List β) (l : List α)
    (longer : ∀ a ∈ l, (g a).length ≤ (f a).length) : l.flatMap f = l.flatMap g ↔ ∀ a ∈ l, f a = g a := by
  have total : ∀ l : List α, (∀ a ∈ l, (g a).length ≤ (f a).length) → (l.flatMap g).length ≤ (l.flatMap f).length := by
    intro l
    induction l with
    | nil => exact fun _ => Nat.le_refl 0
    | cons a rest ih =>
      intro longer
      obtain ⟨here,later⟩ := List.forall_mem_cons.mp longer
      have more := ih later
      rw [List.flatMap_cons,List.flatMap_cons,List.length_append,List.length_append]
      omega
  induction l with
  | nil => simp
  | cons a rest ih =>
    obtain ⟨here,later⟩ := List.forall_mem_cons.mp longer
    have rests := ih later
    rw [List.flatMap_cons,List.flatMap_cons,List.forall_mem_cons]
    constructor
    · intro same
      have lengths := congrArg List.length same
      rw [List.length_append,List.length_append] at lengths
      have more := total rest later
      obtain ⟨first,others⟩ := List.append_inj same (by omega)
      exact ⟨first,rests.mp others⟩
    · rintro ⟨first,others⟩
      rw [first,rests.mpr others]

end ClawKernel.Lib.Pieces
