import Mathlib.Data.List.Basic

/-! Lists whose elements have a size, and where they can be cut: between two elements.
-/
namespace ClawKernel.Lib.Sized
variable {α : Type} (size : α → Nat)

def total : List α → Nat
  | [] => 0
  | x :: rest => size x + total rest

/-- The part of that size, or the whole of a smaller list; `none` where the size falls within an element. -/
def cut : List α → Nat → Option (List α)
  | [],_ => some []
  | x :: rest,n =>
    if n = 0 then some []
    else if size x ≤ n then (cut rest (n - size x)).map (x :: ·)
    else none

/-- The place falls within an element of the list, which starts at a place itself. -/
def Within (start : Nat) (l : List α) (n : Nat) : Prop :=
  ∃ before x after, l = before ++ x :: after ∧ start + total size before < n ∧ n < start + total size before + size x

@[simp] theorem total_nil : total size [] = 0 := rfl

@[simp] theorem total_cons (x : α) (rest : List α) : total size (x :: rest) = size x + total size rest := rfl

@[simp] theorem total_append (l m : List α) : total size (l ++ m) = total size l + total size m := by
  induction l with
  | nil => simp
  | cons x l ih => rw [List.cons_append,total_cons,total_cons,ih,Nat.add_assoc]

/-- No element is smaller than one. -/
theorem length_le_total (positive : ∀ x, 1 ≤ size x) (l : List α) : l.length ≤ total size l := by
  induction l with
  | nil => exact Nat.le_refl 0
  | cons x l ih =>
    have one := positive x
    rw [List.length_cons,total_cons]
    omega

/-- All elements are of size one. -/
theorem total_units (l : List α) (units : ∀ x ∈ l, size x = 1) : total size l = l.length := by
  induction l with
  | nil => rfl
  | cons x l ih =>
    rw [List.forall_mem_cons] at units
    rw [List.length_cons,total_cons,units.1,ih units.2,Nat.add_comm]

section Places
variable (start n : Nat)

theorem not_within_nil : ¬Within size start [] n := by
  rintro ⟨before,x,after,same,_⟩
  simp at same

theorem within_cons (x : α) (rest : List α) :
    Within size start (x :: rest) n ↔ (start < n ∧ n < start + size x) ∨ Within size (start + size x) rest n := by
  constructor
  · rintro ⟨before,y,after,same,above,below⟩
    cases before with
    | nil =>
      obtain ⟨rfl,rfl⟩ := List.cons_eq_cons.mp same
      exact .inl ⟨above,below⟩
    | cons z before =>
      obtain ⟨rfl,rfl⟩ := List.cons_eq_cons.mp same
      rw [total_cons,← Nat.add_assoc] at above below
      exact .inr ⟨before,y,after,rfl,above,below⟩
  · rintro (⟨above,below⟩ | ⟨before,y,after,rfl,above,below⟩)
    · exact ⟨[],x,rest,rfl,above,below⟩
    · refine ⟨x :: before,y,after,rfl,?_,?_⟩
      · rwa [total_cons,← Nat.add_assoc]
      · rwa [total_cons,← Nat.add_assoc]

theorem within_append (l m : List α) :
    Within size start (l ++ m) n ↔ Within size start l n ∨ Within size (start + total size l) m n := by
  induction l generalizing start with
  | nil => simp [not_within_nil]
  | cons x l ih => rw [List.cons_append,within_cons,within_cons,ih,total_cons,Nat.add_assoc,or_assoc]

/-- There is nothing within elements of size one. -/
theorem not_within_units (l : List α) (units : ∀ x ∈ l, size x = 1) : ¬Within size start l n := by
  rintro ⟨before,x,after,rfl,above,below⟩
  rw [units x (by simp)] at below
  omega

end Places

/-- A cut fails exactly where it falls within an element. -/
theorem cut_none (l : List α) (n start : Nat) : cut size l n = none ↔ Within size start l (start + n) := by
  induction l generalizing n start with
  | nil => exact iff_of_false (by simp [cut]) (not_within_nil size start _)
  | cons x rest ih =>
    rw [cut,within_cons]
    split_ifs with zero fits
    · refine iff_of_false (by simp) ?_
      rintro (⟨above,_⟩ | ⟨before,y,after,_,above,_⟩) <;> omega
    · have place : start + n = start + size x + (n - size x) := by omega
      rw [Option.map_eq_none_iff,ih (n - size x) (start + size x),← place]
      exact (or_iff_right (by omega)).symm
    · exact iff_of_true rfl (.inl (by omega))

theorem cut_some (l kept : List α) (n : Nat) (ends : cut size l n = some kept) :
    kept <+: l ∧ total size kept = min n (total size l) := by
  induction l generalizing n kept with
  | nil =>
    cases ends
    simp
  | cons x rest ih =>
    rw [cut] at ends
    split_ifs at ends with zero fits
    · cases ends
      exact ⟨List.nil_prefix,by simp [zero]⟩
    · obtain ⟨later,cuts,rfl⟩ := Option.map_eq_some_iff.mp ends
      obtain ⟨starts,size_later⟩ := ih later (n - size x) cuts
      refine ⟨List.cons_prefix_cons.mpr ⟨rfl,starts⟩,?_⟩
      rw [total_cons,total_cons,size_later]
      omega

end ClawKernel.Lib.Sized
