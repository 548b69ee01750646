import Mathlib.Data.List.Sort

/-! Ranking a list by a stable sort, selecting from it and cutting it to its best.
The order is asked to be total and transitive only on the entries ranked.
-/
namespace ClawKernel.Lib.Ranking

section Stable
variable {α : Type*} (r : α → α → Prop) [DecidableRel r] (entry : α → Prop)

structure TotalOn : Prop where
  total : ∀ a b, entry a → entry b → r a b ∨ r b a
  trans : ∀ a b c, entry a → entry b → entry c → r a b → r b c → r a c

private theorem mem_orderedInsert_cases (a b : α) (l : List α) (member : b ∈ l.orderedInsert r a) :
    b = a ∨ b ∈ l := by
  simpa using (List.perm_orderedInsert r a l).mem_iff.mp member

theorem pairwise_orderedInsert (order : TotalOn r entry) (a : α) (l : List α) (fresh : entry a)
    (entries : ∀ b ∈ l, entry b) (sorted : l.Pairwise r) : (l.orderedInsert r a).Pairwise r := by
  induction l with
  | nil => simp
  | cons b rest ih =>
    obtain ⟨first,later⟩ := List.pairwise_cons.mp sorted
    have entryB := entries b List.mem_cons_self
    have entryRest : ∀ c ∈ rest, entry c := fun c member => entries c (List.mem_cons_of_mem b member)
    by_cases before : r a b
    · rw [List.orderedInsert,if_pos before]
      refine List.pairwise_cons.mpr ⟨?_,sorted⟩
      intro c member
      rcases List.mem_cons.mp member with rfl | inside
      · exact before
      · exact order.trans a b c fresh entryB (entryRest c inside) before (first c inside)
    · rw [List.orderedInsert,if_neg before]
      refine List.pairwise_cons.mpr ⟨?_,ih entryRest later⟩
      intro c member
      rcases mem_orderedInsert_cases r a c rest member with rfl | inside
      · exact (order.total c b fresh entryB).resolve_left before
      · exact first c inside

theorem pairwise_insertionSort (order : TotalOn r entry) (l : List α) (entries : ∀ a ∈ l, entry a) :
    (l.insertionSort r).Pairwise r := by
  induction l with
  | nil => simp
  | cons a rest ih =>
    have entryRest : ∀ c ∈ rest, entry c := fun c member => entries c (List.mem_cons_of_mem a member)
    refine pairwise_orderedInsert r entry order a _ (entries a List.mem_cons_self) ?_ (ih entryRest)
    intro b member
    exact entryRest b ((List.perm_insertionSort r rest).mem_iff.mp member)

private theorem filter_orderedInsert_out (p : α → Bool) (a : α) (l : List α) (out : p a = false) :
    (l.orderedInsert r a).filter p = l.filter p := by
  induction l with
  | nil => simp [out]
  | cons b rest ih =>
    by_cases before : r a b
    · rw [List.orderedInsert,if_pos before,List.filter_cons_of_neg (by simp [out])]
    · rw [List.orderedInsert,if_neg before,List.filter_cons,ih,List.filter_cons]

private theorem orderedInsert_of_all (a : α) (l : List α) (first : ∀ b ∈ l, r a b) :
    l.orderedInsert r a = a :: l := by
  cases l with
  | nil => rfl
  | cons b rest => rw [List.orderedInsert,if_pos (first b List.mem_cons_self)]

private theorem filter_orderedInsert_in (order : TotalOn r entry) (p : α → Bool) (a : α) (l : List α)
    (chosen : p a = true) (fresh : entry a) (entries : ∀ b ∈ l, entry b) (sorted : l.Pairwise r) :
    (l.orderedInsert r a).filter p = (l.filter p).orderedInsert r a := by
  induction l with
  | nil => simp [chosen]
  | cons b rest ih =>
    obtain ⟨first,later⟩ := List.pairwise_cons.mp sorted
    have entryB := entries b List.mem_cons_self
    have entryRest : ∀ c ∈ rest, entry c := fun c member => entries c (List.mem_cons_of_mem b member)
    by_cases before : r a b
    · have all : ∀ c ∈ (b :: rest).filter p, r a c := by
        intro c member
        rcases List.mem_cons.mp (List.mem_of_mem_filter member) with rfl | inside
        · exact before
        · exact order.trans a b c fresh entryB (entryRest c inside) before (first c inside)
      rw [List.orderedInsert,if_pos before,List.filter_cons_of_pos chosen,orderedInsert_of_all r a _ all]
    · rw [List.orderedInsert,if_neg before,List.filter_cons,List.filter_cons,ih entryRest later]
      by_cases kept : p b = true
      · rw [if_pos kept,if_pos kept,List.orderedInsert,if_neg before]
      · rw [if_neg kept,if_neg kept]

theorem filter_insertionSort (order : TotalOn r entry) (p : α → Bool) (l : List α) (entries : ∀ a ∈ l, entry a) :
    (l.insertionSort r).filter p = (l.filter p).insertionSort r := by
  induction l with
  | nil => rfl
  | cons a rest ih =>
    have entryRest : ∀ c ∈ rest, entry c := fun c member => entries c (List.mem_cons_of_mem a member)
    have sorted := pairwise_insertionSort r entry order rest entryRest
    have inside : ∀ b ∈ rest.insertionSort r, entry b :=
      fun b member => entryRest b ((List.perm_insertionSort r rest).mem_iff.mp member)
    rw [List.insertionSort_cons]
    cases chosen : p a with
    | false => rw [filter_orderedInsert_out r p a _ chosen,ih entryRest,List.filter_cons_of_neg (by simp [chosen])]
    | true =>
      rw [filter_orderedInsert_in r entry order p a _ chosen (entries a List.mem_cons_self) inside sorted,
        ih entryRest,List.filter_cons_of_pos chosen,List.insertionSort_cons]

end Stable

section Cut
variable {α : Type*} (p : α → Bool)

/-- Cutting to the first `k` costs no chosen entry its place: the others are not
among them, or no chosen entry comes later. -/
def Uncrowded (k : Nat) (l : List α) : Prop :=
  (∀ a ∈ l.take k, p a = true) ∨ (∀ a ∈ l.drop k, p a = false)

instance uncrowdedDecidable (k : Nat) (l : List α) : Decidable (Uncrowded p k l) :=
  inferInstanceAs (Decidable (_ ∨ _))

theorem filter_take_of_uncrowded (k : Nat) (l : List α) (uncrowded : Uncrowded p k l) :
    (l.take k).filter p = (l.filter p).take k := by
  have parts : l.filter p = (l.take k).filter p ++ (l.drop k).filter p := by
    rw [← List.filter_append,List.take_append_drop]
  rcases uncrowded with chosen | none
  · rw [parts,List.filter_eq_self.mpr chosen]
    by_cases short : l.length ≤ k
    · simp [List.drop_of_length_le short,List.take_of_length_le short]
    · have full : k ≤ (l.take k).length := by rw [List.length_take]; omega
      rw [List.take_append_of_le_length full,List.take_take,Nat.min_self]
  · have nothing : (l.drop k).filter p = [] := by simpa [List.filter_eq_nil_iff] using none
    have short : ((l.take k).filter p).length ≤ k :=
      (List.length_filter_le p _).trans (List.length_take_le k l)
    rw [parts,nothing,List.append_nil]
    exact (List.take_of_length_le short).symm

theorem filter_take_length_of_crowded (k : Nat) (l : List α) (crowded : ¬Uncrowded p k l) :
    ((l.take k).filter p).length < ((l.filter p).take k).length := by
  have parts : l.filter p = (l.take k).filter p ++ (l.drop k).filter p := by
    rw [← List.filter_append,List.take_append_drop]
  simp only [Uncrowded,not_or,not_forall,Bool.not_eq_true,Bool.not_eq_false] at crowded
  obtain ⟨⟨a,ahead,foreign⟩,⟨b,behind,chosen⟩⟩ := crowded
  have fewer : ((l.take k).filter p).length < (l.take k).length :=
    List.length_filter_lt_length_iff_exists.mpr ⟨a,ahead,by simp [foreign]⟩
  have later : 0 < ((l.drop k).filter p).length :=
    List.length_pos_of_mem (List.mem_filter.mpr ⟨behind,chosen⟩)
  have bound : (l.take k).length ≤ k := by simp
  rw [List.length_take,parts,List.length_append]
  omega

end Cut

end ClawKernel.Lib.Ranking
