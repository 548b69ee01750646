import Mathlib.Data.List.Induction
import Mathlib.Data.List.Perm.Basic
import Mathlib.Data.List.Sort
import Mathlib.Data.List.TakeWhile

/-! Lists read back in the order of a key, ties in any order. What is read is a label of
each item; it comes back as it was written when only equal labels may change places.
-/
namespace ClawKernel.Lib.Arranged

variable {α β κ : Type*} [LinearOrder κ] (key : α → κ) (label : α → β)

/-- An arrangement of the items in the order of their keys. -/
structure Arranges (arranged items : List α) : Prop where
  perm : arranged.Perm items
  sorted : arranged.Pairwise (fun a b => key a ≤ key b)

/-- Every arrangement reads the labels in the order of the items. -/
def ReadsBack (items : List α) : Prop := ∀ arranged, Arranges key arranged items → arranged.map label = items.map label

/-- An item comes after the others, or is read like those it may come before. -/
def Settled (a b : α) : Prop := label a = label b ∨ key a < key b

theorem exists_arrangement (items : List α) : ∃ arranged, Arranges key arranged items :=
  ⟨items.insertionSort (fun a b => key a ≤ key b),List.perm_insertionSort _ items,
    List.pairwise_insertionSort _ items⟩

variable {key label}

theorem cons_eq_append (b : β) (rest : List β) (same : b :: rest = rest ++ [b]) : ∀ c ∈ rest, c = b := by
  induction rest with
  | nil => exact fun _ member => absurd member List.not_mem_nil
  | cons c rest ih =>
    obtain ⟨rfl,later⟩ := List.cons.inj same
    intro d member
    rcases List.mem_cons.mp member with rfl | inside
    · rfl
    · exact ih later d inside

theorem append_cons_same (b : β) (first second : List β) (all : ∀ c ∈ first, c = b) :
    b :: (first ++ second) = first ++ b :: second := by
  induction first with
  | nil => rfl
  | cons c first ih =>
    obtain rfl := all c List.mem_cons_self
    rw [List.cons_append,List.cons_append,ih (fun d member => all d (List.mem_cons_of_mem c member))]

theorem readsBack_of_settled (items : List α) (settled : items.Pairwise (Settled key label)) :
    ReadsBack key label items := by
  intro arranged arranges
  induction arranged generalizing items with
  | nil => rw [List.nil_perm.mp arranges.perm]
  | cons a rest ih =>
    obtain ⟨first,later⟩ := List.pairwise_cons.mp arranges.sorted
    obtain ⟨before,after,rfl⟩ := List.append_of_mem (arranges.perm.subset List.mem_cons_self)
    have others : rest.Perm (before ++ after) := (arranges.perm.trans List.perm_middle).cons_inv
    have labels : ∀ c ∈ before.map label, c = label a := by
      intro c member
      obtain ⟨b,inside,rfl⟩ := List.mem_map.mp member
      rcases (List.pairwise_append.mp settled).2.2 b inside a List.mem_cons_self with same | less
      · exact same
      · have bound := first b (others.mem_iff.mpr (List.mem_append_left _ inside))
        exact absurd less (not_lt.mpr bound)
    have kept : (before ++ after).Pairwise (Settled key label) :=
      settled.sublist (List.Sublist.append_left (List.sublist_cons_self a after) before)
    rw [List.map_cons,ih _ kept ⟨others,later⟩,List.map_append,List.map_append,List.map_cons]
    exact append_cons_same _ _ _ labels

/-- One more item at the end of a list that reads back. -/
theorem settled_last (items : List α) (a : α) (before : ReadsBack key label items)
    (more : ReadsBack key label (items ++ [a])) : ∀ b ∈ items, Settled key label b a := by
  obtain ⟨sorted,arranges⟩ := exists_arrangement key items
  have inserted : Arranges key (sorted.orderedInsert (fun a b => key a ≤ key b) a) (items ++ [a]) := by
    refine ⟨?_,arranges.sorted.orderedInsert a sorted⟩
    exact (List.perm_orderedInsert _ a sorted).trans ((arranges.perm.cons a).trans (List.perm_append_singleton a items).symm)
  have old := before sorted arranges
  have new := more _ inserted
  have parts : sorted.takeWhile (fun b => ¬key a ≤ key b) ++ sorted.dropWhile (fun b => ¬key a ≤ key b) = sorted :=
    List.takeWhile_append_dropWhile
  have shifted : label a :: (sorted.dropWhile (fun b => ¬key a ≤ key b)).map label =
      (sorted.dropWhile (fun b => ¬key a ≤ key b)).map label ++ [label a] := by
    rw [List.orderedInsert_eq_take_drop,List.map_append,List.map_append,List.map_cons,← old,← parts,List.map_append,
      List.append_assoc,parts] at new
    exact List.append_cancel_left new
  intro b member
  rw [← arranges.perm.mem_iff,← parts] at member
  rcases List.mem_append.mp member with early | late
  · refine .inr ?_
    simpa using List.mem_takeWhile_imp early
  · exact .inl (cons_eq_append _ _ shifted _ (List.mem_map_of_mem late))

/-- A list and all its beginnings read back exactly when its items are settled. -/
theorem readsBack_iff (items : List α) :
    (∀ past, past <+: items → ReadsBack key label past) ↔ items.Pairwise (Settled key label) := by
  constructor
  · intro reads
    induction items using List.reverseRecOn with
    | nil => exact .nil
    | append_singleton items a ih =>
      have earlier (past : List α) (part : past <+: items) : ReadsBack key label past :=
        reads past (part.trans (List.prefix_append items [a]))
      refine List.pairwise_append.mpr ⟨ih earlier,List.pairwise_singleton _ a,?_⟩
      intro b member c same
      rw [List.mem_singleton.mp same]
      exact settled_last items a (earlier items List.prefix_rfl) (reads _ List.prefix_rfl) b member
  · intro settled past part
    exact readsBack_of_settled past (settled.sublist part.sublist)

end ClawKernel.Lib.Arranged
