import Mathlib.Data.Finset.Card
import Mathlib.Order.Lattice

/-! Entries in the order of their keys: setting one, removing the first, and which of the keys
seen so far are still there.
-/
namespace ClawKernel.Lib.Newest

variable {κ ν : Type} [LinearOrder κ]

def put (key : κ) (value : ν) : List (κ × ν) → List (κ × ν)
  | [] => [(key,value)]
  | entry :: rest =>
    if key < entry.1 then (key,value) :: entry :: rest
    else if entry.1 = key then (key,value) :: rest
    else entry :: put key value rest

def remove (key : κ) (entries : List (κ × ν)) : List (κ × ν) := entries.filter (fun entry => entry.1 ≠ key)

def Ordered (entries : List (κ × ν)) : Prop := entries.Pairwise (fun entry later => entry.1 < later.1)

theorem mem_put (key : κ) (value : ν) (entries : List (κ × ν)) (ordered : Ordered entries) (entry : κ × ν) :
    entry ∈ put key value entries ↔ entry = (key,value) ∨ entry ∈ entries ∧ entry.1 ≠ key := by
  induction entries with
  | nil => simp [put]
  | cons first rest ih =>
    obtain ⟨least,later⟩ := List.pairwise_cons.mp ordered
    rw [put]
    split
    · rename_i before
      have other : entry ∈ first :: rest → entry.1 ≠ key := by
        intro inside
        rcases List.mem_cons.mp inside with rfl | inside
        · exact ne_of_gt before
        · exact ne_of_gt (lt_trans before (least entry inside))
      rw [List.mem_cons]
      exact or_congr_right ⟨fun inside => ⟨inside,other inside⟩,And.left⟩
    split
    · rename_i same
      have other : entry ∈ rest → entry.1 ≠ key := fun inside => ne_of_gt (same ▸ least entry inside)
      rw [List.mem_cons,List.mem_cons]
      refine or_congr_right ⟨fun inside => ⟨.inr inside,other inside⟩,?_⟩
      rintro ⟨rfl | inside,differs⟩
      · exact absurd same differs
      · exact inside
    · rename_i differs
      rw [List.mem_cons,ih later,List.mem_cons]
      constructor
      · rintro (rfl | new | old)
        · exact .inr ⟨.inl rfl,differs⟩
        · exact .inl new
        · exact .inr ⟨.inr old.1,old.2⟩
      · rintro (new | ⟨rfl | old,apart⟩)
        · exact .inr (.inl new)
        · exact .inl rfl
        · exact .inr (.inr ⟨old,apart⟩)

theorem put_ordered (key : κ) (value : ν) (entries : List (κ × ν)) (ordered : Ordered entries) :
    Ordered (put key value entries) := by
  induction entries with
  | nil => exact List.pairwise_singleton _ _
  | cons first rest ih =>
    obtain ⟨least,later⟩ := List.pairwise_cons.mp ordered
    rw [put]
    split
    · rename_i before
      refine List.pairwise_cons.mpr ⟨fun entry inside => ?_,ordered⟩
      rcases List.mem_cons.mp inside with rfl | inside
      · exact before
      · exact lt_trans before (least entry inside)
    split
    · rename_i same
      exact List.pairwise_cons.mpr ⟨fun entry inside => same ▸ least entry inside,later⟩
    · rename_i notBefore differs
      refine List.pairwise_cons.mpr ⟨fun entry inside => ?_,ih later⟩
      rcases (mem_put key value rest later entry).mp inside with rfl | ⟨old,_⟩
      · exact lt_of_le_of_ne (not_lt.mp notBefore) differs
      · exact least entry old

theorem put_length (key : κ) (value : ν) (entries : List (κ × ν)) :
    (put key value entries).length ≤ entries.length + 1 := by
  induction entries with
  | nil => exact Nat.le_refl 1
  | cons first rest ih =>
    rw [put]
    split
    · exact Nat.le_refl _
    split
    · exact Nat.le_succ _
    · exact Nat.succ_le_succ ih

/-- An entry with a greater key than all others comes last. -/
theorem put_last (key : κ) (value : ν) (entries : List (κ × ν)) (greatest : ∀ entry ∈ entries, entry.1 < key) :
    put key value entries = entries ++ [(key,value)] := by
  induction entries with
  | nil => rfl
  | cons first rest ih =>
    obtain ⟨before,later⟩ := List.forall_mem_cons.mp greatest
    rw [put,if_neg (not_lt_of_gt before),if_neg (ne_of_lt before),ih later,List.cons_append]

/-- Removing the first keys one by one removes the first entries. -/
theorem remove_first (entries : List (κ × ν)) (ordered : Ordered entries) (count : Nat) :
    ((entries.map Prod.fst).take count).foldl (fun left key => remove key left) entries = entries.drop count := by
  induction count generalizing entries with
  | zero => rfl
  | succ count ih =>
    cases entries with
    | nil => rfl
    | cons first rest =>
      obtain ⟨least,later⟩ := List.pairwise_cons.mp ordered
      have gone : remove first.1 (first :: rest) = rest := by
        unfold remove
        rw [List.filter_cons_of_neg (by simp),List.filter_eq_self.mpr]
        exact fun entry inside => decide_eq_true (ne_of_gt (least entry inside))
      rw [List.map_cons,List.take_succ_cons,List.foldl_cons,gone,ih rest later,List.drop_succ_cons]

theorem drop_ordered (entries : List (κ × ν)) (ordered : Ordered entries) (count : Nat) : Ordered (entries.drop count) :=
  ordered.sublist (List.drop_sublist count entries)

/-- What is dropped has smaller keys than what stays. -/
theorem dropped_less (entries : List (κ × ν)) (ordered : Ordered entries) (count : Nat) (gone kept : κ × ν)
    (before : gone ∈ entries.take count) (after : kept ∈ entries.drop count) : gone.1 < kept.1 := by
  unfold Ordered at ordered
  rw [← List.take_append_drop count entries] at ordered
  exact (List.pairwise_append.mp ordered).2.2 gone before kept after

/-- The `count` greatest keys that were seen are still there. -/
def Keeps (count : Nat) (seen : Finset κ) (entries : List (κ × ν)) : Prop :=
  ∀ key ∈ seen, (seen.filter (key < ·)).card < count → key ∈ entries.map Prod.fst

theorem keeps_put (count : Nat) (seen : Finset κ) (entries : List (κ × ν)) (key : κ) (value : ν)
    (ordered : Ordered entries) (keeps : Keeps count seen entries) :
    Keeps count (insert key seen) (put key value entries) := by
  intro other inside few
  by_cases same : other = key
  · exact List.mem_map.mpr ⟨(key,value),(mem_put key value entries ordered _).mpr (.inl rfl),same.symm⟩
  · have old := (Finset.mem_insert.mp inside).resolve_left same
    have fewer := Finset.card_le_card (Finset.filter_subset_filter (other < ·) (Finset.subset_insert key seen))
    obtain ⟨entry,there,rfl⟩ := List.mem_map.mp (keeps other old (lt_of_le_of_lt fewer few))
    exact List.mem_map.mpr ⟨entry,(mem_put key value entries ordered _).mpr (.inr ⟨there,same⟩),rfl⟩

/-- The greatest keys stay as long as there are enough entries after what is dropped: a key that is dropped has all
of them above it. -/
theorem keeps_drop (count removed : Nat) (seen : Finset κ) (entries : List (κ × ν)) (ordered : Ordered entries)
    (known : ∀ entry ∈ entries, entry.1 ∈ seen) (enough : count + removed ≤ entries.length)
    (keeps : Keeps count seen entries) : Keeps count seen (entries.drop removed) := by
  intro key inside few
  obtain ⟨entry,there,rfl⟩ := List.mem_map.mp (keeps key inside few)
  rw [← List.take_append_drop removed entries] at there
  rcases List.mem_append.mp there with gone | kept
  · exfalso
    have above : ((entries.drop removed).map Prod.fst).toFinset ⊆ seen.filter (entry.1 < ·) := by
      intro other listed
      obtain ⟨later,after,rfl⟩ := List.mem_map.mp (List.mem_toFinset.mp listed)
      exact Finset.mem_filter.mpr ⟨known later (List.mem_of_mem_drop after),
        dropped_less entries ordered removed entry later gone after⟩
    have distinct : ((entries.drop removed).map Prod.fst).Nodup :=
      List.pairwise_map.mpr ((drop_ordered entries ordered removed).imp (fun before => ne_of_lt before))
    have many := Finset.card_le_card above
    rw [List.toFinset_card_of_nodup distinct,List.length_map,List.length_drop] at many
    omega
  · exact List.mem_map.mpr ⟨entry,kept,rfl⟩

/-- The last entries in reverse are those with the greatest keys, the greatest first. -/
theorem last_entries (entries : List (κ × ν)) (ordered : Ordered entries) (count : Nat) :
    ∃ older latest, entries = older ++ latest ∧ latest.length = min count entries.length ∧
      entries.reverse.take count = latest.reverse ∧ (∀ entry ∈ older, ∀ later ∈ latest, entry.1 < later.1) ∧
      latest.reverse.Pairwise (fun later entry => entry.1 < later.1) := by
  refine ⟨_,_,(List.take_append_drop (entries.length - count) entries).symm,?_,List.take_reverse,?_,?_⟩
  · rw [List.length_drop]
    omega
  · exact fun entry before later after => dropped_less entries ordered _ entry later before after
  · exact List.pairwise_reverse.mpr (drop_ordered entries ordered _)

end ClawKernel.Lib.Newest
