import Mathlib.Data.List.Dedup
import Mathlib.Data.List.Nodup

/-! Rows under keys, where a new row takes the place of the row with its key. Of many rows
put one after another none is lost exactly when their keys are new and all different.
-/
namespace ClawKernel.Lib.Upsert

variable {ρ κ ι : Type*} [DecidableEq κ] (key : ρ → κ)

def put (rows : List ρ) (row : ρ) : List ρ := rows.filter (fun other => key other ≠ key row) ++ [row]

/-- The row made of an item may depend on the rows that are there. -/
def puts (make : List ρ → ι → ρ) (rows : List ρ) (items : List ι) : List ρ :=
  items.foldl (fun rows item => put key rows (make rows item)) rows

theorem mem_put (rows : List ρ) (row other : ρ) :
    other ∈ put key rows row ↔ other ∈ rows ∧ key other ≠ key row ∨ other = row := by
  simp [put]

theorem keys_put (rows : List ρ) (row : ρ) (k : κ) :
    k ∈ (put key rows row).map key ↔ k ∈ rows.map key ∨ k = key row := by
  simp only [List.mem_map,mem_put]
  constructor
  · rintro ⟨other,⟨old,-⟩ | rfl,rfl⟩
    · exact .inl ⟨other,old,rfl⟩
    · exact .inr rfl
  · rintro (⟨other,old,rfl⟩ | rfl)
    · by_cases same : key other = key row
      · exact ⟨row,.inr rfl,same.symm⟩
      · exact ⟨other,.inl ⟨old,same⟩,rfl⟩
    · exact ⟨row,.inr rfl,rfl⟩

theorem nodup_put (rows : List ρ) (row : ρ) (unique : (rows.map key).Nodup) : ((put key rows row).map key).Nodup := by
  rw [put,List.map_append,List.nodup_append]
  refine ⟨unique.sublist (List.filter_sublist.map key),List.nodup_singleton _,?_⟩
  intro k old other new
  obtain ⟨kept,member,rfl⟩ := List.mem_map.mp old
  rw [List.mem_singleton.mp new]
  exact of_decide_eq_true (List.mem_filter.mp member).2

/-- Looking a row up by its key. -/
theorem find_key_iff (rows : List ρ) (unique : (rows.map key).Nodup) (row : ρ) (k : κ) :
    rows.find? (fun other => key other = k) = some row ↔ row ∈ rows ∧ key row = k := by
  constructor
  · intro found
    have named := List.find?_some found
    exact ⟨List.mem_of_find?_eq_some found,of_decide_eq_true named⟩
  · rintro ⟨member,rfl⟩
    cases found : rows.find? (fun other => key other = key row) with
    | none => exact absurd (List.find?_eq_none.mp found row member) (by simp)
    | some other =>
      have named := List.find?_some found
      have same : key other = key row := of_decide_eq_true named
      rw [List.inj_on_of_nodup_map unique (List.mem_of_find?_eq_some found) member same]

section Items
variable (make : List ρ → ι → ρ) (name : ι → κ) (named : ∀ rows item, key (make rows item) = name item)
include named

theorem keys_puts (rows : List ρ) (items : List ι) (k : κ) :
    k ∈ (puts key make rows items).map key ↔ k ∈ rows.map key ++ items.map name := by
  induction items generalizing rows with
  | nil => simp [puts]
  | cons item rest ih =>
    have later := ih (put key rows (make rows item))
    rw [List.mem_append,keys_put,named] at later
    simp only [puts,List.foldl_cons,List.map_cons,List.mem_append,List.mem_cons] at later ⊢
    rw [later,or_assoc]

omit named in
theorem nodup_puts (rows : List ρ) (items : List ι) (unique : (rows.map key).Nodup) :
    ((puts key make rows items).map key).Nodup := by
  induction items generalizing rows with
  | nil => exact unique
  | cons item rest ih => exact ih (put key rows (make rows item)) (nodup_put key rows _ unique)

theorem length_puts_iff (rows : List ρ) (items : List ι) (unique : (rows.map key).Nodup) :
    (puts key make rows items).length = rows.length + items.length ↔
      (items.map name).Nodup ∧ ∀ item ∈ items, name item ∉ rows.map key := by
  have same : ((puts key make rows items).map key).Perm (rows.map key ++ items.map name).dedup := by
    refine (List.perm_ext_iff_of_nodup (nodup_puts key make rows items unique) (List.nodup_dedup _)).mpr fun k => ?_
    rw [keys_puts key make name named,List.mem_dedup]
  have sizes := same.length_eq
  have all : (rows.map key ++ items.map name).length = rows.length + items.length := by simp
  rw [List.length_map] at sizes
  rw [sizes,← all]
  constructor
  · intro full
    have nodup := List.dedup_eq_self.mp ((List.dedup_sublist _).eq_of_length full)
    obtain ⟨-,apart,disjoint⟩ := List.nodup_append.mp nodup
    exact ⟨apart,fun item member inside => disjoint _ inside _ (List.mem_map_of_mem member) rfl⟩
  · rintro ⟨apart,fresh⟩
    refine congrArg List.length (List.dedup_eq_self.mpr (List.nodup_append.mpr ⟨unique,apart,?_⟩))
    rintro k inside other member rfl
    obtain ⟨item,among,rfl⟩ := List.mem_map.mp member
    exact fresh item among inside

theorem kept_puts (rows : List ρ) (items : List ι) (row : ρ) (member : row ∈ rows)
    (apart : ∀ item ∈ items, name item ≠ key row) : row ∈ puts key make rows items := by
  induction items generalizing rows with
  | nil => exact member
  | cons item rest ih =>
    refine ih _ ?_ (fun other later => apart other (List.mem_cons_of_mem item later))
    refine (mem_put key rows _ row).mpr (.inl ⟨member,?_⟩)
    rw [named]
    exact Ne.symm (apart item List.mem_cons_self)

/-- Of items with different names each one's row stays. -/
theorem made_puts (rows : List ρ) (items : List ι) (distinct : (items.map name).Nodup) (item : ι) (member : item ∈ items) :
    ∃ before, make before item ∈ puts key make rows items := by
  induction items generalizing rows with
  | nil => cases member
  | cons first rest ih =>
    rw [List.map_cons,List.nodup_cons] at distinct
    obtain ⟨fresh,later⟩ := distinct
    rcases List.mem_cons.mp member with rfl | among
    · refine ⟨rows,kept_puts key make name named _ rest _ ((mem_put key rows _ _).mpr (.inr rfl)) ?_⟩
      intro other inside same
      rw [named] at same
      exact fresh (same ▸ List.mem_map_of_mem inside)
    · exact ih (put key rows (make rows first)) later among

end Items
end ClawKernel.Lib.Upsert
