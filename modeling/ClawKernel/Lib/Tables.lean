import Mathlib.Data.List.AList

/-! Keyed tables: finite maps whose entries can be visited one after another. -/
namespace ClawKernel.Lib.Tables

variable {κ : Type*} {ν : Type*} [DecidableEq κ]

abbrev Table (κ : Type*) (ν : Type*) := AList (fun _ : κ => ν)

theorem lookup_insert_if (t : Table κ ν) (k other : κ) (v : ν) :
    (t.insert k v).lookup other = if other = k then some v else t.lookup other := by
  by_cases same : other = k
  · rw [if_pos same,same]
    exact AList.lookup_insert t
  · rw [if_neg same]
    exact AList.lookup_insert_ne same

theorem lookup_of_insert (t : Table κ ν) (k other : κ) (v w : ν) (found : (t.insert k v).lookup other = some w) :
    other = k ∧ w = v ∨ other ≠ k ∧ t.lookup other = some w := by
  rw [lookup_insert_if] at found
  split at found
  · exact Or.inl ⟨‹_›,(Option.some_inj.mp found).symm⟩
  · exact Or.inr ⟨‹_›,found⟩

/-- What is read off an entry after an insert is read off the new entry, or was read before. -/
theorem bind_insert {β : Type*} (t : Table κ ν) (k other : κ) (v : ν) (read : ν → Option β) (b : β)
    (reads : ((t.insert k v).lookup other).bind read = some b) :
    other ≠ k ∧ (t.lookup other).bind read = some b ∨ other = k ∧ read v = some b := by
  rw [lookup_insert_if] at reads
  split at reads
  · exact Or.inr ⟨‹_›,reads⟩
  · exact Or.inl ⟨‹_›,reads⟩

/-- Nothing new is read where the new entry gives what the old one gave, or nothing. -/
theorem bind_insert_same {β : Type*} (t : Table κ ν) (k other : κ) (v w : ν) (read : ν → Option β) (b : β)
    (found : t.lookup k = some w) (same : read v = none ∨ read v = read w)
    (reads : ((t.insert k v).lookup other).bind read = some b) : (t.lookup other).bind read = some b := by
  rcases bind_insert t k other v read b reads with ⟨_,before⟩ | ⟨rfl,now⟩
  · exact before
  · rcases same with none | same
    · rw [none] at now
      cases now
    · rw [found,Option.bind_some,← same]
      exact now

/-- What one map says the other says too, also after both are changed alike at one key. -/
theorem included_if (first second : κ → Option ν) (included : ∀ k v, first k = some v → second k = some v) (key : κ)
    (there : Option ν) (k : κ) (v : ν) (found : (if k = key then there else first k) = some v) :
    (if k = key then there else second k) = some v := by
  split at found
  · rw [if_pos ‹_›]
    exact found
  · rw [if_neg ‹_›]
    exact included k v found

theorem lookup_erase_if (t : Table κ ν) (k other : κ) :
    (t.erase k).lookup other = if other = k then none else t.lookup other := by
  by_cases same : other = k
  · rw [if_pos same,same]
    exact AList.lookup_erase k t
  · rw [if_neg same]
    exact AList.lookup_erase_ne same

theorem lookup_of_erase (t : Table κ ν) (k other : κ) (v : ν) (found : (t.erase k).lookup other = some v) :
    other ≠ k ∧ t.lookup other = some v := by
  rw [lookup_erase_if] at found
  split at found
  · cases found
  · exact ⟨‹_›,found⟩

/-- Several keys removed one after another. -/
def eraseAll (keys : List κ) (t : Table κ ν) : Table κ ν := keys.foldl (fun rest k => rest.erase k) t

theorem lookup_eraseAll (keys : List κ) (t : Table κ ν) (other : κ) :
    (eraseAll keys t).lookup other = if other ∈ keys then none else t.lookup other := by
  unfold eraseAll
  induction keys generalizing t with
  | nil => exact (if_neg List.not_mem_nil).symm
  | cons k rest ih =>
    rw [List.foldl_cons,ih,lookup_erase_if]
    by_cases later : other ∈ rest
    · rw [if_pos later,if_pos (List.mem_cons_of_mem k later)]
    · have member : other ∈ k :: rest ↔ other = k := List.mem_cons.trans (or_iff_left later)
      simp only [if_neg later,member]

theorem length_insert (t : Table κ ν) (k : κ) (v : ν) :
    (t.insert k v).entries.length = if k ∈ t then t.entries.length else t.entries.length + 1 := by
  rw [AList.entries_insert,List.length_cons]
  split
  · rename_i present
    obtain ⟨w,before,after,_,parts,erased⟩ := List.exists_of_kerase present
    rw [erased,parts,List.length_append,List.length_append,List.length_cons]
    rfl
  · rename_i absent
    rw [List.kerase_of_notMem_keys absent]

theorem length_erase_le (t : Table κ ν) (k : κ) : (t.erase k).entries.length ≤ t.entries.length :=
  (List.kerase_sublist k t.entries).length_le

theorem erase_insert (t : Table κ ν) (k : κ) (v : ν) (absent : k ∉ t) : (t.insert k v).erase k = t := by
  apply AList.ext
  change List.kerase k (t.insert k v).entries = t.entries
  rw [AList.entries_insert_of_notMem absent]
  exact List.kerase_cons_eq rfl

theorem erase_absent (t : Table κ ν) (k : κ) (absent : k ∉ t) : t.erase k = t :=
  AList.ext (List.kerase_of_notMem_keys absent)

theorem entry_iff (t : Table κ ν) (k : κ) (v : ν) : ⟨k,v⟩ ∈ t.entries ↔ t.lookup k = some v :=
  AList.mem_lookup_iff.symm

/-- The entries of a kind, each with something read off it. -/
theorem mem_picked {β : Type*} (t : Table κ ν) (pick : ν → Bool) (read : ν → β) (k : κ) (b : β) :
    (k,b) ∈ (t.entries.filter (fun entry => pick entry.2)).map (fun entry => (entry.1,read entry.2)) ↔
      ∃ v, t.lookup k = some v ∧ pick v = true ∧ read v = b := by
  rw [List.mem_map]
  constructor
  · rintro ⟨entry,member,same⟩
    obtain ⟨present,picked⟩ := List.mem_filter.mp member
    obtain ⟨rfl,rfl⟩ := Prod.mk.inj same
    exact ⟨entry.2,(entry_iff t entry.1 entry.2).mp present,picked,rfl⟩
  · rintro ⟨v,found,picked,rfl⟩
    exact ⟨⟨k,v⟩,List.mem_filter.mpr ⟨(entry_iff t k v).mpr found,picked⟩,rfl⟩

/-- `get_mut`: changes the entry of a key, if there is one. -/
def modify (t : Table κ ν) (k : κ) (change : ν → ν) : Table κ ν :=
  match t.lookup k with
  | none => t
  | some v => t.insert k (change v)

theorem lookup_modify (t : Table κ ν) (k other : κ) (change : ν → ν) :
    (modify t k change).lookup other = if other = k then (t.lookup k).map change else t.lookup other := by
  unfold modify
  by_cases same : other = k
  · subst same
    cases found : t.lookup other with
    | none => rw [if_pos rfl,found,Option.map_none]
    | some v => rw [if_pos rfl,Option.map_some,AList.lookup_insert]
  · rw [if_neg same]
    cases found : t.lookup k with
    | none => rfl
    | some v => exact AList.lookup_insert_ne same

theorem mem_modify (t : Table κ ν) (k other : κ) (change : ν → ν) : other ∈ modify t k change ↔ other ∈ t := by
  rw [← AList.lookup_isSome,← AList.lookup_isSome,lookup_modify]
  split
  · rename_i same
    rw [same,Option.isSome_map]
  · rfl

/-- Takes up what an entry gives, unless its key is in use. -/
def fill {μ : Type*} (make : κ → μ → Option ν) (t : Table κ ν) (entry : Sigma (fun _ : κ => μ)) : Table κ ν :=
  if entry.1 ∈ t then t else
    match make entry.1 entry.2 with
    | none => t
    | some v => t.insert entry.1 v

theorem lookup_fill {μ : Type*} (make : κ → μ → Option ν) (t : Table κ ν) (entry : Sigma (fun _ : κ => μ)) (k : κ) :
    (fill make t entry).lookup k =
      (t.lookup k).or (if k = entry.1 then make entry.1 entry.2 else none) := by
  unfold fill
  by_cases same : k = entry.1
  · subst same
    by_cases present : entry.1 ∈ t
    · obtain ⟨v,found⟩ := Option.isSome_iff_exists.mp (AList.lookup_isSome.mpr present)
      rw [if_pos present,found,Option.some_or]
    · rw [if_neg present,AList.lookup_eq_none.mpr present,if_pos rfl,Option.none_or]
      cases made : make entry.1 entry.2 with
      | none => exact AList.lookup_eq_none.mpr present
      | some v => exact AList.lookup_insert t
  · rw [if_neg same,Option.or_none]
    by_cases present : entry.1 ∈ t
    · rw [if_pos present]
    · rw [if_neg present]
      cases made : make entry.1 entry.2 with
      | none => rfl
      | some v => exact AList.lookup_insert_ne same

theorem lookup_foldl_fill {μ : Type*} (make : κ → μ → Option ν) (entries : List (Sigma (fun _ : κ => μ)))
    (distinct : entries.NodupKeys) (t : Table κ ν) (k : κ) :
    (entries.foldl (fill make) t).lookup k = (t.lookup k).or ((entries.dlookup k).bind (make k)) := by
  induction entries generalizing t with
  | nil => simp
  | cons entry rest ih =>
    obtain ⟨fresh,apart⟩ := List.nodupKeys_cons.mp distinct
    rw [List.foldl_cons,ih apart,lookup_fill,Option.or_assoc]
    by_cases same : k = entry.1
    · subst same
      have absent : rest.dlookup entry.1 = none := List.dlookup_eq_none.mpr fresh
      rw [absent,if_pos rfl,Option.bind_none,Option.or_none]
      exact congrArg _ (by rw [List.dlookup_cons_eq]; rfl)
    · rw [if_neg same,Option.none_or,List.dlookup_cons_ne rest entry same]

/-- A pass over the entries, around the entry of one key: what holds before it is kept by the
other entries, is turned by that one, and what holds after it is kept by the others too. -/
theorem foldl_entry {σ : Type*} (f : σ → Sigma (fun _ : κ => ν) → σ) (t : Table κ ν) (k : κ) (v : ν)
    (found : t.lookup k = some v) (before after : σ → Prop)
    (waits : ∀ s other w, other ≠ k → t.lookup other = some w → before s → before (f s ⟨other,w⟩))
    (turns : ∀ s, before s → after (f s ⟨k,v⟩))
    (keeps : ∀ s other w, other ≠ k → t.lookup other = some w → after s → after (f s ⟨other,w⟩))
    (start : σ) (initially : before start) : after (t.entries.foldl f start) := by
  obtain ⟨early,late,parts⟩ := List.append_of_mem ((entry_iff t k v).mpr found)
  have distinct : (early ++ ⟨k,v⟩ :: late).NodupKeys := parts ▸ t.nodupKeys
  have apart (entry : Sigma (fun _ : κ => ν)) (member : entry ∈ early ++ late) :
      entry.1 ≠ k ∧ t.lookup entry.1 = some entry.2 := by
    have moved := (List.perm_nodupKeys (List.perm_middle (a := (⟨k,v⟩ : Sigma (fun _ : κ => ν))))).mp distinct
    obtain ⟨fresh,_⟩ := List.nodupKeys_cons.mp moved
    constructor
    · intro same
      apply fresh
      change k ∈ (early ++ late).keys
      rw [← same]
      exact List.mem_keys_of_mem member
    · apply (entry_iff t entry.1 entry.2).mp
      rw [parts]
      exact List.mem_append.mpr ((List.mem_append.mp member).imp id (List.mem_cons_of_mem _))
  rw [parts,List.foldl_append,List.foldl_cons]
  apply List.foldlRecOn (motive := after) late f
  · apply turns
    apply List.foldlRecOn (motive := before) early f initially
    intro s holds entry member
    have other := apart entry (List.mem_append_left late member)
    exact waits s entry.1 entry.2 other.1 other.2 holds
  · intro s holds entry member
    have other := apart entry (List.mem_append_right early member)
    exact keeps s entry.1 entry.2 other.1 other.2 holds

/-- `retain`: a pass that erases what is not to be kept. -/
theorem lookup_retain (keep : κ → ν → Prop) [∀ k v, Decidable (keep k v)] (t : Table κ ν) (k : κ) :
    (t.entries.foldl (fun rest entry => if keep entry.1 entry.2 then rest else rest.erase entry.1) t).lookup k =
      (t.lookup k).filter (fun v => decide (keep k v)) := by
  have others (rest : Table κ ν) (entry : Sigma (fun _ : κ => ν)) (there : Option ν) (other : entry.1 ≠ k)
      (same : rest.lookup k = there) :
      (if keep entry.1 entry.2 then rest else rest.erase entry.1).lookup k = there := by
    split
    · exact same
    · rw [lookup_erase_if,if_neg other.symm]
      exact same
  cases found : t.lookup k with
  | none =>
    rw [Option.filter_none]
    apply List.foldlRecOn (motive := fun rest : Table κ ν => rest.lookup k = none) _ _ found
    intro rest absent entry member
    apply others rest entry none _ absent
    intro same
    have present := (entry_iff t entry.1 entry.2).mp member
    rw [same,found] at present
    cases present
  | some v =>
    by_cases kept : keep k v
    · rw [Option.filter_some,if_pos (decide_eq_true kept)]
      apply foldl_entry _ t k v found (fun rest : Table κ ν => rest.lookup k = some v)
        (fun rest : Table κ ν => rest.lookup k = some v)
      · exact fun rest other w apart _ same => others rest ⟨other,w⟩ (some v) apart same
      · intro rest same
        rw [if_pos kept]
        exact same
      · exact fun rest other w apart _ same => others rest ⟨other,w⟩ (some v) apart same
      · exact found
    · rw [Option.filter_some,if_neg (by simpa using kept)]
      apply foldl_entry _ t k v found (fun _ => True) (fun rest : Table κ ν => rest.lookup k = none)
      · exact fun _ _ _ _ _ _ => True.intro
      · intro rest _
        rw [if_neg kept,lookup_erase_if,if_pos rfl]
      · exact fun rest other w apart _ same => others rest ⟨other,w⟩ none apart same
      · exact True.intro

/-- Only one key is read. -/
theorem filterMap_one {β : Type*} (entries : List (Sigma (fun _ : κ => ν))) (nodup : entries.NodupKeys) (k : κ)
    (read : κ → Option β) (only : ∀ other, read other ≠ none → other = k) (absent : k ∉ entries.keys → read k = none) :
    entries.filterMap (fun entry => read entry.1) = (read k).toList := by
  induction entries with
  | nil => simp [absent]
  | cons entry rest ih =>
    obtain ⟨key,v⟩ := entry
    obtain ⟨apart,others⟩ := List.nodupKeys_cons.mp nodup
    by_cases same : key = k
    · subst same
      have none : rest.filterMap (fun entry => read entry.1) = [] := by
        refine List.filterMap_eq_nil_iff.mpr (fun entry member => ?_)
        by_contra some
        rw [← only entry.1 some] at apart
        exact apart (List.mem_map.mpr ⟨entry,member,rfl⟩)
      rw [List.filterMap_cons,none]
      cases read key <;> rfl
    · have skipped : read key = none := by
        by_contra some
        exact same (only key some)
      rw [List.filterMap_cons,skipped]
      refine ih others (fun missing => absent ?_)
      simpa [Ne.symm same] using missing
end ClawKernel.Lib.Tables
