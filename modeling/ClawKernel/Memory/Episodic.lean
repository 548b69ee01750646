import Mathlib.Algebra.Group.Int.Defs
import ClawKernel.Lib.Turned
import ClawKernel.Memory.Sqlite

/-! The search of the episodic table: the conditions of its statement, the values that are bound
to them, and the rows it returns, against the filter over unsigned numbers.
-/
namespace ClawKernel.Memory.Episodic
open Lib.Turned
open Memory.Sqlite

inductive SqlValue where
  | text (value : String)
  | integer (value : Int64)

/-- `namespace = ?`, `episode_id = ?`, `timestamp_ms >= ?` and `timestamp_ms <= ?`. -/
inductive Condition where
  | namespaceIs
  | episodeIs
  | notBefore
  | notAfter

def conditions (filter : EpisodicFilter) : List Condition :=
  let conditions := []
  let conditions := if filter.namespaceName.isSome then conditions ++ [.namespaceIs] else conditions
  let conditions := if filter.episodeId.isSome then conditions ++ [.episodeIs] else conditions
  let conditions := if filter.afterMs.isSome then conditions ++ [.notBefore] else conditions
  if filter.beforeMs.isSome then conditions ++ [.notAfter] else conditions

def pushed (values : List SqlValue) : Option SqlValue → List SqlValue
  | some value => values ++ [value]
  | none => values

/-- `param_values`; unsigned numbers are bound `as i64`. -/
def paramValues (filter : EpisodicFilter) : List SqlValue :=
  let values := pushed [] (filter.namespaceName.map .text)
  let values := pushed values (filter.episodeId.map .text)
  let values := pushed values (filter.afterMs.map (fun after => .integer after.toInt64))
  let values := pushed values (filter.beforeMs.map (fun before => .integer before.toInt64))
  pushed values (filter.limit.map (fun limit => .integer limit.toInt64))

/-- A column of texts is compared with texts, one of integers with integers. -/
def Condition.holds (row : EpisodicRow) : Condition × SqlValue → Bool
  | (.namespaceIs,.text value) => row.namespaceName = value
  | (.episodeIs,.text value) => row.episodeId = value
  | (.notBefore,.integer value) => value ≤ row.timestampMs
  | (.notAfter,.integer value) => row.timestampMs ≤ value
  | _ => false

def limitValue : Option SqlValue → Option Int64
  | some (.integer limit) => some limit
  | _ => none

/-- The values go to the question marks in turn, the last of them to that of `LIMIT`. Without one for each,
or with a limit that is no integer, the statement fails. -/
def bindParams (conditions : List Condition) (hasLimit : Bool) (values : List SqlValue) :
    Option (List (Condition × SqlValue) × Option Int64) :=
  if values.length ≠ conditions.length + hasLimit.toNat then none
  else if hasLimit then
    (limitValue values[conditions.length]?).map (fun limit => (conditions.zip values,some limit))
  else some (conditions.zip values,none)

/-- A table has fewer rows than a signed integer counts. -/
structure EpisodicTable where
  rows : List EpisodicRow
  bounded : rows.length < 2 ^ 63

def limitedBy (limit : Option Int64) (rows : List EpisodicRow) : List EpisodicRow :=
  match limit with
  | some limit => limited limit rows
  | none => rows

/-- What `search_episodic` can return: rows of one timestamp come in any order. -/
def SearchEpisodic (table : EpisodicTable) (filter : EpisodicFilter) (outcome : Except MemoryError (List EpisodicEntry)) :
    Prop :=
  match bindParams (conditions filter) filter.limit.isSome (paramValues filter) with
  | none => ∃ message, outcome = .error (.storage message)
  | some (tests,limit) => ∃ ordered : List EpisodicRow,
      ordered.Perm (table.rows.filter (fun row => tests.all (Condition.holds row))) ∧
      ordered.Pairwise (fun a b => a.timestampMs ≤ b.timestampMs) ∧
      outcome = .ok ((limitedBy limit ordered).map rowToEpisodicEntry)

/-- The entry is in the episode and the namespace. -/
def within (filter : EpisodicFilter) (entry : EpisodicEntry) : Bool :=
  filter.namespaceName.all (fun name => entry.namespaceName = name) &&
  filter.episodeId.all (fun id => entry.episodeId = id)

def unsignedWithin (filter : EpisodicFilter) (timestamp : UInt64) : Bool :=
  filter.afterMs.all (fun after => after ≤ timestamp) && filter.beforeMs.all (fun before => timestamp ≤ before)

/-- The bounds as they are compared in the statement. -/
def signedWithin (filter : EpisodicFilter) (timestamp : UInt64) : Bool :=
  filter.afterMs.all (fun after => after.toInt64 ≤ timestamp.toInt64) &&
  filter.beforeMs.all (fun before => timestamp.toInt64 ≤ before.toInt64)

def entryMatches (filter : EpisodicFilter) (entry : EpisodicEntry) : Bool :=
  within filter entry && unsignedWithin filter entry.timestampMs

def entrySelected (filter : EpisodicFilter) (entry : EpisodicEntry) : Bool :=
  within filter entry && signedWithin filter entry.timestampMs

def entries (table : EpisodicTable) : List EpisodicEntry := table.rows.map rowToEpisodicEntry

def Intended (table : EpisodicTable) (filter : EpisodicFilter) (found : List EpisodicEntry) : Prop :=
  Answer (fun a b => a.timestampMs ≤ b.timestampMs) (entryMatches filter) (filter.limit.map UInt64.toNat) (entries table)
    found

/-- The search returns, and only the matching entries by their timestamps, cut to the limit. -/
def MeetsFilter (table : EpisodicTable) (filter : EpisodicFilter) : Prop :=
  (∃ outcome, SearchEpisodic table filter outcome) ∧
    ∀ outcome, SearchEpisodic table filter outcome → ∃ found, outcome = .ok found ∧ Intended table filter found

/-- A timestamp that is negative as a signed number. -/
def late (entry : EpisodicEntry) : Bool := 2 ^ 63 ≤ entry.timestampMs.toNat

theorem signed_value (n : UInt64) : n.toInt64.toInt = if n.toNat < 2 ^ 63 then (n.toNat : Int) else n.toNat - 2 ^ 64 := by
  change n.toBitVec.toInt = _
  rw [BitVec.toInt_eq_toNat_cond]
  have same : n.toBitVec.toNat = n.toNat := rfl
  rw [same]
  split <;> split <;> omega

theorem signed_le (m n : UInt64) : m.toInt64 ≤ n.toInt64 ↔
    (if m.toNat < 2 ^ 63 then (m.toNat : Int) else m.toNat - 2 ^ 64) ≤
      if n.toNat < 2 ^ 63 then (n.toNat : Int) else n.toNat - 2 ^ 64 := by
  rw [Int64.le_iff_toInt_le,signed_value,signed_value]

/-- The conditions with the values they are meant for. -/
def tests (filter : EpisodicFilter) : List (Condition × SqlValue) :=
  (filter.namespaceName.map (fun name => (Condition.namespaceIs,SqlValue.text name))).toList ++
  (filter.episodeId.map (fun id => (Condition.episodeIs,SqlValue.text id))).toList ++
  (filter.afterMs.map (fun after => (Condition.notBefore,SqlValue.integer after.toInt64))).toList ++
  (filter.beforeMs.map (fun before => (Condition.notAfter,SqlValue.integer before.toInt64))).toList

theorem pushed_condition {α : Type} (field : Option α) (conditions : List Condition) (condition : Condition)
    (value : α → SqlValue) : (if field.isSome then conditions ++ [condition] else conditions) =
      conditions ++ ((field.map (fun x => (condition,value x))).toList).map Prod.fst := by
  cases field with
  | none => exact (List.append_nil conditions).symm
  | some x => rfl

theorem pushed_value {α : Type} (field : Option α) (values : List SqlValue) (condition : Condition) (value : α → SqlValue) :
    pushed values (field.map value) =
      values ++ ((field.map (fun x => (condition,value x))).toList).map Prod.snd := by
  cases field with
  | none => exact (List.append_nil values).symm
  | some x => rfl

/-- Both passes go through the same fields in the same order. -/
theorem conditions_eq (filter : EpisodicFilter) : conditions filter = (tests filter).map Prod.fst := by
  simp only [conditions,tests,List.map_append]
  rw [← pushed_condition,← pushed_condition,← pushed_condition,
    ← List.nil_append (List.map Prod.fst (Option.map _ filter.namespaceName).toList),← pushed_condition]

theorem paramValues_eq (filter : EpisodicFilter) : paramValues filter =
    (tests filter).map Prod.snd ++ (filter.limit.map (fun limit => SqlValue.integer limit.toInt64)).toList := by
  simp only [paramValues,tests,List.map_append]
  rw [pushed_value filter.namespaceName [] .namespaceIs,pushed_value filter.episodeId _ .episodeIs,
    pushed_value filter.afterMs _ .notBefore,pushed_value filter.beforeMs _ .notAfter,List.nil_append]
  cases filter.limit with
  | none => exact (List.append_nil _).symm
  | some limit => rfl

theorem bindParams_eq (filter : EpisodicFilter) :
    bindParams (conditions filter) filter.limit.isSome (paramValues filter) =
      some (tests filter,filter.limit.map UInt64.toInt64) := by
  rw [conditions_eq,paramValues_eq,bindParams]
  have zipped (extra : List SqlValue) :
      ((tests filter).map Prod.fst).zip ((tests filter).map Prod.snd ++ extra) = tests filter := by
    rw [← List.append_nil ((tests filter).map Prod.fst),List.zip_append (by simp),List.zip_nil_left,List.append_nil]
    exact (List.zip_of_prod rfl rfl).symm
  cases filter.limit with
  | none =>
    rw [if_neg (by simp),if_neg (by simp),zipped]
    rfl
  | some limit =>
    have sizes : ((tests filter).map Prod.fst).length = ((tests filter).map Prod.snd).length := by simp
    have last : ((tests filter).map Prod.snd ++ [SqlValue.integer limit.toInt64])[((tests filter).map Prod.fst).length]? =
        some (.integer limit.toInt64) := by
      rw [sizes,List.getElem?_concat_length]
    rw [if_neg (by simp),if_pos Option.isSome_some,zipped]
    change (limitValue ((tests filter).map Prod.snd ++ [SqlValue.integer limit.toInt64])[_]?).map _ = _
    rw [last]
    rfl

theorem tests_all (filter : EpisodicFilter) (row : EpisodicRow) :
    (tests filter).all (Condition.holds row) = episodicMatches filter row := by
  simp only [tests,List.all_append,episodicMatches]
  refine congrArg₂ _ (congrArg₂ _ (congrArg₂ _ ?_ ?_) ?_) ?_
  · cases filter.namespaceName <;> simp [Condition.holds]
  · cases filter.episodeId <;> simp [Condition.holds]
  · cases filter.afterMs <;> simp [Condition.holds]
  · cases filter.beforeMs <;> simp [Condition.holds]

/-- A bound that compares otherwise with a timestamp as a signed number compares with all timestamps of its
kind alike. -/
theorem signed_le_kinds (m n k : UInt64) (kind : decide (2 ^ 63 ≤ n.toNat) = decide (2 ^ 63 ≤ k.toNat))
    (differs : ¬(m.toInt64 ≤ n.toInt64 ↔ m ≤ n) ∨ ¬(n.toInt64 ≤ m.toInt64 ↔ n ≤ m)) :
    (m.toInt64 ≤ k.toInt64 ↔ m.toInt64 ≤ n.toInt64) ∧ (m ≤ k ↔ m ≤ n) ∧
      (k.toInt64 ≤ m.toInt64 ↔ n.toInt64 ≤ m.toInt64) ∧ (k ≤ m ↔ n ≤ m) := by
  have same := decide_eq_decide.mp kind
  have first := m.toNat_lt
  have second := n.toNat_lt
  have third := k.toNat_lt
  simp only [signed_le,UInt64.le_iff_toNat_le] at differs ⊢
  rcases differs with differs | differs
  · split at differs <;> split at differs <;> split <;> omega
  · split at differs <;> split at differs <;> split <;> omega

theorem after_kinds (after : Option UInt64) (n k : UInt64) (kind : decide (2 ^ 63 ≤ n.toNat) = decide (2 ^ 63 ≤ k.toNat))
    (differs : after.all (fun m => m.toInt64 ≤ n.toInt64) ≠ after.all (fun m => m ≤ n)) :
    after.all (fun m => m.toInt64 ≤ k.toInt64) = after.all (fun m => m.toInt64 ≤ n.toInt64) ∧
      after.all (fun m => m ≤ k) = after.all (fun m => m ≤ n) := by
  cases after with
  | none => exact absurd rfl differs
  | some m =>
    obtain ⟨signed,unsigned,_⟩ := signed_le_kinds m n k kind (.inl (fun same => differs (decide_eq_decide.mpr same)))
    exact ⟨decide_eq_decide.mpr signed,decide_eq_decide.mpr unsigned⟩

theorem before_kinds (before : Option UInt64) (n k : UInt64) (kind : decide (2 ^ 63 ≤ n.toNat) = decide (2 ^ 63 ≤ k.toNat))
    (differs : before.all (fun m => n.toInt64 ≤ m.toInt64) ≠ before.all (fun m => n ≤ m)) :
    before.all (fun m => k.toInt64 ≤ m.toInt64) = before.all (fun m => n.toInt64 ≤ m.toInt64) ∧
      before.all (fun m => k ≤ m) = before.all (fun m => n ≤ m) := by
  cases before with
  | none => exact absurd rfl differs
  | some m =>
    obtain ⟨_,_,signed,unsigned⟩ := signed_le_kinds m n k kind (.inr (fun same => differs (decide_eq_decide.mpr same)))
    exact ⟨decide_eq_decide.mpr signed,decide_eq_decide.mpr unsigned⟩

/-- Bounds that let a timestamp through as signed numbers only let none of its kind through. -/
theorem within_extra (filter : EpisodicFilter) (n k : UInt64) (kind : decide (2 ^ 63 ≤ n.toNat) = decide (2 ^ 63 ≤ k.toNat))
    (inside : signedWithin filter n = true) (outside : unsignedWithin filter n = false) :
    unsignedWithin filter k = false := by
  obtain ⟨above,below⟩ := Bool.and_eq_true_iff.mp inside
  rcases Bool.and_eq_false_iff.mp outside with early | lateness
  · have turned := after_kinds filter.afterMs n k kind (by rw [above,early]; exact Bool.noConfusion)
    exact Bool.and_eq_false_iff.mpr (.inl (turned.2.trans early))
  · have turned := before_kinds filter.beforeMs n k kind (by rw [below,lateness]; exact Bool.noConfusion)
    exact Bool.and_eq_false_iff.mpr (.inr (turned.2.trans lateness))

theorem within_missed (filter : EpisodicFilter) (n k : UInt64) (kind : decide (2 ^ 63 ≤ n.toNat) = decide (2 ^ 63 ≤ k.toNat))
    (inside : unsignedWithin filter n = true) (outside : signedWithin filter n = false) : signedWithin filter k = false := by
  obtain ⟨above,below⟩ := Bool.and_eq_true_iff.mp inside
  rcases Bool.and_eq_false_iff.mp outside with early | lateness
  · have turned := after_kinds filter.afterMs n k kind (by rw [above,early]; exact Bool.noConfusion)
    exact Bool.and_eq_false_iff.mpr (.inl (turned.1.trans early))
  · have turned := before_kinds filter.beforeMs n k kind (by rw [below,lateness]; exact Bool.noConfusion)
    exact Bool.and_eq_false_iff.mpr (.inr (turned.1.trans lateness))

theorem late_iff (entry : EpisodicEntry) : late entry = true ↔ 2 ^ 63 ≤ entry.timestampMs.toNat := decide_eq_true_iff

theorem not_late_iff (entry : EpisodicEntry) : late entry = false ↔ entry.timestampMs.toNat < 2 ^ 63 := by
  rw [late,decide_eq_false_iff_not,Nat.not_le]

/-- The statement's order puts the late timestamps first. -/
theorem turned (filter : EpisodicFilter) :
    Turned late (entrySelected filter) (entryMatches filter)
      (fun a b => a.timestampMs.toInt64 ≤ b.timestampMs.toInt64) (fun a b => a.timestampMs ≤ b.timestampMs) where
  front a b early later := by
    rw [not_late_iff] at early
    rw [late_iff] at later
    have bound := b.timestampMs.toNat_lt
    rw [signed_le]
    split <;> split <;> omega
  back a b later early := by
    rw [not_late_iff] at early
    rw [late_iff] at later
    rw [UInt64.le_iff_toNat_le]
    omega
  last a b early later := by
    rw [not_late_iff] at early
    rw [late_iff] at later
    rw [UInt64.le_iff_toNat_le]
    omega
  alike a b kind := by
    have same := decide_eq_decide.mp kind
    have bound := a.timestampMs.toNat_lt
    have bound' := b.timestampMs.toNat_lt
    rw [signed_le,UInt64.le_iff_toNat_le]
    split <;> split <;> omega
  extra a b kind chosen unwanted := by
    obtain ⟨here,inside⟩ := Bool.and_eq_true_iff.mp chosen
    rw [entryMatches,here,Bool.true_and] at unwanted
    rw [entryMatches,within_extra filter _ _ kind inside unwanted,Bool.and_false]
  missed a b kind wanted unchosen := by
    obtain ⟨here,inside⟩ := Bool.and_eq_true_iff.mp wanted
    rw [entrySelected,here,Bool.true_and] at unchosen
    rw [entrySelected,within_missed filter _ _ kind inside unchosen,Bool.and_false]

theorem selected_row (filter : EpisodicFilter) (row : EpisodicRow) :
    entrySelected filter (rowToEpisodicEntry row) = episodicMatches filter row := by
  simp only [entrySelected,within,signedWithin,rowToEpisodicEntry,Int64.toInt64_toUInt64,episodicMatches,Bool.and_assoc]
  rfl

/-- A limit that no signed integer holds is none, and the table has fewer rows. -/
theorem limitedBy_eq (limit : Option UInt64) (rows : List EpisodicRow) (bounded : rows.length < 2 ^ 63) :
    limitedBy (limit.map UInt64.toInt64) rows = cut (limit.map UInt64.toNat) rows := by
  cases limit with
  | none => rfl
  | some n =>
    change limited n.toInt64 rows = rows.take n.toNat
    have value := signed_value n
    unfold limited
    by_cases small : n.toNat < 2 ^ 63
    · rw [if_pos small] at value
      have positive : ¬n.toInt64 < 0 := by
        rw [Int64.lt_iff_toInt_lt,value]
        exact Int.not_lt.mpr (Int.natCast_nonneg _)
      rw [if_neg positive,value,Int.toNat_natCast]
    · rw [if_neg small] at value
      have bound := n.toNat_lt
      have negative : n.toInt64 < 0 := by
        rw [Int64.lt_iff_toInt_lt,value]
        change (n.toNat : Int) - 2 ^ 64 < 0
        omega
      rw [if_pos negative,List.take_of_length_le (by omega)]

theorem cut_map {α β : Type} (f : α → β) (limit : Option Nat) (l : List α) : (cut limit l).map f = cut limit (l.map f) := by
  cases limit with
  | none => rfl
  | some count => exact List.map_take

/-- What the search returns is an answer in the order of signed numbers. -/
theorem search_sound (table : EpisodicTable) (filter : EpisodicFilter) (outcome : Except MemoryError (List EpisodicEntry))
    (returned : SearchEpisodic table filter outcome) : ∃ found, outcome = .ok found ∧
      Answer (fun a b => a.timestampMs.toInt64 ≤ b.timestampMs.toInt64) (entrySelected filter)
        (filter.limit.map UInt64.toNat) (entries table) found := by
  rw [SearchEpisodic,bindParams_eq] at returned
  obtain ⟨ordered,perm,sorted,same⟩ := returned
  have kept : table.rows.filter (fun row => (tests filter).all (Condition.holds row)) =
      table.rows.filter (entrySelected filter ∘ rowToEpisodicEntry) :=
    List.filter_congr (fun row _ => (tests_all filter row).trans (selected_row filter row).symm)
  rw [kept] at perm
  have short : ordered.length < 2 ^ 63 := by
    rw [perm.length_eq]
    exact Nat.lt_of_le_of_lt (List.length_filter_le _ _) table.bounded
  refine ⟨_,same,ordered.map rowToEpisodicEntry,?_,?_,?_⟩
  · rw [entries,List.filter_map]
    exact perm.map rowToEpisodicEntry
  · refine List.pairwise_map.mpr (sorted.imp (fun before => ?_))
    simpa only [rowToEpisodicEntry,Int64.toInt64_toUInt64] using before
  · rw [limitedBy_eq _ _ short,cut_map]

theorem rows_sorted (rows : List EpisodicRow) :
    (rows.insertionSort (fun a b => a.timestampMs ≤ b.timestampMs)).Pairwise (fun a b => a.timestampMs ≤ b.timestampMs) :=
  Lib.Ranking.pairwise_insertionSort (fun a b : EpisodicRow => a.timestampMs ≤ b.timestampMs) (fun _ => True)
    ⟨fun _ _ _ _ => Int64.le_total _ _,fun _ _ _ _ _ _ first second => Int64.le_trans first second⟩ rows (fun _ _ => trivial)

theorem entries_sorted (found : List EpisodicEntry) :
    ∃ planned : List EpisodicEntry, planned.Perm found ∧ planned.Pairwise (fun a b => a.timestampMs ≤ b.timestampMs) :=
  ⟨found.insertionSort (fun a b => a.timestampMs ≤ b.timestampMs),List.perm_insertionSort _ _,
    Lib.Ranking.pairwise_insertionSort (fun a b : EpisodicEntry => a.timestampMs ≤ b.timestampMs) (fun _ => True)
      ⟨fun _ _ _ _ => UInt64.le_total _ _,fun _ _ _ _ _ _ first second => UInt64.le_trans first second⟩ found
      (fun _ _ => trivial)⟩

theorem search_returns (table : EpisodicTable) (filter : EpisodicFilter) :
    ∃ outcome, SearchEpisodic table filter outcome := by
  let ordered := (table.rows.filter (fun row => (tests filter).all (Condition.holds row))).insertionSort
    (fun a b => a.timestampMs ≤ b.timestampMs)
  refine ⟨.ok ((limitedBy (filter.limit.map UInt64.toInt64) ordered).map rowToEpisodicEntry),?_⟩
  rw [SearchEpisodic,bindParams_eq]
  exact ⟨ordered,List.perm_insertionSort _ _,rows_sorted _,rfl⟩

/-- The filter is met exactly if no more than no entries are asked for, or what the statement selects and
what matches agree as far as the limit goes. -/
theorem meetsFilter_iff (table : EpisodicTable) (filter : EpisodicFilter) :
    MeetsFilter table filter ↔ filter.limit.map UInt64.toNat = some 0 ∨
      Agrees late (entrySelected filter) (entryMatches filter) (filter.limit.map UInt64.toNat) (entries table) := by
  have same : MeetsFilter table filter ↔
      ∀ found, SearchEpisodic table filter (.ok found) → Intended table filter found := by
    constructor
    · rintro ⟨_,all⟩ found returned
      obtain ⟨other,equal,intended⟩ := all _ returned
      cases equal
      exact intended
    · refine fun all => ⟨search_returns table filter,fun outcome returned => ?_⟩
      obtain ⟨found,rfl,_⟩ := search_sound table filter outcome returned
      exact ⟨found,rfl,all found returned⟩
  rw [same]
  refine answers_iff late _ _ _ _ (turned filter) _ _ entries_sorted (fun found => SearchEpisodic table filter (.ok found))
    (fun found returned => ?_) ?_
  · obtain ⟨other,equal,answer⟩ := search_sound table filter _ returned
    cases equal
    exact answer
  · obtain ⟨outcome,returned⟩ := search_returns table filter
    obtain ⟨found,rfl,_⟩ := search_sound table filter outcome returned
    exact ⟨found,returned⟩

/-- Five milliseconds after the epoch, and 2 ^ 63. -/
def farApart : EpisodicTable :=
  ⟨[⟨"e1","ep","n","user","a",5,0⟩,⟨"e2","ep","n","user","b",-9223372036854775808,1⟩],by decide⟩

def sinceEpoch : EpisodicFilter := ⟨none,none,some 0,none,none⟩

/-- After the epoch are both entries, and the search finds one. -/
theorem late_entry_missed :
    SearchEpisodic farApart sinceEpoch (.ok [⟨"e1","ep","n","user","a",5,0⟩]) ∧ ¬MeetsFilter farApart sinceEpoch := by
  have returned : SearchEpisodic farApart sinceEpoch (.ok [⟨"e1","ep","n","user","a",5,0⟩]) :=
    ⟨[⟨"e1","ep","n","user","a",5,0⟩],List.Perm.of_eq (by decide),List.pairwise_singleton _ _,by decide⟩
  refine ⟨returned,fun meets => ?_⟩
  obtain ⟨found,same,ordered,perm,_,cutting⟩ := meets.2 _ returned
  have two : ((entries farApart).filter (entryMatches sinceEpoch)).length = 2 := by decide
  have one : found.length = 1 := by
    cases same
    rfl
  have whole : found.length = 2 := by
    rw [cutting]
    exact perm.length_eq.trans two
  omega

end ClawKernel.Memory.Episodic
