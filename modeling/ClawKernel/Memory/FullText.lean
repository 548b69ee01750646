import ClawKernel.Lib.Postings
import ClawKernel.Lib.Runs
import ClawKernel.Memory.Sqlite
import Mathlib.Data.List.Dedup

/-! Keyword search over the full-text index. FTS5 keeps the positions of tokens under
rowids: a text that is inserted sets those of its tokens, a deleted one takes them away.
The table follows the index as long as no row takes a rowid that still holds tokens of a
text that was replaced.
-/
namespace ClawKernel.Memory.FullText
open Lib.Postings Lib.Runs Sqlite

/-- The tokenizer, and the order of the ranks. -/
structure Fts5 (τ : Type) where
  tokenize : String → List τ
  order : List IndexCommand → List τ → List Nat → List Nat
  perm : ∀ commands phrase rowids, (order commands phrase rowids).Perm rowids

/-- A query is read up to the first NUL. -/
def cString (text : List Char) : List Char := text.takeWhile (fun c => c ≠ '\x00')

/-- The rest of a quoted phrase after the opening quote; `none` if it does not close at the end. -/
def unquote : List Char → Option (List Char)
  | [] => none
  | c :: rest =>
    if c = '"' then
      match rest with
      | [] => some []
      | d :: later => if d = '"' then (unquote later).map (List.cons '"') else none
    else (unquote rest).map (List.cons c)

def phraseText (query : String) : Option String :=
  match cString query.toList with
  | [] => none
  | c :: rest => if c = '"' then (unquote rest).map String.ofList else none

section Index
variable {τ : Type} [DecidableEq τ]

def applyCommand (tokenize : String → List τ) (index : Index Nat τ) : IndexCommand → Index Nat τ
  | .insert rowid content => write index rowid (tokenize content)
  | .delete rowid content => erase index rowid (tokenize content)

def replay (tokenize : String → List τ) (commands : List IndexCommand) : Index Nat τ :=
  commands.foldl (applyCommand tokenize) Index.empty

def commandRowid : IndexCommand → Nat
  | .insert rowid _ => rowid
  | .delete rowid _ => rowid

/-- `MATCH` with a quoted phrase. -/
def Fts5.fullText (fts5 : Fts5 τ) : FullText := fun commands query =>
  match phraseText query with
  | none => .error "unterminated string"
  | some text =>
    let phrase := fts5.tokenize text
    .ok (fts5.order commands phrase
      ((commands.map commandRowid).dedup.filter (fun rowid => holds (replay fts5.tokenize commands) rowid phrase)))

end Index

inductive Change (F : Type) where
  | store (item : MemoryItem F)
  | delete (id : String)
  | clearNamespace (name : String)

section Searches
variable {F τ : Type} [DecidableEq τ] (fts5 : Fts5 τ) (serde : Serde F)

def step (s : Store F) : Change F → Store F
  | .store item => Sqlite.store serde s item
  | .delete id => Sqlite.delete s id
  | .clearNamespace name => (Sqlite.clearNamespace s name).1

/-- The rowid of a new row holds no token that its content lacks. -/
def Clean (s : Store F) : Change F → Prop
  | .store item => ∀ token, replay fts5.tokenize s.fts (nextRowid s.rows) token ≠ [] → token ∈ fts5.tokenize item.content
  | _ => True

/-- A search finds the rows in whose content the query occurs, each once, cut to `top_k`. A query
with a NUL is refused. -/
def SearchFollows (s : Store F) : Prop :=
  ∀ query topK,
    (∃ message, keywordSearch serde fts5.fullText s query topK = .error (.storage message) ∧ '\x00' ∈ query.toList) ∨
    ∃ found : List (Row F), (found.map Row.id).Nodup ∧
      found.Perm (s.rows.filter (fun row => Occurs (fts5.tokenize query) (fts5.tokenize row.content))) ∧
      keywordSearch serde fts5.fullText s query topK = .ok (limited topK.toInt64 (found.map (rowToMemoryItem serde)))

end Searches

/-! Reading the query. -/

def doubled (query : List Char) : List Char := query.flatMap (fun c => if c = '"' then ['"','"'] else [c])

theorem unquote_plain (c : Char) (rest : List Char) (plain : c ≠ '"') :
    unquote (c :: rest) = (unquote rest).map (List.cons c) := by
  rw [unquote.eq_def]
  exact if_neg plain

theorem unquote_doubled (query : List Char) : unquote (doubled query ++ ['"']) = some query := by
  induction query with
  | nil => rfl
  | cons c rest ih =>
    by_cases quote : c = '"'
    · subst quote
      change (unquote (doubled rest ++ ['"'])).map (List.cons '"') = _
      rw [ih]
      rfl
    · have escaped : doubled (c :: rest) = c :: doubled rest := by simp [doubled,quote]
      rw [escaped,List.cons_append,unquote_plain c _ quote,ih]
      rfl

theorem unquote_open (query : List Char) : unquote (doubled query) = none := by
  induction query with
  | nil => rfl
  | cons c rest ih =>
    by_cases quote : c = '"'
    · subst quote
      change (unquote (doubled rest)).map (List.cons '"') = _
      rw [ih]
      rfl
    · have escaped : doubled (c :: rest) = c :: doubled rest := by simp [doubled,quote]
      rw [escaped,unquote_plain c _ quote,ih]
      rfl

theorem mem_doubled (query : List Char) : '\x00' ∈ doubled query ↔ '\x00' ∈ query := by
  unfold doubled
  rw [List.mem_flatMap]
  constructor
  · rintro ⟨c,member,inside⟩
    split at inside
    · simp at inside
    · rw [List.mem_singleton.mp inside]
      exact member
  · intro member
    exact ⟨'\x00',member,by simp⟩

theorem phraseText_safeQuery (query : String) :
    phraseText (safeQuery query) = if '\x00' ∈ query.toList then none else some query := by
  have plain (text : List Char) (fresh : '\x00' ∉ text) :
      ∀ c ∈ doubled text, decide (c ≠ '\x00') = true := by
    intro c member
    rw [decide_eq_true_eq]
    rintro rfl
    exact fresh ((mem_doubled text).mp member)
  have chars : (safeQuery query).toList = '"' :: doubled query.toList ++ ['"'] := by
    simp [safeQuery,doubled]
  unfold phraseText cString
  rw [chars]
  by_cases nul : '\x00' ∈ query.toList
  · obtain ⟨before,after,split,fresh⟩ := List.eq_append_cons_of_mem nul
    have parts : doubled query.toList = doubled before ++ '\x00' :: doubled after := by
      simp [split,doubled]
    have kept : ('"' :: (doubled before ++ '\x00' :: doubled after) ++ ['"']).takeWhile (fun c => c ≠ '\x00') =
        '"' :: doubled before := by
      rw [List.cons_append,List.append_assoc,List.takeWhile_cons_of_pos (by simp),
        List.takeWhile_append_of_pos (plain before fresh)]
      simp
    rw [if_pos nul,parts,kept]
    change (unquote (doubled before)).map String.ofList = none
    rw [unquote_open]
    rfl
  · have kept : ('"' :: doubled query.toList ++ ['"']).takeWhile (fun c => c ≠ '\x00') =
        '"' :: (doubled query.toList ++ ['"']) := by
      rw [List.cons_append,List.takeWhile_cons_of_pos (by simp),
        List.takeWhile_append_of_pos (plain query.toList nul)]
      simp
    rw [if_neg nul,kept]
    change (unquote (doubled query.toList ++ ['"'])).map String.ofList = some query
    rw [unquote_doubled,Option.map_some,String.ofList_toList]

/-! The index under a rowid depends on the commands to that rowid. -/

section Rowids
variable {τ : Type} [DecidableEq τ] (tokenize : String → List τ)

theorem applyCommand_other (index : Index Nat τ) (command : IndexCommand) (key : Nat) (apart : commandRowid command ≠ key) :
    applyCommand tokenize index command key = index key := by
  cases command with
  | insert rowid content => exact write_other index rowid key (tokenize content) (Ne.symm apart)
  | delete rowid content => exact erase_other index rowid key (tokenize content) (Ne.symm apart)

theorem replay_append (before after : List IndexCommand) :
    replay tokenize (before ++ after) = after.foldl (applyCommand tokenize) (replay tokenize before) :=
  List.foldl_append

theorem foldl_other (commands : List IndexCommand) (key : Nat) (apart : ∀ command ∈ commands, commandRowid command ≠ key)
    (index : Index Nat τ) : commands.foldl (applyCommand tokenize) index key = index key := by
  induction commands generalizing index with
  | nil => rfl
  | cons command rest ih =>
    rw [List.foldl_cons,ih (fun other member => apart other (List.mem_cons_of_mem command member)),
      applyCommand_other tokenize index command key (apart command List.mem_cons_self)]

theorem replay_known (commands : List IndexCommand) (key : Nat) (token : τ) (stands : replay tokenize commands key token ≠ []) :
    key ∈ commands.map commandRowid := by
  by_contra unknown
  have untouched : replay tokenize commands key = Index.empty key := by
    apply foldl_other
    rintro command member rfl
    exact unknown (List.mem_map_of_mem member)
  rw [untouched] at stands
  exact stands rfl

def commandTokens (command : IndexCommand) : List τ :=
  match command with
  | .insert _ content => tokenize content
  | .delete _ content => tokenize content

theorem applyCommand_absent (index : Index Nat τ) (command : IndexCommand) (key : Nat) (token : τ)
    (absent : token ∉ commandTokens tokenize command) : applyCommand tokenize index command key token = index key token := by
  cases command with
  | insert rowid content => exact if_neg (fun both => absent both.2)
  | delete rowid content => exact if_neg (fun both => absent both.2)

theorem replay_token (commands : List IndexCommand) (key : Nat) (token : τ) (stands : replay tokenize commands key token ≠ []) :
    token ∈ commands.flatMap (commandTokens tokenize) := by
  induction commands using List.reverseRecOn with
  | nil => exact absurd rfl stands
  | append_singleton before command ih =>
    rw [List.flatMap_append,List.mem_append]
    by_cases inside : token ∈ commandTokens tokenize command
    · exact .inr (List.mem_flatMap.mpr ⟨command,List.mem_singleton_self _,inside⟩)
    · rw [replay_append,List.foldl_cons,List.foldl_nil,applyCommand_absent tokenize _ command key token inside] at stands
      exact .inl (ih stands)

end Rowids

theorem le_foldl_max (numbers : List Nat) (start : Nat) :
    start ≤ numbers.foldl max start ∧ ∀ n ∈ numbers, n ≤ numbers.foldl max start := by
  induction numbers generalizing start with
  | nil => exact ⟨le_rfl,fun n member => absurd member List.not_mem_nil⟩
  | cons m rest ih =>
    obtain ⟨least,each⟩ := ih (max start m)
    refine ⟨le_trans (le_max_left start m) least,fun n member => ?_⟩
    rcases List.mem_cons.mp member with rfl | later
    · exact le_trans (le_max_right start n) least
    · exact each n later

theorem rowid_lt_next {F : Type} (rows : List (Row F)) (row : Row F) (member : row ∈ rows) :
    row.rowid < nextRowid rows :=
  Nat.lt_succ_of_le ((le_foldl_max _ 0).2 row.rowid (List.mem_map_of_mem member))

instance cleanDecidable {F τ : Type} [DecidableEq τ] (fts5 : Fts5 τ) (s : Store F) (change : Change F) :
    Decidable (Clean fts5 s change) :=
  match change with
  | .store item =>
    decidable_of_iff (∀ token ∈ s.fts.flatMap (commandTokens fts5.tokenize),
        replay fts5.tokenize s.fts (nextRowid s.rows) token ≠ [] → token ∈ fts5.tokenize item.content)
      ⟨fun known token stands => known token (replay_token fts5.tokenize s.fts _ token stands) stands,
        fun clean token _ => clean token⟩
  | .delete _ => .isTrue trivial
  | .clearNamespace _ => .isTrue trivial

/-! The invariant of clean runs. -/

section Follows
variable {F τ : Type} [DecidableEq τ] (fts5 : Fts5 τ) (serde : Serde F)

structure Follows (s : Store F) : Prop where
  rowids : (s.rows.map Row.rowid).Nodup
  texts : ∀ row ∈ s.rows, ∀ token, replay fts5.tokenize s.fts row.rowid token =
    positions (fts5.tokenize row.content) token

theorem follows_inMemory : Follows fts5 (inMemory (F := F)) where
  rowids := List.nodup_nil
  texts := fun _ member => absurd member List.not_mem_nil

theorem store_follows (s : Store F) (item : MemoryItem F) (follows : Follows fts5 s)
    (clean : Clean fts5 s (.store item)) : Follows fts5 (Sqlite.store serde s item) := by
  have kept : without s.rows item.id ⊆ s.rows := fun _ member => List.mem_of_mem_filter member
  have fresh (row : Row F) (member : row ∈ without s.rows item.id) : row.rowid ≠ nextRowid s.rows :=
    Nat.ne_of_lt (rowid_lt_next s.rows row (kept member))
  constructor
  · change ((without s.rows item.id ++ [toRow serde (nextRowid s.rows) item]).map Row.rowid).Nodup
    rw [List.map_append,List.nodup_append]
    refine ⟨follows.rowids.sublist (List.filter_sublist.map Row.rowid),List.nodup_singleton _,?_⟩
    intro rowid old other new
    obtain ⟨row,member,rfl⟩ := List.mem_map.mp old
    rw [List.mem_singleton.mp new]
    exact fresh row member
  · intro row member token
    change replay fts5.tokenize (s.fts ++ [.insert (nextRowid s.rows) item.content]) row.rowid token = _
    rw [replay_append]
    change write _ (nextRowid s.rows) (fts5.tokenize item.content) row.rowid token = _
    cases List.mem_append.mp member with
    | inl old =>
      rw [write_other _ _ _ _ (fresh row old)]
      exact follows.texts row (kept old) token
    | inr new =>
      rw [List.mem_singleton.mp new]
      exact write_follows _ _ _ clean token

theorem deleteWhere_follows (s : Store F) (gone : Row F → Bool) (follows : Follows fts5 s) :
    Follows fts5 (deleteWhere s gone) := by
  refine ⟨follows.rowids.sublist (List.filter_sublist.map Row.rowid),?_⟩
  intro row member token
  obtain ⟨old,stays⟩ := List.mem_filter.mp member
  change replay fts5.tokenize (s.fts ++ (s.rows.filter gone).map (fun row => .delete row.rowid row.content)) _ _ = _
  rw [replay_append,foldl_other]
  · exact follows.texts row old token
  · intro command commanded same
    obtain ⟨other,removed,rfl⟩ := List.mem_map.mp commanded
    obtain ⟨inside,leaves⟩ := List.mem_filter.mp removed
    have equal : other = row := List.inj_on_of_nodup_map follows.rowids inside old same
    rw [equal] at leaves
    rw [leaves] at stays
    cases stays

theorem step_follows (s : Store F) (change : Change F) (follows : Follows fts5 s) (clean : Clean fts5 s change) :
    Follows fts5 (step serde s change) := by
  cases change with
  | store item => exact store_follows fts5 serde s item follows clean
  | delete id => exact deleteWhere_follows fts5 s _ follows
  | clearNamespace name => exact deleteWhere_follows fts5 s _ follows

/-- Rows picked by rowid, in the order of the rowids. -/
theorem picked_perm (rows : List (Row F)) (rowids : List Nat) (distinct : rowids.Nodup) :
    (rowids.flatMap (fun rowid => rows.filter (fun row => row.rowid = rowid))).Perm
      (rows.filter (fun row => row.rowid ∈ rowids)) := by
  induction rowids with
  | nil => simp
  | cons rowid rest ih =>
    obtain ⟨fresh,later⟩ := List.nodup_cons.mp distinct
    have first : (rows.filter (fun row => row.rowid ∈ rowid :: rest)).filter (fun row => row.rowid = rowid) =
        rows.filter (fun row => row.rowid = rowid) := by
      rw [List.filter_filter]
      apply List.filter_congr
      intro row _
      by_cases same : row.rowid = rowid <;> simp [same]
    have others : (rows.filter (fun row => row.rowid ∈ rowid :: rest)).filter (fun row => !decide (row.rowid = rowid)) =
        rows.filter (fun row => row.rowid ∈ rest) := by
      rw [List.filter_filter]
      apply List.filter_congr
      intro row _
      by_cases same : row.rowid = rowid
      · simp [same,fresh]
      · simp [same]
    have parts := List.filter_append_perm (fun row => decide (row.rowid = rowid))
      (rows.filter (fun row => row.rowid ∈ rowid :: rest))
    rw [first,others] at parts
    rw [List.flatMap_cons]
    exact ((ih later).append_left _).trans parts

theorem follows_search (s : Store F) (follows : Follows fts5 s) : SearchFollows fts5 serde s := by
  intro query topK
  unfold keywordSearch matched Fts5.fullText
  rw [phraseText_safeQuery]
  by_cases nul : '\x00' ∈ query.toList
  · rw [if_pos nul]
    exact .inl ⟨_,rfl,nul⟩
  · rw [if_neg nul]
    right
    let rowids := fts5.order s.fts (fts5.tokenize query) ((s.fts.map commandRowid).dedup.filter
      (fun rowid => holds (replay fts5.tokenize s.fts) rowid (fts5.tokenize query)))
    have same : rowids.Perm _ := fts5.perm s.fts (fts5.tokenize query) _
    have distinct : rowids.Nodup := same.nodup_iff.mpr ((List.nodup_dedup _).filter _)
    have hit (row : Row F) (member : row ∈ s.rows) :
        row.rowid ∈ rowids ↔ Occurs (fts5.tokenize query) (fts5.tokenize row.content) := by
      rw [same.mem_iff,List.mem_filter,List.mem_dedup,holds_iff (follows.texts row member),and_iff_right_iff_imp]
      intro occurs
      obtain ⟨token,stands⟩ := holds_positive _ _ _ ((holds_iff (follows.texts row member) _).mpr occurs)
      exact replay_known fts5.tokenize s.fts row.rowid token stands
    have found : (rowids.flatMap (fun rowid => s.rows.filter (fun row => row.rowid = rowid))).Perm
        (s.rows.filter (fun row => Occurs (fts5.tokenize query) (fts5.tokenize row.content))) := by
      have matching := picked_perm s.rows rowids distinct
      rw [List.filter_congr (fun row member => decide_eq_decide.mpr (hit row member))] at matching
      exact matching
    refine ⟨_,?_,found,?_⟩
    · exact (found.map Row.id).nodup_iff.mpr (s.unique.sublist (List.filter_sublist.map Row.id))
    · change Except.ok (limited topK.toInt64 (rowids.flatMap _)) = _
      rw [List.map_flatMap]

end Follows

/-- In a run whose stores are clean, every state's searches follow the table. -/
theorem search_follows_table {F τ : Type} [DecidableEq τ] (fts5 : Fts5 τ) (serde : Serde F) (changes : List (Change F))
    (clean : Along (step serde) (Clean fts5) inMemory changes) :
    Always (step serde) (SearchFollows fts5 serde) inMemory changes :=
  always_mono _ _ _ (follows_search fts5 serde) _ _
    (always_of_along _ _ _ (step_follows fts5 serde) _ _ (follows_inMemory fts5) clean)

/-! Words between blanks, in the order of their rowids. -/

def words : Fts5 (List Char) where
  tokenize text := text.toList.splitOn ' '
  order _ _ rowids := rowids
  perm _ _ rowids := .refl rowids

def kept : List (Change Int) :=
  [.store (note "a" "facts" "red car" none),.store (note "b" "facts" "red bus" none),
    .store (note "a" "facts" "blue car" none),.clearNamespace "plans",.delete "b",.delete "a",
    .store (note "c" "plans" "red car" none)]

theorem search_follows_kept : Always (step wholeSerde) (SearchFollows words wholeSerde) inMemory kept :=
  search_follows_table words wholeSerde kept (by decide +kernel)

def replaced : List (Change Int) :=
  [.store (note "a" "facts" "red car" none),.store (note "a" "facts" "blue car" none),.delete "a",
    .store (note "b" "facts" "bus" none)]

/-- The text that was replaced is found again, at a row that took its rowid. -/
theorem search_finds_replaced :
    keywordSearch wholeSerde words.fullText (run (step wholeSerde) inMemory replaced) "red" 10 =
      .ok [note "b" "facts" "bus" none] ∧
    ¬SearchFollows words wholeSerde (run (step wholeSerde) inMemory replaced) := by
  have search : keywordSearch wholeSerde words.fullText (run (step wholeSerde) inMemory replaced) "red" 10 =
      .ok [note "b" "facts" "bus" none] := by decide +kernel
  refine ⟨search,fun follows => ?_⟩
  rcases follows "red" 10 with ⟨message,failed,-⟩ | ⟨found,-,matching,result⟩
  · rw [search] at failed
    cases failed
  · have none : ((run (step wholeSerde) inMemory replaced).rows.filter
        (fun row => Occurs (words.tokenize "red") (words.tokenize row.content))) = [] := by decide +kernel
    rw [none] at matching
    rw [search,matching.eq_nil] at result
    cases result

end ClawKernel.Memory.FullText
