import ClawKernel.Lib.Ranking
import ClawKernel.Memory.Secure

/-! The reads of `SecureMemoryStore`. Retrieval and episodic search depend on the
namespace's own rows only; the three searches cut the inner store's ranking to
`top_k` before they select the namespace.
-/
namespace ClawKernel.Memory.Reads
open Lib.Ranking Lib.Upsert Secure
open Sqlite hiding store delete clearNamespace

inductive Read (F : Type) where
  | retrieve (id : String)
  | searchEpisodic (filter : EpisodicFilter)
  | semanticSearch (query : List F) (topK : UInt64)
  | keywordSearch (query : String) (topK : UInt64)
  | hybridSearch (query : String) (queryEmbedding : List F) (topK : UInt64) (alpha : F)

inductive Answer (F : Type) where
  | item (found : Option (MemoryItem F))
  | entries (found : List EpisodicEntry)
  | items (found : Except MemoryError (List (MemoryItem F)))
  deriving DecidableEq

section Wrapper
variable {F : Type} (f32 : Arithmetic F) (serde : Serde F) (fullText : FullText)
variable (config : MemorySecurityConfig) (owner : String)

def mine (item : MemoryItem F) : Bool :=
  item.namespaceName = owner

def onlyMine (items : List (MemoryItem F)) : List (MemoryItem F) :=
  if config.namespaceIsolation then items.filter (mine owner) else items

def retrieve (s : Store F) (id : String) : Option (MemoryItem F) :=
  if config.namespaceIsolation then (Sqlite.retrieve serde s id).filter (mine owner)
  else Sqlite.retrieve serde s id

def searchEpisodic (s : Store F) (filter : EpisodicFilter) : List EpisodicEntry :=
  if config.namespaceIsolation then Sqlite.searchEpisodic s { filter with namespaceName := some owner }
  else Sqlite.searchEpisodic s filter

def semanticSearch (s : Store F) (query : List F) (topK : UInt64) : List (MemoryItem F) :=
  onlyMine config owner (Sqlite.semanticSearch f32 serde s query topK)

def keywordSearch (s : Store F) (query : String) (topK : UInt64) : Except MemoryError (List (MemoryItem F)) :=
  (Sqlite.keywordSearch serde fullText s query topK).map (onlyMine config owner)

def hybridSearch (s : Store F) (query : String) (queryEmbedding : List F) (topK : UInt64) (alpha : F) :
    Except MemoryError (List (MemoryItem F)) :=
  (Sqlite.hybridSearch f32 serde fullText s query queryEmbedding topK alpha).map (onlyMine config owner)

def read (s : Store F) : Read F → Answer F
  | .retrieve id => .item (retrieve serde config owner s id)
  | .searchEpisodic filter => .entries (searchEpisodic config owner s filter)
  | .semanticSearch query topK => .items (.ok (semanticSearch f32 serde config owner s query topK))
  | .keywordSearch query topK => .items (keywordSearch serde fullText config owner s query topK)
  | .hybridSearch query queryEmbedding topK alpha =>
    .items (hybridSearch f32 serde fullText config owner s query queryEmbedding topK alpha)

def ownItems (s : Store F) : List (MemoryItem F) :=
  (s.rows.map (rowToMemoryItem serde)).filter (mine owner)

def ownEpisodes (s : Store F) : List EpisodicRow :=
  s.episodic.filter (fun row => row.namespaceName = owner)

def SameOwn (s t : Store F) : Prop :=
  ownItems serde owner s = ownItems serde owner t ∧ ownEpisodes owner s = ownEpisodes owner t

instance sameOwnDecidable [DecidableEq F] (s t : Store F) : Decidable (SameOwn serde owner s t) :=
  inferInstanceAs (Decidable (_ ∧ _))

private theorem find_own (rows : List (Row F)) (distinct : (rows.map Row.id).Nodup) (id : String) :
    ((rows.find? (fun row => row.id = id)).map (rowToMemoryItem serde)).filter (mine owner) =
      ((rows.map (rowToMemoryItem serde)).filter (mine owner)).find? (fun item => item.id = id) := by
  have unique : (((rows.map (rowToMemoryItem serde)).filter (mine owner)).map MemoryItem.id).Nodup := by
    refine List.Nodup.sublist (List.filter_sublist.map MemoryItem.id) ?_
    rw [List.map_map]
    exact distinct
  ext item
  rw [find_key_iff MemoryItem.id _ unique,List.mem_filter,List.mem_map,Option.filter_eq_some_iff,Option.map_eq_some_iff]
  constructor
  · rintro ⟨⟨row,found,rfl⟩,owned⟩
    obtain ⟨member,named⟩ := (find_key_iff Row.id rows distinct row id).mp found
    exact ⟨⟨⟨row,member,rfl⟩,owned⟩,named⟩
  · rintro ⟨⟨⟨row,member,rfl⟩,owned⟩,named⟩
    exact ⟨⟨row,(find_key_iff Row.id rows distinct row id).mpr ⟨member,named⟩,rfl⟩,owned⟩

theorem retrieve_own (isolated : config.namespaceIsolation = true) (s : Store F) (id : String) :
    retrieve serde config owner s id = (ownItems serde owner s).find? (fun item => item.id = id) := by
  simp only [retrieve,isolated,if_true]
  exact find_own serde owner s.rows s.unique id

theorem searchEpisodic_own (isolated : config.namespaceIsolation = true) (s t : Store F)
    (same : ownEpisodes owner s = ownEpisodes owner t) (filter : EpisodicFilter) :
    searchEpisodic config owner s filter = searchEpisodic config owner t filter := by
  have restricted : ∀ u : Store F,
      u.episodic.filter (episodicMatches { filter with namespaceName := some owner }) =
        (ownEpisodes owner u).filter (episodicMatches { filter with namespaceName := some owner }) := by
    intro u
    rw [ownEpisodes,List.filter_filter]
    congr 1
    funext row
    by_cases own : row.namespaceName = owner <;> simp [episodicMatches,own]
  simp only [searchEpisodic,isolated,if_true,Sqlite.searchEpisodic]
  rw [restricted s,restricted t,same]

def scoredItems (query : List F) (items : List (MemoryItem F)) : List (F × MemoryItem F) :=
  (items.filterMap (fun item =>
    item.embedding.map (fun embedding => (cosineSimilarity f32 query embedding,item)))).filter
    (fun entry => !f32.isNaN entry.1)

private theorem scored_eq (query : List F) (rows : List (Row F)) :
    scored f32 serde query rows = scoredItems f32 query (rows.map (rowToMemoryItem serde)) := by
  unfold scored scoredItems
  congr 1
  induction rows with
  | nil => rfl
  | cons row rest ih =>
    cases text : row.embedding with
    | none =>
      have unread : (rowToMemoryItem serde row).embedding = none := by simp [rowToMemoryItem,text]
      rw [List.filter_cons_of_neg (by simp [text]),List.map_cons,
        List.filterMap_cons_none (by simp [unread]),ih]
    | some json =>
      rw [List.filter_cons_of_pos (by simp [text]),List.map_cons,List.map_cons,List.filterMap_cons,
        List.filterMap_cons,ih]

private theorem scoredItems_own (query : List F) (items : List (MemoryItem F)) :
    (scoredItems f32 query items).filter (fun entry => mine owner entry.2) =
      scoredItems f32 query (items.filter (mine owner)) := by
  unfold scoredItems
  rw [List.filter_comm]
  congr 1
  induction items with
  | nil => rfl
  | cons item rest ih =>
    cases values : item.embedding with
    | none => by_cases owned : mine owner item = true <;> simp [values,owned,ih]
    | some embedding => by_cases owned : mine owner item = true <;> simp [values,owned,ih]

/-- Scores are compared by a total preorder as far as they are numbers. -/
def ScoreOrder : Prop :=
  TotalOn (fun x y => (f32.partialCmp y x).getD .lt ≠ .gt) (fun x => f32.isNaN x = false)

def bestOf (query : List F) (items : List (MemoryItem F)) : List (F × MemoryItem F) :=
  (scoredItems f32 query items).insertionSort (fun a b => bySimilarity f32 a b = true)

theorem ranked_own (order : ScoreOrder f32) (query : List F) (s : Store F) :
    (ranked f32 serde query s.rows).filter (fun entry => mine owner entry.2) =
      bestOf f32 query (ownItems serde owner s) := by
  have entries : TotalOn (fun a b : F × MemoryItem F => bySimilarity f32 a b = true)
      (fun entry => f32.isNaN entry.1 = false) :=
    ⟨fun a b => by simpa [bySimilarity] using order.total a.1 b.1,
      fun a b c => by simpa [bySimilarity] using order.trans a.1 b.1 c.1⟩
  have numbers : ∀ entry ∈ scored f32 serde query s.rows, f32.isNaN entry.1 = false := by
    intro entry member
    simpa using (List.mem_filter.mp member).2
  rw [ranked,filter_insertionSort _ _ entries _ _ numbers,scored_eq,scoredItems_own]
  rfl

def limitCount (n : Int64) (available : Nat) : Nat :=
  if n < 0 then available else n.toInt.toNat

private theorem limited_eq_take {α : Type} (n : Int64) (rows : List α) :
    limited n rows = rows.take (limitCount n rows.length) := by
  unfold limited limitCount
  split
  · rw [List.take_length]
  · rfl

/-- The cut of a search takes no own item's place for a foreign one; the fused
search has no foreign candidate at all. -/
def OwnFirst (s : Store F) : Read F → Prop
  | .retrieve _ => True
  | .searchEpisodic _ => True
  | .semanticSearch query topK =>
    Uncrowded (fun entry => mine owner entry.2) topK.toNat (ranked f32 serde query s.rows)
  | .keywordSearch query topK => ∀ items ∈ (matched serde fullText s query).toOption,
      Uncrowded (mine owner) (limitCount topK.toInt64 items.length) items
  | .hybridSearch query queryEmbedding topK _ =>
    (∀ entry ∈ (ranked f32 serde queryEmbedding s.rows).take (fetchK topK).toNat, mine owner entry.2 = true) ∧
    ∀ items ∈ (matched serde fullText s query).toOption,
      ∀ item ∈ items.take (limitCount (fetchK topK).toInt64 items.length), mine owner item = true

def MatchedAlike (s t : Store F) : Read F → Prop
  | .keywordSearch query _ => (matched serde fullText s query).map (List.filter (mine owner)) =
      (matched serde fullText t query).map (List.filter (mine owner))
  | .hybridSearch query _ _ _ => (matched serde fullText s query).map (List.filter (mine owner)) =
      (matched serde fullText t query).map (List.filter (mine owner))
  | _ => True

theorem semanticSearch_best_iff (isolated : config.namespaceIsolation = true) (order : ScoreOrder f32)
    (s : Store F) (query : List F) (topK : UInt64) :
    semanticSearch f32 serde config owner s query topK =
        ((bestOf f32 query (ownItems serde owner s)).take topK.toNat).map Prod.snd ↔
      Uncrowded (fun entry => mine owner entry.2) topK.toNat (ranked f32 serde query s.rows) := by
  have selected : semanticSearch f32 serde config owner s query topK =
      (((ranked f32 serde query s.rows).take topK.toNat).filter (fun entry => mine owner entry.2)).map Prod.snd := by
    simp only [semanticSearch,onlyMine,isolated,if_true,Sqlite.semanticSearch,List.filter_map]
    rfl
  rw [selected,← ranked_own f32 serde owner order]
  constructor
  · intro same
    by_contra crowded
    have fewer := filter_take_length_of_crowded _ _ _ crowded
    have sizes := congrArg List.length same
    rw [List.length_map,List.length_map] at sizes
    omega
  · intro uncrowded
    rw [filter_take_of_uncrowded _ _ _ uncrowded]

private theorem limited_filter_eq {α : Type} (n : Int64) (p : α → Bool) (rows : List α) :
    limited n (rows.filter p) = (rows.filter p).take (limitCount n rows.length) := by
  unfold limited limitCount
  split
  · rw [List.take_of_length_le (List.length_filter_le p rows)]
  · rfl

theorem keywordSearch_best_iff (isolated : config.namespaceIsolation = true) (s : Store F) (query : String)
    (topK : UInt64) :
    keywordSearch serde fullText config owner s query topK =
        ((matched serde fullText s query).map (List.filter (mine owner))).map (limited topK.toInt64) ↔
      OwnFirst f32 serde fullText owner s (.keywordSearch query topK) := by
  simp only [keywordSearch,Sqlite.keywordSearch,OwnFirst]
  cases found : matched serde fullText s query with
  | error error => simp [Except.map,Except.toOption]
  | ok items =>
    simp only [Except.map,onlyMine,isolated,if_true,limited_filter_eq,limited_eq_take _ items,Except.ok.injEq,
      Except.toOption,Option.mem_some_iff,forall_eq']
    constructor
    · intro same
      by_contra crowded
      have fewer := filter_take_length_of_crowded _ _ _ crowded
      rw [same] at fewer
      omega
    · intro uncrowded
      rw [filter_take_of_uncrowded _ _ _ uncrowded]

theorem hybridSearch_own (order : ScoreOrder f32) (s : Store F) (query : String) (queryEmbedding : List F)
    (topK : UInt64) (alpha : F)
    (ownOnly : OwnFirst f32 serde fullText owner s (.hybridSearch query queryEmbedding topK alpha)) :
    Sqlite.hybridSearch f32 serde fullText s query queryEmbedding topK alpha =
      (((matched serde fullText s query).map (List.filter (mine owner))).map (limited (fetchK topK).toInt64)).map
        (fuse f32 alpha topK
          (((bestOf f32 queryEmbedding (ownItems serde owner s)).take (fetchK topK).toNat).map Prod.snd)) := by
  obtain ⟨semantic,keyword⟩ := ownOnly
  have best : Sqlite.semanticSearch f32 serde s queryEmbedding (fetchK topK) =
      ((bestOf f32 queryEmbedding (ownItems serde owner s)).take (fetchK topK).toNat).map Prod.snd := by
    have kept := filter_take_of_uncrowded (fun entry : F × MemoryItem F => mine owner entry.2) _ _ (.inl semantic)
    rw [ranked_own f32 serde owner order,List.filter_eq_self.mpr semantic] at kept
    rw [Sqlite.semanticSearch,kept]
  rw [Sqlite.hybridSearch,best,Sqlite.keywordSearch]
  cases found : matched serde fullText s query with
  | error error => rfl
  | ok items =>
    have own := keyword items (by simp [found,Except.toOption])
    have kept := filter_take_of_uncrowded (mine owner) _ items (.inl own)
    rw [List.filter_eq_self.mpr own,← limited_eq_take,← limited_filter_eq] at kept
    simp only [Except.map,kept]

/-- Two stores with the same own items in one order answer a read alike when neither
cut is crowded and, for the keyword and the hybrid search, the index ranks the own
matches alike; retrieval and episodic search need nothing. One search alone finds
the best of the own items exactly when its cut is not crowded. -/
theorem reads_isolated_when_own_first (isolated : config.namespaceIsolation = true) (order : ScoreOrder f32)
    (s t : Store F) (same : SameOwn serde owner s t) :
    (∀ request, MatchedAlike serde fullText owner s t request →
      OwnFirst f32 serde fullText owner s request → OwnFirst f32 serde fullText owner t request →
      read f32 serde fullText config owner s request = read f32 serde fullText config owner t request) ∧
    (∀ query topK, semanticSearch f32 serde config owner s query topK =
        ((bestOf f32 query (ownItems serde owner s)).take topK.toNat).map Prod.snd ↔
      OwnFirst f32 serde fullText owner s (.semanticSearch query topK)) ∧
    (∀ query topK, keywordSearch serde fullText config owner s query topK =
        ((matched serde fullText s query).map (List.filter (mine owner))).map (limited topK.toInt64) ↔
      OwnFirst f32 serde fullText owner s (.keywordSearch query topK)) := by
  obtain ⟨items,episodes⟩ := same
  refine ⟨?_,semanticSearch_best_iff f32 serde config owner isolated order s,
    keywordSearch_best_iff f32 serde fullText config owner isolated s⟩
  intro request alike firstS firstT
  cases request with
  | retrieve id => simp only [read,retrieve_own serde config owner isolated,items]
  | searchEpisodic filter => simp only [read,searchEpisodic_own config owner isolated s t episodes filter]
  | semanticSearch query topK =>
    have left := (semanticSearch_best_iff f32 serde config owner isolated order s query topK).mpr firstS
    have right := (semanticSearch_best_iff f32 serde config owner isolated order t query topK).mpr firstT
    simp only [read,left,right,items]
  | keywordSearch query topK =>
    have left := (keywordSearch_best_iff f32 serde fullText config owner isolated s query topK).mpr firstS
    have right := (keywordSearch_best_iff f32 serde fullText config owner isolated t query topK).mpr firstT
    have agree : (matched serde fullText s query).map (List.filter (mine owner)) =
      (matched serde fullText t query).map (List.filter (mine owner)) := alike
    simp only [read,left,right,agree]
  | hybridSearch query queryEmbedding topK alpha =>
    have left := hybridSearch_own f32 serde fullText owner order s query queryEmbedding topK alpha firstS
    have right := hybridSearch_own f32 serde fullText owner order t query queryEmbedding topK alpha firstT
    have agree : (matched serde fullText s query).map (List.filter (mine owner)) =
      (matched serde fullText t query).map (List.filter (mine owner)) := alike
    simp only [read,hybridSearch,left,right,agree,items]

end Wrapper

theorem wholeArithmetic_order : ScoreOrder wholeArithmetic := by
  constructor
  · intro a b _ _
    simp only [wholeArithmetic,Option.getD_some,ne_eq,compare_gt_iff_gt]
    omega
  · intro a b c _ _ _
    simp only [wholeArithmetic,Option.getD_some,ne_eq,compare_gt_iff_gt]
    omega

def aloneStore : Store Int :=
  Sqlite.store wholeSerde inMemory (note "1" "a" "mine" (some [1]))

def crowdedStore : Store Int :=
  Sqlite.store wholeSerde (Sqlite.store wholeSerde inMemory (note "2" "b" "theirs" (some [1])))
    (note "1" "a" "mine" (some [1]))

def noMatches : FullText := fun _ _ => .ok []

theorem reads_isolated_two_results :
    read wholeArithmetic wholeSerde noMatches safeMode "a" aloneStore (.semanticSearch [1] 2) =
      read wholeArithmetic wholeSerde noMatches safeMode "a" crowdedStore (.semanticSearch [1] 2) :=
  (reads_isolated_when_own_first wholeArithmetic wholeSerde noMatches safeMode "a" rfl wholeArithmetic_order
    aloneStore crowdedStore (by decide)).1 (.semanticSearch [1] 2) trivial
    (by unfold OwnFirst; decide) (by unfold OwnFirst; decide)

/-- The item of `b` takes the only place: `a` gets nothing instead of its own. -/
theorem foreign_item_crowds_out_own :
    SameOwn wholeSerde "a" aloneStore crowdedStore ∧
    read wholeArithmetic wholeSerde noMatches safeMode "a" aloneStore (.semanticSearch [1] 1) =
      .items (.ok [note "1" "a" "mine" (some [1])]) ∧
    read wholeArithmetic wholeSerde noMatches safeMode "a" crowdedStore (.semanticSearch [1] 1) =
      .items (.ok []) := by
  decide

end ClawKernel.Memory.Reads
