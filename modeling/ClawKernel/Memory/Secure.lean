import ClawKernel.Lib.Runs
import ClawKernel.Memory.Sqlite

/-! `SecureMemoryStore` over the SQLite store: namespace enforcement, the quota
check, and what its writes do to the rows of other namespaces.
-/
namespace ClawKernel.Memory.Secure
open Lib.Runs Sqlite

def u64Max : Nat := 2 ^ 64 - 1

structure MemorySecurityConfig where
  namespaceIsolation : Bool
  quotaBytes : Nat
  deriving DecidableEq, Repr

def safeMode : MemorySecurityConfig where
  namespaceIsolation := true
  quotaBytes := 50 * 1024 * 1024

def powerMode : MemorySecurityConfig where
  namespaceIsolation := false
  quotaBytes := u64Max

section Operations
variable {F : Type} (serde : Serde F) (config : MemorySecurityConfig) (owner : String)

def enforceNamespace (item : MemoryItem F) : MemoryItem F :=
  if config.namespaceIsolation then { item with namespaceName := owner } else item

def metadataOverhead : Nat := 128

def calculateEntrySize (content : String) (tags : List String) (embedding : Option (List F)) : Nat :=
  content.utf8ByteSize + (tags.map (fun tag => tag.utf8ByteSize + 2)).sum +
    (embedding.map (fun values => values.length * 4)).getD 0 + metadataOverhead

def estimateSize (item : MemoryItem F) : Nat :=
  calculateEntrySize item.content item.tags item.embedding +
    (item.id.utf8ByteSize + item.namespaceName.utf8ByteSize)

def saturatingAdd (a b : Nat) : Nat :=
  min (a + b) u64Max

/-- The check under the quota lock: usage of the target namespace and the
estimate of the item as it was handed in. -/
def withinQuota (s : Store F) (item : MemoryItem F) : Bool :=
  config.quotaBytes = u64Max ||
    saturatingAdd (namespaceUsage s (enforceNamespace config owner item).namespaceName) (estimateSize item) ≤
      config.quotaBytes

def store (s : Store F) (item : MemoryItem F) : Store F × Except MemoryError String :=
  if withinQuota config owner s item then
    (Sqlite.store serde s (enforceNamespace config owner item),.ok item.id)
  else
    let target := (enforceNamespace config owner item).namespaceName
    (s,.error (.quotaExceeded target (namespaceUsage s target) config.quotaBytes))

/-- The trait's default: one `store` after another, up to the first error. -/
def storeBatch (s : Store F) : List (MemoryItem F) → Store F × Except MemoryError (List String)
  | [] => (s,.ok [])
  | item :: rest =>
    match store serde config owner s item with
    | (after,.error error) => (after,.error error)
    | (after,.ok id) =>
      match storeBatch after rest with
      | (last,.error error) => (last,.error error)
      | (last,.ok ids) => (last,.ok (id :: ids))

def delete (s : Store F) (id : String) : Store F :=
  Sqlite.delete s id

def clearNamespace (s : Store F) (name : String) : Store F × Except MemoryError Nat :=
  if config.namespaceIsolation ∧ name ≠ owner then
    (s,.error (.accessDenied ("cannot clear namespace '" ++ name ++ "'; only '" ++ owner ++ "' is allowed")))
  else
    ((Sqlite.clearNamespace s name).1,.ok (Sqlite.clearNamespace s name).2)

/-- The calls a client of the wrapper can make. The reads answer from the store
and leave it as it is; what they answer is the subject of `Memory.Reads`. -/
inductive Operation (F : Type) where
  | store (item : MemoryItem F)
  | storeBatch (items : List (MemoryItem F))
  | delete (id : String)
  | clearNamespace (name : String)
  | retrieve (id : String)
  | searchEpisodic (filter : EpisodicFilter)
  | semanticSearch (query : List F) (topK : UInt64)
  | keywordSearch (query : String) (topK : UInt64)
  | hybridSearch (query : String) (queryEmbedding : List F) (topK : UInt64) (alpha : F)
  | namespaceUsage (name : String)

def step (s : Store F) : Operation F → Store F
  | .store item => (store serde config owner s item).1
  | .storeBatch items => (storeBatch serde config owner s items).1
  | .delete id => delete s id
  | .clearNamespace name => (clearNamespace config owner s name).1
  | _ => s

def foreign (s : Store F) : List (Row F) :=
  s.rows.filter (fun row => row.namespaceName ≠ owner)

def ForeignId (s : Store F) (id : String) : Prop :=
  ∃ row ∈ s.rows, row.namespaceName ≠ owner ∧ row.id = id

/-- No stored item carries the id of a row of another namespace. -/
def SparesBatch (s : Store F) : List (MemoryItem F) → Prop
  | [] => True
  | item :: rest => withinQuota config owner s item = true →
      ¬ForeignId owner s item.id ∧ SparesBatch (store serde config owner s item).1 rest

/-- The step addresses no id of another namespace's row: neither deletes it nor
stores an item the quota admits under it. -/
def Spares (s : Store F) : Operation F → Prop
  | .store item => SparesBatch serde config owner s [item]
  | .storeBatch items => SparesBatch serde config owner s items
  | .delete id => ¬ForeignId owner s id
  | _ => True

theorem store_foreign (isolated : config.namespaceIsolation = true) (s : Store F) (item : MemoryItem F)
    (admitted : withinQuota config owner s item = true) :
    foreign owner (store serde config owner s item).1 = (foreign owner s).filter (fun row => row.id ≠ item.id) := by
  have same : (enforceNamespace config owner item).id = item.id := by simp [enforceNamespace,isolated]
  have written : (toRow serde (nextRowid s.rows) (enforceNamespace config owner item)).namespaceName =
      owner := by simp [toRow,enforceNamespace,isolated]
  simp only [store,admitted,if_true,Sqlite.store,foreign,same,List.filter_append]
  rw [List.filter_cons_of_neg (by simp [written]),List.filter_nil,List.append_nil,without,List.filter_comm]

theorem delete_foreign (s : Store F) (id : String) :
    foreign owner (delete s id) = (foreign owner s).filter (fun row => row.id ≠ id) := by
  simp only [delete,Sqlite.delete,deleteWhere,foreign]
  rw [List.filter_comm]
  congr 1
  funext row
  simp

theorem clearNamespace_foreign (isolated : config.namespaceIsolation = true) (s : Store F) (name : String) :
    foreign owner (clearNamespace config owner s name).1 = foreign owner s := by
  unfold clearNamespace
  split
  · rfl
  · rename_i allowed
    have own : name = owner := by
      by_contra other
      exact allowed ⟨isolated,other⟩
    subst own
    simp only [Sqlite.clearNamespace,deleteWhere,foreign,List.filter_filter]
    congr 1
    funext row
    by_cases mine : row.namespaceName = name <;> simp [mine]

private theorem foreign_erased (s : Store F) (id : String) :
    (¬ForeignId owner s id → (foreign owner s).filter (fun row => row.id ≠ id) = foreign owner s) ∧
    (ForeignId owner s id →
      ((foreign owner s).filter (fun row => row.id ≠ id)).length < (foreign owner s).length) := by
  constructor
  · intro spared
    rw [List.filter_eq_self]
    intro row member
    obtain ⟨inside,other⟩ := List.mem_filter.mp member
    simp only [ne_eq,decide_eq_true_eq] at other ⊢
    exact fun same => spared ⟨row,inside,other,same⟩
  · rintro ⟨row,inside,other,same⟩
    have member : row ∈ foreign owner s := List.mem_filter.mpr ⟨inside,by simpa using other⟩
    exact List.length_filter_lt_length_iff_exists.mpr ⟨row,member,by simp [same]⟩

private theorem storeBatch_rejected (s : Store F) (item : MemoryItem F) (rest : List (MemoryItem F))
    (rejected : withinQuota config owner s item = false) :
    (storeBatch serde config owner s (item :: rest)).1 = s := by
  simp [storeBatch,store,rejected]

private theorem storeBatch_admitted (s : Store F) (item : MemoryItem F) (rest : List (MemoryItem F))
    (admitted : withinQuota config owner s item = true) :
    (storeBatch serde config owner s (item :: rest)).1 =
      (storeBatch serde config owner (store serde config owner s item).1 rest).1 := by
  simp only [storeBatch,store,admitted,if_true]
  split
  · rename_i last error after
    rw [after]
  · rename_i last ids after
    rw [after]

/-- A batch that spares the ids of others keeps their rows; one that does not
loses at least one of them. -/
theorem storeBatch_foreign (isolated : config.namespaceIsolation = true) (s : Store F)
    (items : List (MemoryItem F)) :
    (SparesBatch serde config owner s items →
      foreign owner (storeBatch serde config owner s items).1 = foreign owner s) ∧
    (¬SparesBatch serde config owner s items →
      (foreign owner (storeBatch serde config owner s items).1).length < (foreign owner s).length) := by
  induction items generalizing s with
  | nil => exact ⟨fun _ => rfl,fun missed => absurd trivial missed⟩
  | cons item rest ih =>
    cases check : withinQuota config owner s item with
    | false =>
      rw [storeBatch_rejected serde config owner s item rest check]
      exact ⟨fun _ => rfl,fun missed => absurd (fun admitted => by simp [check] at admitted) missed⟩
    | true =>
      rw [storeBatch_admitted serde config owner s item rest check]
      obtain ⟨kept,lost⟩ := ih (store serde config owner s item).1
      obtain ⟨untouched,erased⟩ := foreign_erased owner s item.id
      rw [← store_foreign serde config owner isolated s item check] at untouched erased
      constructor
      · intro spared
        obtain ⟨fresh,later⟩ := spared check
        rw [kept later,untouched fresh]
      · intro missed
        by_cases later : SparesBatch serde config owner (store serde config owner s item).1 rest
        · have taken : ForeignId owner s item.id := by
            by_contra fresh
            exact missed (fun _ => ⟨fresh,later⟩)
          rw [kept later]
          exact erased taken
        · have fewer := lost later
          by_cases taken : ForeignId owner s item.id
          · exact fewer.trans (erased taken)
          · rwa [untouched taken] at fewer

theorem step_foreign (isolated : config.namespaceIsolation = true) (s : Store F) (operation : Operation F) :
    (Spares serde config owner s operation →
      foreign owner (step serde config owner s operation) = foreign owner s) ∧
    (¬Spares serde config owner s operation →
      (foreign owner (step serde config owner s operation)).length < (foreign owner s).length) := by
  cases operation with
  | store item =>
    have single : (storeBatch serde config owner s [item]).1 = (store serde config owner s item).1 := by
      cases check : withinQuota config owner s item <;> simp [storeBatch,store,check]
    simpa only [step,Spares,single] using storeBatch_foreign serde config owner isolated s [item]
  | storeBatch items => exact storeBatch_foreign serde config owner isolated s items
  | delete id =>
    obtain ⟨untouched,erased⟩ := foreign_erased owner s id
    simp only [step,Spares,delete_foreign,Classical.not_not]
    exact ⟨untouched,erased⟩
  | clearNamespace name =>
    exact ⟨fun _ => clearNamespace_foreign config owner isolated s name,fun missed => absurd trivial missed⟩
  | _ => exact ⟨fun _ => rfl,fun missed => absurd trivial missed⟩

/-- Every row of another namespace is still there, as it was, after a run of
operations exactly when no step addressed the id of such a row. -/
theorem foreign_rows_kept_iff (isolated : config.namespaceIsolation = true) (s : Store F)
    (operations : List (Operation F)) :
    (∀ row ∈ s.rows, row.namespaceName ≠ owner →
      row ∈ (run (step serde config owner) s operations).rows) ↔
      Along (step serde config owner) (Spares serde config owner) s operations := by
  constructor
  · intro kept
    by_contra missed
    have fewer := run_measure_lt (step serde config owner) (Spares serde config owner)
      (fun t => (foreign owner t).length)
      (fun t operation => by
        by_cases spared : Spares serde config owner t operation
        · rw [(step_foreign serde config owner isolated t operation).1 spared]
        · exact ((step_foreign serde config owner isolated t operation).2 spared).le)
      (fun t operation => (step_foreign serde config owner isolated t operation).2) s operations missed
    have distinct : (foreign owner s).Nodup :=
      (List.Nodup.of_map Row.id s.unique).sublist List.filter_sublist
    have inside : foreign owner s ⊆ foreign owner (run (step serde config owner) s operations) := by
      intro row member
      obtain ⟨present,other⟩ := List.mem_filter.mp member
      exact List.mem_filter.mpr ⟨kept row present (by simpa using other),other⟩
    have enough := (List.subperm_of_subset distinct inside).length_le
    omega
  · intro along row present other
    have same := run_invariant (step serde config owner) (Spares serde config owner)
      (fun t => foreign owner t = foreign owner s)
      (fun t operation equal spared =>
        ((step_foreign serde config owner isolated t operation).1 spared).trans equal)
      s operations rfl along
    have member : row ∈ foreign owner s := List.mem_filter.mpr ⟨present,by simpa using other⟩
    rw [← same] at member
    exact List.mem_of_mem_filter member

end Operations

def sharedStore : Store Int :=
  Sqlite.store wholeSerde inMemory (note "x" "b" "theirs" none)

theorem foreign_rows_kept_iff_own_id :
    Along (step wholeSerde safeMode "a") (Spares wholeSerde safeMode "a") sharedStore
      [.store (note "y" "b" "mine" none),.clearNamespace "b",.clearNamespace "a"] :=
  (foreign_rows_kept_iff wholeSerde safeMode "a" rfl sharedStore
    [.store (note "y" "b" "mine" none),.clearNamespace "b",.clearNamespace "a"]).mp (by decide)

/-- The wrapper of `a` deletes the row of `b` by its id, and replaces it. -/
theorem foreign_row_deleted_and_replaced :
    (∃ row ∈ sharedStore.rows, row.namespaceName ≠ "a" ∧
      row ∉ (run (step wholeSerde safeMode "a") sharedStore [.delete "x"]).rows) ∧
    (∃ row ∈ sharedStore.rows, row.namespaceName ≠ "a" ∧
      row ∉ (run (step wholeSerde safeMode "a") sharedStore [.store (note "x" "b" "mine" none)]).rows) := by
  decide

end ClawKernel.Memory.Secure
