import ClawKernel.Lib.Upsert
import ClawKernel.Memory.Sqlite
import Mathlib.Data.Set.Card

/-! The memory worker. It stores the items of each archive request one after another and
reports how many SQLite took. An item is named after the millisecond it was built in, and
SQLite keeps one row under a name.
-/
namespace ClawKernel.Memory.Worker
open Lib.Upsert Sqlite

/-- `current_time_ms`; a clock before the epoch counts as zero. -/
def currentTimeMs (clock : Option Nat) : UInt64 := UInt64.ofNat (clock.getD 0)

def memoryId (nowMs : UInt64) : String := "mem-" ++ nowMs.toNat.repr

/-- `half` is 0.5, `clamp` cuts a number to the unit interval. -/
structure Scores (F : Type) where
  half : F
  clamp : F → F

structure ArchiveRequest (F : Type) where
  agentId : String
  items : List (MemoryItem F)

structure MemoryArchived where
  agentId : String
  archivedCount : Nat
  deriving DecidableEq, Repr

/-- The worker between two requests: the store, the store calls so far and the events. -/
structure MemoryWorker (F : Type) where
  store : Store F
  calls : Nat
  published : List MemoryArchived

structure Progress (F : Type) where
  store : Store F
  calls : Nat
  archived : Nat

section Items
variable {F : Type} (scores : Scores F)

def newItem (clock : Option Nat) (namespaceName content : String) : MemoryItem F where
  id := memoryId (currentTimeMs clock)
  namespaceName := namespaceName
  content := content
  embedding := none
  tags := []
  createdAtMs := currentTimeMs clock
  accessedAtMs := currentTimeMs clock
  importance := scores.half

def withTags (item : MemoryItem F) (tags : List String) : MemoryItem F := {item with tags := tags}

def withImportance (item : MemoryItem F) (score : F) : MemoryItem F := {item with importance := scores.clamp score}

def withEmbedding (item : MemoryItem F) (v : List F) : MemoryItem F := {item with embedding := some v}

/-- What a caller builds an item from: the reading of the clock, and the calls of the builders. -/
structure Draft (F : Type) where
  clock : Option Nat
  namespaceName : String
  content : String
  tags : Option (List String)
  importance : Option F
  embedding : Option (List F)

def Draft.item (draft : Draft F) : MemoryItem F :=
  let plain := newItem scores draft.clock draft.namespaceName draft.content
  let tagged := draft.tags.elim plain (withTags plain)
  let weighed := draft.importance.elim tagged (withImportance scores tagged)
  draft.embedding.elim weighed (withEmbedding weighed)

end Items

section Run
variable {F : Type} (serde : Serde F) (faults : Nat → Option MemoryError)

/-- One store call; `faults` says which calls SQLite refuses. -/
def archiveItem (progress : Progress F) (item : MemoryItem F) : Progress F :=
  match faults progress.calls with
  | none => ⟨Sqlite.store serde progress.store item,progress.calls + 1,progress.archived + 1⟩
  | some _ => {progress with calls := progress.calls + 1}

def process (worker : MemoryWorker F) (request : ArchiveRequest F) : MemoryWorker F :=
  let done := request.items.foldl (archiveItem serde faults) ⟨worker.store,worker.calls,0⟩
  ⟨done.store,done.calls,worker.published ++ [⟨request.agentId,done.archived⟩]⟩

def run (worker : MemoryWorker F) (requests : List (ArchiveRequest F)) : MemoryWorker F :=
  requests.foldl (process serde faults) worker

def started (s : Store F) : MemoryWorker F := ⟨s,0,[]⟩

def reported (worker : MemoryWorker F) : Nat := (worker.published.map MemoryArchived.archivedCount).sum

/-- What `retrieve` can answer with. -/
def retrievable (s : Store F) : Set (MemoryItem F) := {item | ∃ id, retrieve serde s id = some item}

end Run

/-- Of a list, what the calls from the given one on do not refuse. -/
def taken {α : Type} (faults : Nat → Option MemoryError) : Nat → List α → List α
  | _, [] => []
  | call, item :: rest => if (faults call).isNone then item :: taken faults (call + 1) rest else taken faults (call + 1) rest

theorem taken_append {α : Type} (faults : Nat → Option MemoryError) (call : Nat) (first second : List α) :
    taken faults call (first ++ second) = taken faults call first ++ taken faults (call + first.length) second := by
  induction first generalizing call with
  | nil => rfl
  | cons item rest ih =>
    have next : call + 1 + rest.length = call + (item :: rest).length := by rw [List.length_cons]; omega
    rw [List.cons_append,taken,taken,ih,next]
    split <;> rfl

theorem taken_map {α β : Type} (faults : Nat → Option MemoryError) (f : α → β) (call : Nat) (items : List α) :
    taken faults call (items.map f) = (taken faults call items).map f := by
  induction items generalizing call with
  | nil => rfl
  | cons item rest ih =>
    rw [List.map_cons,taken,taken,ih]
    split <;> rfl

section Stored
variable {F : Type} (serde : Serde F) (faults : Nat → Option MemoryError)

def storeAll (s : Store F) (items : List (MemoryItem F)) : Store F := items.foldl (Sqlite.store serde) s

theorem archiveItems (items : List (MemoryItem F)) (progress : Progress F) :
    items.foldl (archiveItem serde faults) progress =
      ⟨storeAll serde progress.store (taken faults progress.calls items),progress.calls + items.length,
        progress.archived + (taken faults progress.calls items).length⟩ := by
  induction items generalizing progress with
  | nil => rfl
  | cons item rest ih =>
    rw [List.foldl_cons,ih,archiveItem,taken]
    cases faults progress.calls with
    | none => simp [storeAll,Nat.add_assoc,Nat.add_comm 1]
    | some error => simp [Nat.add_assoc,Nat.add_comm 1]

theorem process_eq (worker : MemoryWorker F) (request : ArchiveRequest F) :
    process serde faults worker request =
      ⟨storeAll serde worker.store (taken faults worker.calls request.items),worker.calls + request.items.length,
        worker.published ++ [⟨request.agentId,(taken faults worker.calls request.items).length⟩]⟩ := by
  rw [process,archiveItems,Nat.zero_add]

theorem run_eq (worker : MemoryWorker F) (requests : List (ArchiveRequest F)) :
    (run serde faults worker requests).store =
        storeAll serde worker.store (taken faults worker.calls (requests.flatMap ArchiveRequest.items)) ∧
      reported (run serde faults worker requests) =
        reported worker + (taken faults worker.calls (requests.flatMap ArchiveRequest.items)).length := by
  induction requests generalizing worker with
  | nil => exact ⟨rfl,rfl⟩
  | cons request rest ih =>
    obtain ⟨store,count⟩ := ih (process serde faults worker request)
    rw [run,List.foldl_cons,List.flatMap_cons,taken_append,List.length_append]
    refine ⟨store.trans ?_,count.trans ?_⟩
    · rw [process_eq,storeAll,storeAll,storeAll,List.foldl_append]
    · rw [process_eq]
      simp [reported,Nat.add_assoc]

theorem storeAll_rows (s : Store F) (items : List (MemoryItem F)) :
    (storeAll serde s items).rows =
      puts Row.id (fun rows item => toRow serde (nextRowid rows) item) s.rows items := by
  induction items generalizing s with
  | nil => rfl
  | cons item rest ih => exact ih (Sqlite.store serde s item)

theorem retrieve_row (s : Store F) (row : Row F) (member : row ∈ s.rows) :
    retrieve serde s row.id = some (rowToMemoryItem serde row) := by
  rw [retrieve,(find_key_iff Row.id s.rows s.unique row row.id).mpr ⟨member,rfl⟩]
  rfl

theorem retrieve_none_iff (s : Store F) (id : String) : retrieve serde s id = none ↔ id ∉ s.rows.map Row.id := by
  simp [retrieve]

theorem ncard_retrievable (s : Store F) : (retrievable serde s).ncard = s.rows.length := by
  have items : retrievable serde s = {item | item ∈ s.rows.map (rowToMemoryItem serde)} := by
    ext item
    simp only [retrievable,Set.mem_ofPred_eq,retrieve,Option.map_eq_some_iff,find_key_iff Row.id s.rows s.unique,
      List.mem_map]
    constructor
    · rintro ⟨id,row,⟨member,-⟩,read⟩
      exact ⟨row,member,read⟩
    · rintro ⟨row,member,read⟩
      exact ⟨row.id,row,⟨member,rfl⟩,read⟩
  have distinct : (s.rows.map (rowToMemoryItem serde)).Nodup := by
    refine List.Nodup.of_map MemoryItem.id ?_
    rw [List.map_map]
    exact s.unique
  classical
  rw [items,← List.coe_toFinset,Set.ncard_coe_finset,List.toFinset_card_of_nodup distinct,List.length_map]

theorem storeAll_full_iff (s : Store F) (items : List (MemoryItem F)) :
    (storeAll serde s items).rows.length = s.rows.length + items.length ↔
      (items.map MemoryItem.id).Nodup ∧ ∀ item ∈ items, item.id ∉ s.rows.map Row.id := by
  rw [storeAll_rows]
  exact length_puts_iff Row.id _ MemoryItem.id (fun _ _ => rfl) s.rows items s.unique

theorem storeAll_retrieve (s : Store F) (items : List (MemoryItem F)) (distinct : (items.map MemoryItem.id).Nodup)
    (item : MemoryItem F) (member : item ∈ items) :
    ∃ found, retrieve serde (storeAll serde s items) item.id = some found ∧ found.content = item.content := by
  obtain ⟨before,made⟩ := made_puts Row.id (fun rows item => toRow serde (nextRowid rows) item) MemoryItem.id
    (fun _ _ => rfl) s.rows items distinct item member
  rw [← storeAll_rows] at made
  exact ⟨_,retrieve_row serde _ _ made,rfl⟩

end Stored

/-! What an item is called. -/

theorem repr_injective (m n : Nat) (same : m.repr = n.repr) : m = n := by
  rw [Nat.repr_eq_ofList_toDigits,Nat.repr_eq_ofList_toDigits,String.ofList_inj] at same
  rw [← Nat.ofDigitChars_ten_toDigits (n := m),same,Nat.ofDigitChars_ten_toDigits]

theorem memoryId_injective : Function.Injective memoryId := by
  intro a b same
  have texts := congrArg String.toList same
  rw [memoryId,memoryId,String.toList_append,String.toList_append] at texts
  have digits := String.toList_injective (List.append_cancel_left texts)
  exact UInt64.toNat_inj.mp (repr_injective _ _ digits)

section Drafts
variable {F : Type} (scores : Scores F)

theorem item_id (draft : Draft F) : (draft.item scores).id = memoryId (currentTimeMs draft.clock) := by
  obtain ⟨clock,namespaceName,content,tags,importance,embedding⟩ := draft
  cases tags <;> cases importance <;> cases embedding <;> rfl

theorem item_content (draft : Draft F) : (draft.item scores).content = draft.content := by
  obtain ⟨clock,namespaceName,content,tags,importance,embedding⟩ := draft
  cases tags <;> cases importance <;> cases embedding <;> rfl

end Drafts

/-- The items of the worker's requests, as their callers built them. -/
def built {F : Type} (scores : Scores F) (requests : List (String × List (Draft F))) : List (ArchiveRequest F) :=
  requests.map (fun request => ⟨request.1,request.2.map (Draft.item scores)⟩)

/-- Everything that is reported as archived can be retrieved with its own content, next to
what the store had, exactly when the items were built in different milliseconds, and in
none from which the store holds an item. -/
theorem archives_all_iff {F : Type} (scores : Scores F) (serde : Serde F) (faults : Nat → Option MemoryError)
    (s : Store F) (requests : List (String × List (Draft F))) :
    let worker := run serde faults (started s) (built scores requests)
    let drafts := taken faults 0 (requests.flatMap Prod.snd)
    ((retrievable serde worker.store).ncard = (retrievable serde s).ncard + reported worker ∧
      ∀ draft ∈ drafts, ∃ item, retrieve serde worker.store (draft.item scores).id = some item ∧
        item.content = draft.content) ↔
    (drafts.map (fun draft => currentTimeMs draft.clock)).Nodup ∧
      ∀ draft ∈ drafts, retrieve serde s (memoryId (currentTimeMs draft.clock)) = none := by
  intro worker drafts
  have items : (built scores requests).flatMap ArchiveRequest.items =
      (requests.flatMap Prod.snd).map (Draft.item scores) := by
    rw [built,List.flatMap_map,List.map_flatMap]
  obtain ⟨store,count⟩ := run_eq serde faults (started s) (built scores requests)
  rw [items,taken_map] at store count
  change worker.store = storeAll serde s (drafts.map (Draft.item scores)) at store
  change reported worker = 0 + (drafts.map (Draft.item scores)).length at count
  have ids : (drafts.map (Draft.item scores)).map MemoryItem.id =
      (drafts.map (fun draft => currentTimeMs draft.clock)).map memoryId := by
    rw [List.map_map,List.map_map]
    exact List.map_congr_left (fun draft _ => item_id scores draft)
  have full := storeAll_full_iff serde s (drafts.map (Draft.item scores))
  rw [ids,List.nodup_map_iff memoryId_injective,List.forall_mem_map] at full
  simp only [item_id] at full
  rw [ncard_retrievable,ncard_retrievable,count,store,Nat.zero_add,full]
  simp only [retrieve_none_iff]
  refine ⟨And.left,fun apart => ⟨apart,fun draft member => ?_⟩⟩
  rw [← item_content scores draft]
  refine storeAll_retrieve serde s _ ?_ _ (List.mem_map_of_mem member)
  rw [ids,List.nodup_map_iff memoryId_injective]
  exact apart.1
/-! Two facts, built in one millisecond. -/

def wholeScores : Scores Int where
  half := 1
  clamp score := max 0 (min 1 score)

def fact (content : String) : Draft Int := ⟨some 5,"test-agent",content,none,none,none⟩

def twoFacts : MemoryWorker Int :=
  run wholeSerde (fun _ => none) (started inMemory) (built wholeScores [("test-agent",[fact "fact 1",fact "fact 2"])])

/-- Two are reported, one is there, and the first has the content of the second. -/
theorem one_of_two_facts :
    reported twoFacts = 2 ∧ (retrievable wholeSerde twoFacts.store).ncard = 1 ∧
      (retrieve wholeSerde twoFacts.store ((fact "fact 1").item wholeScores).id).map MemoryItem.content =
        some "fact 2" := by
  rw [ncard_retrievable]
  decide +kernel

end ClawKernel.Memory.Worker
