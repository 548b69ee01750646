import ClawKernel.Memory.Secure

/-! Quota accounting of `SecureMemoryStore`: the check compares characters stored
with an estimate in bytes, while an entry is sized by `calculate_entry_size`.
-/
namespace ClawKernel.Memory.Quota
open Lib.Runs Secure
open Sqlite hiding store

section Accounting
variable {F : Type} (serde : Serde F) (config : MemorySecurityConfig) (owner : String)

/-- What the store relies on of serde_json for an item: its tags survive a row,
and an embedding that is read back has its components. -/
structure Faithful (item : MemoryItem F) : Prop where
  tags : serde.readTags (serde.tagsJson item.tags) = some item.tags
  embedding : ∀ values ∈ item.embedding, ∀ read ∈ serde.readEmbedding (serde.embeddingJson values),
    read.length = values.length

def rowEntrySize (row : Row F) : Nat :=
  calculateEntrySize (rowToMemoryItem serde row).content (rowToMemoryItem serde row).tags
    (rowToMemoryItem serde row).embedding

def entryTotal (rows : List (Row F)) : Nat :=
  ((rows.filter (fun row => row.namespaceName = owner)).map (rowEntrySize serde)).sum

def itemEntrySize (item : MemoryItem F) : Nat :=
  calculateEntrySize item.content item.tags item.embedding

def embeddingText (item : MemoryItem F) : Nat :=
  (item.embedding.map (fun values => sqlLength (serde.embeddingJson values))).getD 0

def charge (item : MemoryItem F) : Nat :=
  (item.tags.map (fun tag => tag.utf8ByteSize + 2)).sum +
    (item.embedding.map (fun values => values.length * 4)).getD 0 + metadataOverhead +
    (item.id.utf8ByteSize + item.namespaceName.utf8ByteSize)

def usageTotal (rows : List (Row F)) : Nat :=
  ((rows.filter (fun row => row.namespaceName = owner)).map rowUsage).sum

/-- What the usage query leaves out of the entry sizes of a namespace: tags, the
overhead of each item, bytes beyond one a character. -/
def uncounted (rows : List (Row F)) : Nat :=
  entryTotal serde owner rows - usageTotal owner rows

/-- What the counted usage of the other items and the item itself leave of the quota. -/
def spare (s : Store F) (item : MemoryItem F) : Nat :=
  config.quotaBytes - (usageTotal owner (without s.rows item.id) + itemEntrySize item)

/-- An admitted store pays for its embedding text, and what is uncounted of the
namespace's other items fits into what is spare. -/
def Paid (s : Store F) (item : MemoryItem F) : Prop :=
  withinQuota config owner s item = true →
    embeddingText serde item ≤ charge item ∧
    uncounted serde owner (without s.rows item.id) ≤ spare config owner s item

instance paidDecidable (s : Store F) (item : MemoryItem F) : Decidable (Paid serde config owner s item) :=
  inferInstanceAs (Decidable (_ → _ ∧ _))

def storeStep (s : Store F) (item : MemoryItem F) : Store F :=
  (store serde config owner s item).1

def WithinLimit (s : Store F) : Prop :=
  namespaceUsage s owner ≤ config.quotaBytes ∧ entryTotal serde owner s.rows ≤ config.quotaBytes

instance withinLimitDecidable (s : Store F) : Decidable (WithinLimit serde config owner s) :=
  inferInstanceAs (Decidable (_ ∧ _))

theorem length_le_utf8ByteSize (chars : List Char) : chars.length ≤ (String.ofList chars).utf8ByteSize := by
  induction chars with
  | nil => simp
  | cons c rest ih =>
    have split : String.ofList (c :: rest) = String.singleton c ++ String.ofList rest := by
      rw [← List.singleton_append,String.ofList_append]
      rfl
    have positive := c.utf8Size_pos
    rw [split,String.utf8ByteSize_append,String.utf8ByteSize_singleton,List.length_cons]
    omega

theorem sqlLength_le_utf8ByteSize (text : String) : sqlLength text ≤ text.utf8ByteSize := by
  have bytes := length_le_utf8ByteSize text.toList
  rw [String.ofList_toList] at bytes
  exact (List.takeWhile_sublist _).length_le.trans bytes

theorem estimateSize_eq (item : MemoryItem F) :
    estimateSize item = item.content.utf8ByteSize + charge item := by
  unfold estimateSize calculateEntrySize charge
  omega

theorem rowUsage_le (rowid : Nat) (item : MemoryItem F) (paid : embeddingText serde item ≤ charge item) :
    rowUsage (toRow serde rowid item) ≤ estimateSize item := by
  have content := sqlLength_le_utf8ByteSize item.content
  have text : (((toRow serde rowid item).embedding).map sqlLength).getD 0 = embeddingText serde item := by
    cases present : item.embedding <;> simp [toRow,embeddingText,present]
  rw [estimateSize_eq]
  unfold rowUsage
  rw [text]
  change sqlLength item.content + _ ≤ _
  omega

theorem rowEntrySize_le (rowid : Nat) (item : MemoryItem F) (faithful : Faithful serde item) :
    rowEntrySize serde (toRow serde rowid item) ≤ itemEntrySize item := by
  have tags : (rowToMemoryItem serde (toRow serde rowid item)).tags = item.tags := by
    simp [rowToMemoryItem,toRow,faithful.tags]
  have size : ((rowToMemoryItem serde (toRow serde rowid item)).embedding.map (fun values => values.length * 4)).getD 0 ≤
      (item.embedding.map (fun values => values.length * 4)).getD 0 := by
    cases present : item.embedding with
    | none => simp [rowToMemoryItem,toRow,present]
    | some values =>
      cases read : serde.readEmbedding (serde.embeddingJson values) with
      | none => simp [rowToMemoryItem,toRow,present,read]
      | some again =>
        have same := faithful.embedding values present again read
        simp [rowToMemoryItem,toRow,present,read,same]
  unfold rowEntrySize itemEntrySize calculateEntrySize
  rw [tags]
  change item.content.utf8ByteSize + _ + _ + _ ≤ _
  omega

private theorem within_check (s : Store F) (item : MemoryItem F) (isolated : config.namespaceIsolation = true)
    (safe : config.quotaBytes < u64Max) (admitted : withinQuota config owner s item = true) :
    namespaceUsage s owner + estimateSize item ≤ config.quotaBytes := by
  simp only [withinQuota,Bool.or_eq_true,decide_eq_true_eq] at admitted
  rcases admitted with unlimited | fits
  · omega
  · simp only [enforceNamespace,isolated,if_true,saturatingAdd] at fits
    omega

private theorem sum_filter_le {α : Type} (size : α → Nat) (kept : α → Bool) (rows : List α) :
    ((rows.filter kept).map size).sum ≤ (rows.map size).sum := by
  induction rows with
  | nil => simp
  | cons row rest ih =>
    by_cases stays : kept row = true <;> simp [stays] <;> omega

private theorem usage_without_le (s : Store F) (id : String) :
    usageTotal owner (without s.rows id) ≤ namespaceUsage s owner := by
  unfold usageTotal namespaceUsage without
  rw [List.filter_comm]
  exact sum_filter_le rowUsage _ _

private theorem store_rows (s : Store F) (item : MemoryItem F) (isolated : config.namespaceIsolation = true)
    (admitted : withinQuota config owner s item = true) :
    ∃ rowid, (storeStep serde config owner s item).rows =
      without s.rows item.id ++ [toRow serde rowid { item with namespaceName := owner }] := by
  refine ⟨nextRowid s.rows,?_⟩
  simp [storeStep,store,admitted,Sqlite.store,enforceNamespace,isolated]

private theorem own_total_snoc (size : Row F → Nat) (rows : List (Row F)) (row : Row F)
    (own : row.namespaceName = owner) :
    (((rows ++ [row]).filter (fun row => row.namespaceName = owner)).map size).sum =
      ((rows.filter (fun row => row.namespaceName = owner)).map size).sum + size row := by
  rw [List.filter_append,List.map_append,List.sum_append,List.filter_cons_of_pos (by simpa using own),
    List.filter_nil,List.map_cons,List.map_nil,List.sum_singleton]

/-- The check bounds the counted sizes; what it leaves uncounted is spare. -/
theorem entryTotal_room (isolated : config.namespaceIsolation = true) (safe : config.quotaBytes < u64Max)
    (s : Store F) (item : MemoryItem F) (admitted : withinQuota config owner s item = true)
    (room : uncounted serde owner (without s.rows item.id) ≤ spare config owner s item) :
    entryTotal serde owner (without s.rows item.id) + itemEntrySize item ≤ config.quotaBytes := by
  have check := within_check config owner s item isolated safe admitted
  have others := usage_without_le owner s item.id
  have size : itemEntrySize item ≤ estimateSize item := Nat.le_add_right _ _
  unfold uncounted spare at room
  omega

theorem store_withinLimit (isolated : config.namespaceIsolation = true)
    (safe : config.quotaBytes < u64Max) (s : Store F) (item : MemoryItem F) (faithful : Faithful serde item)
    (admitted : withinQuota config owner s item = true) (paid : Paid serde config owner s item) :
    WithinLimit serde config owner (storeStep serde config owner s item) := by
  obtain ⟨text,uncounted⟩ := paid admitted
  obtain ⟨rowid,rows⟩ := store_rows serde config owner s item isolated admitted
  have own : (toRow serde rowid { item with namespaceName := owner }).namespaceName = owner := rfl
  constructor
  · have check := within_check config owner s item isolated safe admitted
    have others := usage_without_le owner s item.id
    have added : rowUsage (toRow serde rowid { item with namespaceName := owner }) ≤ estimateSize item :=
      rowUsage_le serde rowid item text
    unfold usageTotal at others
    rw [namespaceUsage,rows,own_total_snoc owner rowUsage _ _ own]
    omega
  · have added : rowEntrySize serde (toRow serde rowid { item with namespaceName := owner }) ≤ itemEntrySize item :=
      rowEntrySize_le serde rowid { item with namespaceName := owner } ⟨faithful.tags,faithful.embedding⟩
    have room := entryTotal_room serde config owner isolated safe s item admitted uncounted
    unfold entryTotal at room
    rw [entryTotal,rows,own_total_snoc owner (rowEntrySize serde) _ _ own]
    omega

theorem store_rejected (s : Store F) (item : MemoryItem F) (rejected : withinQuota config owner s item = false) :
    storeStep serde config owner s item = s := by
  simp [storeStep,store,rejected]

end Accounting

def smallQuota : MemorySecurityConfig where
  namespaceIsolation := true
  quotaBytes := 300

end ClawKernel.Memory.Quota
