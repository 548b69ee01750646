import ClawKernel.Lib.Upsert
import Mathlib.Algebra.GroupWithZero.Nat
import Mathlib.Data.List.Sort
import Mathlib.Data.List.Nodup

/-! The SQLite memory store: items, their rows, the full-text index its triggers
maintain, and the operations of `SqliteMemoryStore`.
Single-precision arithmetic, the JSON texts of a row and FTS5's ranking are
parameters; everything else is the statements the store executes. -/
namespace ClawKernel.Memory.Sqlite

inductive MemoryError where
  | notFound (id : String)
  | storage (message : String)
  | embedding (message : String)
  | quotaExceeded (namespaceName : String) (used limit : Nat)
  | accessDenied (message : String)
  | serialization (message : String)
  deriving DecidableEq, Repr

structure MemoryItem (F : Type) where
  id : String
  namespaceName : String
  content : String
  embedding : Option (List F)
  tags : List String
  createdAtMs : UInt64
  accessedAtMs : UInt64
  importance : F
  deriving DecidableEq, Repr

structure EpisodicEntry where
  id : String
  episodeId : String
  namespaceName : String
  role : String
  content : String
  timestampMs : UInt64
  turnIndex : UInt32
  deriving DecidableEq, Repr

structure EpisodicFilter where
  episodeId : Option String
  namespaceName : Option String
  afterMs : Option UInt64
  beforeMs : Option UInt64
  limit : Option UInt64
  deriving DecidableEq, Repr

structure Arithmetic (F : Type) where
  zero : F
  one : F
  epsilon : F
  ofNat : Nat → F
  add : F → F → F
  sub : F → F → F
  mul : F → F → F
  div : F → F → F
  sqrt : F → F
  clampUnit : F → F
  lt : F → F → Bool
  partialCmp : F → F → Option Ordering
  isNaN : F → Bool

/-- The texts a row is written with and read from. `realColumn` is what a
`REAL NOT NULL DEFAULT 0.5` column keeps of a number. -/
structure Serde (F : Type) where
  embeddingJson : List F → String
  readEmbedding : String → Option (List F)
  tagsJson : List String → String
  readTags : String → Option (List String)
  realColumn : F → F

/-- What the triggers tell the full-text index: the text of a new row, and the text
a deleted row had. -/
inductive IndexCommand where
  | insert (rowid : Nat) (content : String)
  | delete (rowid : Nat) (content : String)
  deriving DecidableEq, Repr

/-- FTS5: the rowids of the indexed texts that match, best rank first. The index is
what the commands so far have made of it. -/
abbrev FullText := List IndexCommand → String → Except String (List Nat)

structure Row (F : Type) where
  rowid : Nat
  id : String
  namespaceName : String
  content : String
  embedding : Option String
  tags : String
  createdAtMs : Int64
  accessedAtMs : Int64
  importance : F
  deriving DecidableEq, Repr

structure EpisodicRow where
  id : String
  episodeId : String
  namespaceName : String
  role : String
  content : String
  timestampMs : Int64
  turnIndex : Int64
  deriving DecidableEq, Repr

/-- The database: rows in rowid order under a primary key, the full-text index
and the episodic table. -/
structure Store (F : Type) where
  rows : List (Row F)
  fts : List IndexCommand
  episodic : List EpisodicRow
  unique : (rows.map Row.id).Nodup

section Statements
variable {F : Type}

def inMemory : Store F where
  rows := []
  fts := []
  episodic := []
  unique := List.nodup_nil

def nextRowid (rows : List (Row F)) : Nat :=
  (rows.map Row.rowid).foldl max 0 + 1

def toRow (serde : Serde F) (rowid : Nat) (item : MemoryItem F) : Row F where
  rowid := rowid
  id := item.id
  namespaceName := item.namespaceName
  content := item.content
  embedding := item.embedding.map serde.embeddingJson
  tags := serde.tagsJson item.tags
  createdAtMs := item.createdAtMs.toInt64
  accessedAtMs := item.accessedAtMs.toInt64
  importance := serde.realColumn item.importance

def rowToMemoryItem (serde : Serde F) (row : Row F) : MemoryItem F where
  id := row.id
  namespaceName := row.namespaceName
  content := row.content
  embedding := row.embedding.bind serde.readEmbedding
  tags := (serde.readTags row.tags).getD []
  createdAtMs := row.createdAtMs.toUInt64
  accessedAtMs := row.accessedAtMs.toUInt64
  importance := row.importance

def without (rows : List (Row F)) (id : String) : List (Row F) :=
  rows.filter (fun row => row.id ≠ id)

private theorem nodup_kept (rows : List (Row F)) (kept : Row F → Bool) (unique : (rows.map Row.id).Nodup) :
    ((rows.filter kept).map Row.id).Nodup :=
  unique.sublist (List.filter_sublist.map Row.id)

/-- `INSERT OR REPLACE`: the new row takes its rowid before the row of the same id goes,
which does not fire the delete trigger; the new row is indexed. -/
def store (serde : Serde F) (s : Store F) (item : MemoryItem F) : Store F :=
  let row := toRow serde (nextRowid s.rows) item
  { s with
    rows := without s.rows item.id ++ [row]
    fts := s.fts ++ [.insert row.rowid row.content]
    unique := Lib.Upsert.nodup_put Row.id s.rows row s.unique }

/-- `DELETE ... WHERE`, with the delete trigger on each row. -/
def deleteWhere (s : Store F) (gone : Row F → Bool) : Store F :=
  { s with
    rows := s.rows.filter (fun row => !gone row)
    fts := s.fts ++ (s.rows.filter gone).map (fun row => .delete row.rowid row.content)
    unique := nodup_kept s.rows _ s.unique }

def delete (s : Store F) (id : String) : Store F :=
  deleteWhere s (fun row => row.id = id)

def clearNamespace (s : Store F) (namespaceName : String) : Store F × Nat :=
  (deleteWhere s (fun row => row.namespaceName = namespaceName),
    (s.rows.filter (fun row => row.namespaceName = namespaceName)).length)

/-- `LENGTH` of a text counts characters before the first NUL. -/
def sqlLength (text : String) : Nat :=
  (text.toList.takeWhile (fun c => c ≠ '\x00')).length

def rowUsage (row : Row F) : Nat :=
  sqlLength row.content + (row.embedding.map sqlLength).getD 0

def namespaceUsage (s : Store F) (namespaceName : String) : Nat :=
  ((s.rows.filter (fun row => row.namespaceName = namespaceName)).map rowUsage).sum

def retrieve (serde : Serde F) (s : Store F) (id : String) : Option (MemoryItem F) :=
  (s.rows.find? (fun row => row.id = id)).map (rowToMemoryItem serde)

/-- `LIMIT n`: a negative limit is none. -/
def limited {α : Type} (n : Int64) (rows : List α) : List α :=
  if n < 0 then rows else rows.take n.toInt.toNat

def episodicMatches (filter : EpisodicFilter) (row : EpisodicRow) : Bool :=
  filter.namespaceName.all (fun name => row.namespaceName = name) &&
  filter.episodeId.all (fun id => row.episodeId = id) &&
  filter.afterMs.all (fun after => after.toInt64 ≤ row.timestampMs) &&
  filter.beforeMs.all (fun before => row.timestampMs ≤ before.toInt64)

def rowToEpisodicEntry (row : EpisodicRow) : EpisodicEntry where
  id := row.id
  episodeId := row.episodeId
  namespaceName := row.namespaceName
  role := row.role
  content := row.content
  timestampMs := row.timestampMs.toUInt64
  turnIndex := row.turnIndex.toUInt64.toUInt32

def searchEpisodic (s : Store F) (filter : EpisodicFilter) : List EpisodicEntry :=
  let ordered := (s.episodic.filter (episodicMatches filter)).insertionSort
    (fun a b => a.timestampMs ≤ b.timestampMs)
  let cut := match filter.limit with
    | some n => limited n.toInt64 ordered
    | none => ordered
  cut.map rowToEpisodicEntry

end Statements

section Search
variable {F : Type} (f32 : Arithmetic F) (serde : Serde F) (fullText : FullText)

def sum (values : List F) : F :=
  values.foldl f32.add f32.zero

def cosineSimilarity (a b : List F) : F :=
  if a.length ≠ b.length then f32.zero
  else if a.isEmpty then f32.zero
  else
    let dot := sum f32 (List.zipWith f32.mul a b)
    let normA := f32.sqrt (sum f32 (a.map (fun x => f32.mul x x)))
    let normB := f32.sqrt (sum f32 (b.map (fun x => f32.mul x x)))
    if f32.lt normA f32.epsilon || f32.lt normB f32.epsilon then f32.zero
    else f32.clampUnit (f32.div dot (f32.mul normA normB))

/-- The items of the rows that hold an embedding, each with its similarity;
scores that are no number are left out. -/
def scored (query : List F) (rows : List (Row F)) : List (F × MemoryItem F) :=
  (((rows.filter (fun row => row.embedding.isSome)).map (rowToMemoryItem serde)).filterMap
    (fun item => item.embedding.map (fun embedding => (cosineSimilarity f32 query embedding,item)))).filter
    (fun entry => !f32.isNaN entry.1)

def bySimilarity (a b : F × MemoryItem F) : Bool :=
  (f32.partialCmp b.1 a.1).getD .lt ≠ .gt

def ranked (query : List F) (rows : List (Row F)) : List (F × MemoryItem F) :=
  (scored f32 serde query rows).insertionSort (fun a b => bySimilarity f32 a b = true)

def semanticSearch (s : Store F) (query : List F) (topK : UInt64) : List (MemoryItem F) :=
  ((ranked f32 serde query s.rows).take topK.toNat).map Prod.snd

def safeQuery (query : String) : String :=
  String.ofList ('"' :: query.toList.flatMap (fun c => if c = '"' then ['"','"'] else [c]) ++ ['"'])

def matched (s : Store F) (query : String) : Except MemoryError (List (MemoryItem F)) :=
  match fullText s.fts (safeQuery query) with
  | .error message => .error (.storage message)
  | .ok rowids => .ok (rowids.flatMap (fun rowid =>
      (s.rows.filter (fun row => row.rowid = rowid)).map (rowToMemoryItem serde)))

def keywordSearch (s : Store F) (query : String) (topK : UInt64) : Except MemoryError (List (MemoryItem F)) :=
  (matched serde fullText s query).map (limited topK.toInt64)

def fetchK (topK : UInt64) : UInt64 :=
  UInt64.ofNat (max (min (2 * topK.toNat) (2 ^ 64 - 1)) 1)

def normalized (rank count : Nat) : F :=
  if f32.lt f32.one (f32.ofNat count) then
    f32.sub f32.one (f32.div (f32.ofNat rank) (f32.sub (f32.ofNat count) f32.one))
  else f32.one

/-- The last rank at which an id stands among the candidates: a later insertion
of the map's entry overwrites an earlier one. -/
def semanticScore (alpha : F) (candidates : List (MemoryItem F)) (id : String) : Option F :=
  (candidates.zipIdx.filter (fun entry => entry.1.id = id)).getLast?.map
    (fun entry => f32.mul alpha (normalized f32 entry.2 candidates.length))

def fusedScore (alpha : F) (semantic keyword : List (MemoryItem F)) (id : String) : F :=
  (keyword.zipIdx.filter (fun entry => entry.1.id = id)).foldl
    (fun score entry => f32.add score (f32.mul (f32.sub f32.one alpha) (normalized f32 entry.2 keyword.length)))
    ((semanticScore f32 alpha semantic id).getD f32.zero)

def byFusedScore (a b : F × MemoryItem F) : Bool :=
  (f32.partialCmp b.1 a.1).getD .eq ≠ .gt

def firstOfEachId (items : List (MemoryItem F)) : List (MemoryItem F) :=
  items.foldl (fun seen item => if seen.any (fun other => other.id = item.id) then seen else seen ++ [item]) []

def fuse (alpha : F) (topK : UInt64) (semantic keyword : List (MemoryItem F)) : List (MemoryItem F) :=
  let combined := (firstOfEachId (semantic ++ keyword)).map
    (fun item => (fusedScore f32 alpha semantic keyword item.id,item))
  ((combined.insertionSort (fun a b => byFusedScore f32 a b = true)).take topK.toNat).map Prod.snd

def hybridSearch (s : Store F) (query : String) (queryEmbedding : List F) (topK : UInt64) (alpha : F) :
    Except MemoryError (List (MemoryItem F)) :=
  (keywordSearch serde fullText s query (fetchK topK)).map
    (fuse f32 alpha topK (semanticSearch f32 serde s queryEmbedding (fetchK topK)))

end Search

/-- Rows over whole numbers, in the texts serde_json writes for them: enough to
run the store on the vectors `[1.0]` and `[-1.0]` and on untagged items. -/
def wholeSerde : Serde Int where
  embeddingJson values := "[" ++ ",".intercalate (values.map (fun value => toString value ++ ".0")) ++ "]"
  readEmbedding text := if text = "[1.0]" then some [1] else if text = "[-1.0]" then some [-1] else none
  tagsJson tags := "[" ++ ",".intercalate (tags.map (fun tag => "\"" ++ tag ++ "\"")) ++ "]"
  readTags text := if text = "[]" then some [] else none
  realColumn value := value

/-- Arithmetic on whole numbers, which agrees with single precision on vectors of
length one or none. -/
def wholeArithmetic : Arithmetic Int where
  zero := 0
  one := 1
  epsilon := 1
  ofNat n := n
  add a b := a + b
  sub a b := a - b
  mul a b := a * b
  div a b := a / b
  sqrt a := (List.range (a.toNat + 1)).foldl (fun root n => if n * n ≤ a.toNat then n else root) 0
  clampUnit a := max (-1) (min 1 a)
  lt a b := a < b
  partialCmp a b := some (compare a b)
  isNaN _ := false

def note (id namespaceName content : String) (embedding : Option (List Int)) : MemoryItem Int where
  id := id
  namespaceName := namespaceName
  content := content
  embedding := embedding
  tags := []
  createdAtMs := 0
  accessedAtMs := 0
  importance := 1

end ClawKernel.Memory.Sqlite
