import ClawKernel.Lib.Arranged
import ClawKernel.Loop.Types

/-! The history kept in SQLite. A message crosses a row of texts, and a session is read
back in the order of the rows' times. The clock may read anything, also a time before
the epoch.
-/
namespace ClawKernel.Memory.History
open Lib.Arranged Lib.Json Provider.Types
open Loop.Types (AgentError)

structure HistoryRow where
  role : String
  content : String
  toolCallsJson : Option String
  deriving DecidableEq, Repr

structure StoredRow where
  namespaceName : String
  row : HistoryRow
  timestampMs : Int
  deriving DecidableEq, Repr

/-- `serde_json` on the tool calls of a message; `none` where it fails. -/
structure CallsJson where
  toString : List ToolCall → Option String
  fromStr : String → Option (List ToolCall)

def roleToStr : Role → String
  | .user => "user"
  | .assistant => "assistant"
  | .system => "system"
  | .tool => "tool"

def strToRole : String → Except AgentError Role
  | "user" => .ok .user
  | "assistant" => .ok .assistant
  | "system" => .ok .system
  | "tool" => .ok .tool
  | other => .error (.context ("unknown role in history: " ++ other))

/-- Milliseconds since the epoch as `i64`; a clock before the epoch counts as zero. -/
def clockMs : Option Nat → Int
  | some millis => (Int64.ofNat millis).toInt
  | none => 0

def messageRow (json : CallsJson) (message : Message) : HistoryRow :=
  ⟨roleToStr message.role,message.content,message.toolCalls.bind json.toString⟩

def rowToMessage (json : CallsJson) (row : HistoryRow) : Except AgentError Message := do
  let role ← strToRole row.role
  return ⟨role,row.content,row.toolCallsJson.bind json.fromStr,none⟩

def append (json : CallsJson) (table : List StoredRow) (session : String) (message : Message) (clock : Option Nat) :
    List StoredRow :=
  table ++ [⟨session,messageRow json message,clockMs clock⟩]

/-- `SELECT … WHERE namespace = ? ORDER BY timestamp_ms ASC`, which leaves the order of ties open. -/
def Selected (table : List StoredRow) (session : String) (rows : List StoredRow) : Prop :=
  Arranges StoredRow.timestampMs rows (table.filter (fun row => row.namespaceName = session))

def readMessages (json : CallsJson) (rows : List StoredRow) : Except AgentError (List Message) :=
  rows.mapM (fun stored => rowToMessage json stored.row)

/-- However SQLite orders ties, opening the session reads these messages. -/
def Opens (json : CallsJson) (table : List StoredRow) (session : String) (messages : List Message) : Prop :=
  ∀ rows, Selected table session rows → readMessages json rows = .ok messages

/-! The life of a database: appends of all its sessions. -/

structure Entry where
  session : String
  message : Message
  clock : Option Nat
  deriving DecidableEq, Repr

def Entry.time (entry : Entry) : Int := clockMs entry.clock

def written (json : CallsJson) (log : List Entry) : List StoredRow :=
  log.foldl (fun table entry => append json table entry.session entry.message entry.clock) []

def own (session : String) (log : List Entry) : List Entry := log.filter (fun entry => entry.session = session)

/-- The tool calls of a message are read back from their text. -/
def CallsRead (json : CallsJson) (message : Message) : Prop :=
  ∀ calls, message.toolCalls = some calls → (json.toString calls).bind json.fromStr = some calls

/-- Two messages may change places only if they are equal. -/
def InOrder (a b : Entry) : Prop := a.message = b.message ∨ a.time < b.time

def storedRow (json : CallsJson) (entry : Entry) : StoredRow :=
  ⟨entry.session,messageRow json entry.message,clockMs entry.clock⟩

/-- What a row keeps of a message. -/
def kept (entry : Entry) : Message := {entry.message with toolCallId := none}

theorem written_eq (json : CallsJson) (log : List Entry) : written json log = log.map (storedRow json) := by
  have all (table : List StoredRow) :
      log.foldl (fun table entry => append json table entry.session entry.message entry.clock) table =
        table ++ log.map (storedRow json) := by
    induction log generalizing table with
    | nil => exact (List.append_nil table).symm
    | cons entry rest ih =>
      rw [List.foldl_cons,ih,List.map_cons]
      exact List.append_assoc table _ _
  exact all []

theorem written_filter (json : CallsJson) (log : List Entry) (session : String) :
    (written json log).filter (fun row => row.namespaceName = session) = (own session log).map (storedRow json) := by
  rw [written_eq,List.filter_map]
  rfl

theorem strToRole_roleToStr (role : Role) : strToRole (roleToStr role) = .ok role := by
  cases role <;> rfl

theorem rowToMessage_kept (json : CallsJson) (entry : Entry) (read : CallsRead json entry.message) :
    rowToMessage json (storedRow json entry).row = .ok (kept entry) := by
  have calls : (entry.message.toolCalls.bind json.toString).bind json.fromStr = entry.message.toolCalls := by
    cases given : entry.message.toolCalls with
    | none => rfl
    | some calls => exact read calls given
  unfold rowToMessage storedRow messageRow kept
  dsimp only
  rw [strToRole_roleToStr,calls]
  rfl

theorem readMessages_kept (json : CallsJson) (entries : List Entry)
    (read : ∀ entry ∈ entries, CallsRead json entry.message) :
    readMessages json (entries.map (storedRow json)) = .ok (entries.map kept) := by
  induction entries with
  | nil => rfl
  | cons entry rest ih =>
    have later := ih (fun other member => read other (List.mem_cons_of_mem entry member))
    unfold readMessages at later ⊢
    rw [List.map_cons,List.mapM_cons,rowToMessage_kept json entry (read entry List.mem_cons_self),later]
    rfl

theorem perm_map {α β : Type} (f : α → β) (images : List β) (items : List α) (perm : images.Perm (items.map f)) :
    ∃ arranged : List α, images = arranged.map f ∧ arranged.Perm items := by
  have comp := congrFun (congrFun (List.eq_map_comp_perm f) images) items
  exact comp.mpr perm

/-- What opening a session reads, told by the entries of the log. -/
theorem opens_iff (json : CallsJson) (log : List Entry) (session : String) (messages : List Message)
    (read : ∀ entry ∈ log, CallsRead json entry.message) :
    Opens json (written json log) session messages ↔
      ∀ arranged : List Entry, Arranges Entry.time arranged (own session log) →
        arranged.map kept = messages := by
  have readable (arranged : List Entry) (perm : arranged.Perm (own session log)) :
      readMessages json (arranged.map (storedRow json)) = .ok (arranged.map kept) :=
    readMessages_kept json arranged (fun entry member => read entry (List.mem_of_mem_filter (perm.mem_iff.mp member)))
  unfold Opens Selected
  rw [written_filter]
  constructor
  · intro opens arranged arranges
    have rows := opens (arranged.map (storedRow json)) ⟨arranges.perm.map _,List.pairwise_map.mpr arranges.sorted⟩
    rw [readable arranged arranges.perm] at rows
    exact Except.ok.inj rows
  · intro reads rows ⟨perm,sorted⟩
    obtain ⟨arranged,rfl,same⟩ := perm_map _ _ _ perm
    rw [List.pairwise_map] at sorted
    rw [readable arranged same,reads arranged ⟨same,sorted⟩]

/-- Of the sessions' rows, one session's are not seen by the others. -/
theorem selected_apart (json : CallsJson) (log : List Entry) (session other : String) (apart : other ≠ session)
    (rows : List StoredRow) :
    Selected (written json log) other rows ↔
      Selected (written json (log.filter (fun entry => entry.session ≠ session))) other rows := by
  have same : own other (log.filter (fun entry => entry.session ≠ session)) = own other log := by
    unfold own
    rw [List.filter_filter]
    apply List.filter_congr
    intro entry _
    by_cases ours : entry.session = other
    · simp [ours,apart]
    · simp [ours]
  unfold Selected
  rw [written_filter,written_filter,same]

/-- At every moment of a database's life a session is read back as it was appended, exactly
when its messages carry no call id and those that differ are appended at later and later times. -/
theorem history_faithful_iff (json : CallsJson) (log : List Entry) (session : String)
    (read : ∀ entry ∈ log, CallsRead json entry.message) :
    ((∀ past, past <+: log → Opens json (written json past) session ((own session past).map Entry.message)) ∧
      ∀ other ≠ session, ∀ rows, Selected (written json log) other rows ↔
        Selected (written json (log.filter (fun entry => entry.session ≠ session))) other rows) ↔
    (∀ entry ∈ own session log, entry.message.toolCallId = none) ∧ (own session log).Pairwise InOrder := by
  have opens (past : List Entry) (part : past <+: log) :
      Opens json (written json past) session ((own session past).map Entry.message) ↔
        ∀ arranged : List Entry, Arranges Entry.time arranged (own session past) →
          arranged.map kept = (own session past).map Entry.message :=
    opens_iff json past session _ (fun entry member => read entry (part.subset member))
  have whole (plain : ∀ entry ∈ own session log, entry.message.toolCallId = none) (past : List Entry)
      (part : past <+: own session log) : past.map kept = past.map Entry.message := by
    apply List.map_congr_left
    intro entry member
    unfold kept
    rw [← plain entry (part.subset member)]
  have reads (plain : ∀ entry ∈ own session log, entry.message.toolCallId = none) :
      (∀ past, past <+: log → Opens json (written json past) session ((own session past).map Entry.message)) ↔
        ∀ past, past <+: own session log → ReadsBack Entry.time kept past := by
    constructor
    · intro each past part
      obtain ⟨past,long,rfl⟩ := List.prefix_filter_iff.mp part
      rw [ReadsBack,whole plain _ part]
      exact (opens past long).mp (each past long)
    · intro each past part
      have short : own session past <+: own session log := part.filter _
      rw [opens past part,← whole plain _ short]
      exact each _ short
  have order (plain : ∀ entry ∈ own session log, entry.message.toolCallId = none) :
      (own session log).Pairwise (Settled Entry.time kept) ↔
        (own session log).Pairwise InOrder := by
    have same (entry : Entry) (member : entry ∈ own session log) : kept entry = entry.message := by
      unfold kept
      rw [← plain entry member]
    refine List.Pairwise.iff_of_mem fun {a b} first second => ?_
    unfold Settled InOrder
    rw [same a first,same b second]
  constructor
  · rintro ⟨each,-⟩
    have plain : ∀ entry ∈ own session log, entry.message.toolCallId = none := by
      intro entry member
      obtain ⟨arranged,arranges⟩ := exists_arrangement Entry.time (own session log)
      have labels := (opens log List.prefix_rfl).mp (each log List.prefix_rfl) arranged arranges
      have inside : entry.message ∈ arranged.map kept := labels ▸ List.mem_map_of_mem member
      obtain ⟨source,-,same⟩ := List.mem_map.mp inside
      rw [← same]
      rfl
    exact ⟨plain,(order plain).mp ((readsBack_iff _).mp ((reads plain).mp each))⟩
  · rintro ⟨plain,ordered⟩
    exact ⟨(reads plain).mpr ((readsBack_iff _).mpr ((order plain).mpr ordered)),
      fun other apart rows => selected_apart json log session other apart rows⟩

/-! Short sessions, with a reader that knows one text. -/

def listFiles : ToolCall := ⟨"call-1","list_files","{}"⟩

def callsText (calls : List ToolCall) : String :=
  (Value.array (calls.map (fun call => .object
    [("id",.string call.id),("name",.string call.name),("arguments",.string call.arguments)]))).text

def listFilesJson : CallsJson where
  toString calls := some (callsText calls)
  fromStr text := if text = callsText [listFiles] then some [listFiles] else none

def asking : List Entry :=
  [⟨"main",.user "what is here?",some 1⟩,⟨"other",.user "hello",some 2⟩,
    ⟨"main",⟨.assistant,"",some [listFiles],none⟩,some 2⟩]

theorem asking_read : ∀ entry ∈ asking, CallsRead listFilesJson entry.message := by
  unfold asking
  rintro entry member calls given
  simp only [List.mem_cons,List.not_mem_nil,or_false] at member
  rcases member with rfl | rfl | rfl
  · cases given
  · cases given
  · cases given
    change (if callsText [listFiles] = callsText [listFiles] then some [listFiles] else none) = some [listFiles]
    exact if_pos rfl

theorem history_faithful_asking :
    (∀ past, past <+: asking → Opens listFilesJson (written listFilesJson past) "main" ((own "main" past).map Entry.message)) ∧
      ∀ other ≠ "main", ∀ rows, Selected (written listFilesJson asking) other rows ↔
        Selected (written listFilesJson (asking.filter (fun entry => entry.session ≠ "main"))) other rows :=
  (history_faithful_iff listFilesJson asking "main" asking_read).mpr ⟨by decide,by unfold InOrder; decide⟩

/-- A result comes back without the id of its call, and two messages of one millisecond
may come back in either order. -/
theorem history_unfaithful :
    ¬Opens listFilesJson (written listFilesJson [⟨"main",.toolResult "call-1" "[]",some 1⟩]) "main"
        [.toolResult "call-1" "[]"] ∧
    ¬Opens listFilesJson (written listFilesJson [⟨"main",.user "hi",some 1⟩,⟨"main",.assistant "hello",some 1⟩]) "main"
        [.user "hi",.assistant "hello"] := by
  constructor
  · intro opens
    have read := opens (written listFilesJson [⟨"main",.toolResult "call-1" "[]",some 1⟩]) ⟨.refl _,by decide⟩
    exact absurd (congrArg Except.toOption read) (by decide)
  · intro opens
    have read := opens (written listFilesJson [⟨"main",.assistant "hello",some 1⟩,⟨"main",.user "hi",some 1⟩])
      ⟨.swap _ _ _,by decide⟩
    exact absurd (congrArg Except.toOption read) (by decide)

end ClawKernel.Memory.History
