import ClawKernel.Lib.Json
import ClawKernel.Lib.Runs
import ClawKernel.Lib.Utf8
import Mathlib.Data.List.Flatten
import Mathlib.Data.Nat.Basic
import Mathlib.Data.String.Basic

/-! The audit log: how an event becomes a line, and the writer task that buffers lines,
flushes them to the log file and renames the file when it grows too large. The HMAC crate
is the parameter `hmac` (key, then message); file operations succeed.
-/
namespace ClawKernel.Tools.Audit
open Lib Lib.Runs

abbrev Bytes := List UInt8

/-- What an event carries beyond its time and agent, variant by variant. -/
inductive Detail where
  | toolCall (toolName : String) (args : Option Json.Value)
  | toolResult (toolName : String) (success : Bool) (durationMs : Nat) (errorCode : Option String)
  | permissionCheck (toolName permission : String) (granted : Bool)
  | modeSwitch (fromMode toMode reason : String)
  | agentSpawned (agentName restartPolicy : String)
  | scriptFsRead (path : String) (bytes : Nat)
  | scriptFsWrite (path : String) (bytes : Nat)
  | scriptFsGlob (pattern : String) (found : Nat)
  | securityModeEntered (powerKeyHashPrefix : String)
  | securityModeExited (durationMs : Nat)

/-- Every variant of the source starts with these two fields. -/
structure AuditEvent where
  timestampMs : Nat
  agentId : String
  detail : Detail

def AuditEvent.eventType (event : AuditEvent) : String :=
  match event.detail with
  | .toolCall .. => "TOOL_CALL"
  | .toolResult .. => "TOOL_RESULT"
  | .permissionCheck .. => "PERMISSION_CHECK"
  | .modeSwitch .. => "MODE_SWITCH"
  | .agentSpawned .. => "AGENT_SPAWNED"
  | .scriptFsRead .. => "SCRIPT_FS_READ"
  | .scriptFsWrite .. => "SCRIPT_FS_WRITE"
  | .scriptFsGlob .. => "SCRIPT_FS_GLOB"
  | .securityModeEntered .. => "SECURITY_MODE_ENTERED"
  | .securityModeExited .. => "SECURITY_MODE_EXITED"

def natural (n : Nat) : Json.Value := .integer n

def optional (value : Option Json.Value) : Json.Value := value.getD .null

/-- The variant's name in snake case and its own fields, in the order of the source. -/
def Detail.members : Detail → String × List (String × Json.Value)
  | .toolCall toolName args => ("tool_call",[("tool_name",.string toolName),("args",optional args)])
  | .toolResult toolName success durationMs errorCode =>
    ("tool_result",[("tool_name",.string toolName),("success",.bool success),("duration_ms",natural durationMs),
      ("error_code",optional (errorCode.map .string))])
  | .permissionCheck toolName permission granted =>
    ("permission_check",[("tool_name",.string toolName),("permission",.string permission),("granted",.bool granted)])
  | .modeSwitch fromMode toMode reason =>
    ("mode_switch",[("from_mode",.string fromMode),("to_mode",.string toMode),("reason",.string reason)])
  | .agentSpawned agentName restartPolicy =>
    ("agent_spawned",[("agent_name",.string agentName),("restart_policy",.string restartPolicy)])
  | .scriptFsRead path bytes => ("script_fs_read",[("path",.string path),("bytes",natural bytes)])
  | .scriptFsWrite path bytes => ("script_fs_write",[("path",.string path),("bytes",natural bytes)])
  | .scriptFsGlob pattern found => ("script_fs_glob",[("pattern",.string pattern),("matches",natural found)])
  | .securityModeEntered powerKeyHashPrefix =>
    ("security_mode_entered",[("power_key_hash_prefix",.string powerKeyHashPrefix)])
  | .securityModeExited durationMs => ("security_mode_exited",[("duration_ms",natural durationMs)])

/-- The event as it is written out, its fields in the order of the source. -/
def AuditEvent.toValue (event : AuditEvent) : Json.Value :=
  .object [(event.detail.members.1,.object
    (("timestamp_ms",natural event.timestampMs) :: ("agent_id",.string event.agentId) :: event.detail.members.2))]

/-- `Map::insert` of serde's map, which has its entries by key. -/
def insertMember (name : String) (value : Json.Value) : List (String × Json.Value) → List (String × Json.Value)
  | [] => [(name,value)]
  | first :: rest =>
    if name = first.1 then (name,value) :: rest
    else if name < first.1 then (name,value) :: first :: rest
    else first :: insertMember name value rest

def mapOf (members : List (String × Json.Value)) : List (String × Json.Value) :=
  members.foldl (fun map member => insertMember member.1 member.2 map) []

/-- `serde_json::to_value`: the variant's fields stand in a map. Arguments are such values already. -/
def AuditEvent.toMap (event : AuditEvent) : Json.Value :=
  .object (mapOf [(event.detail.members.1,.object (mapOf
    (("timestamp_ms",natural event.timestampMs) :: ("agent_id",.string event.agentId) :: event.detail.members.2)))])

def isLeapYear (year : Nat) : Bool :=
  (year % 4 == 0 && year % 100 != 0) || year % 400 == 0

def daysInMonth (year month : Nat) : Nat :=
  if month = 2 ∧ isLeapYear year then 29
  else [31,28,31,30,31,30,31,31,30,31,30,31].getD (month - 1) 0

/-- The loop over years; every turn takes at least one of the remaining days. -/
def yearFrom : Nat → Nat → Nat → Nat × Nat
  | 0, days, year => (year,days)
  | fuel + 1, days, year =>
    let daysInYear := if isLeapYear year then 366 else 365
    if days < daysInYear then (year,days) else yearFrom fuel (days - daysInYear) (year + 1)

def monthFrom (year : Nat) : Nat → Nat → Nat → Nat × Nat
  | 0, days, month => (month,days)
  | fuel + 1, days, month =>
    if days < daysInMonth year month then (month,days)
    else monthFrom year fuel (days - daysInMonth year month) (month + 1)

def padded (width n : Nat) : List Char :=
  List.replicate (width - (toString n).length) '0' ++ (toString n).toList

def formatTimestamp (timestampMs : Nat) : List Char :=
  let secs := timestampMs / 1000
  let minutes := secs / 60
  let hours := minutes / 60
  let days := hours / 24
  let (year,ofYear) := yearFrom days days 1970
  let (month,ofMonth) := monthFrom year 12 ofYear 1
  padded 4 year ++ '-' :: padded 2 month ++ '-' :: padded 2 (ofMonth + 1) ++
    'T' :: padded 2 (hours % 24) ++ ':' :: padded 2 (minutes % 60) ++ ':' :: padded 2 (secs % 60) ++ ['Z']

def hexEncode (bytes : Bytes) : List Char :=
  bytes.flatMap (fun byte => [Json.hexDigit (byte.toNat / 16),Json.hexDigit (byte.toNat % 16)])

structure AuditLogConfig where
  maxMemoryEntries : Nat
  maxFileSizeBytes : Nat
  hmacKey : Option Bytes

/-- What `format_event` appends to the buffer. -/
def formatEvent (hmac : Bytes → Bytes → Bytes) (hmacKey : Option Bytes) (event : AuditEvent) : Bytes :=
  match hmacKey with
  | some key =>
    let payloadJson := event.toValue.chars
    let sigHex := hexEncode (hmac key (Utf8.encode payloadJson))
    Utf8.encode (Json.Value.object [("payload",.string (String.ofList payloadJson)),
      ("signature",.string (String.ofList sigHex))]).chars ++ [10]
  | none =>
    match event.toMap with
    | .object members =>
      let typed := insertMember "event_type" (.string event.eventType) members
      let dated := insertMember "timestamp_utc" (.string (String.ofList (formatTimestamp event.timestampMs))) typed
      Utf8.encode (Json.Value.object dated).chars ++ [10]
    | _ =>
      Utf8.encode (formatTimestamp event.timestampMs ++ " [".toList ++ event.eventType.toList ++
        "] agent_id=".toList ++ event.agentId.toList) ++ [10]

example : formatTimestamp 1709210096789 = "2024-02-29T12:34:56Z".toList := by decide

theorem insertMember_ordered (name : String) (value : Json.Value) (map : List (String × Json.Value))
    (ordered : map.Pairwise (fun a b => a.1 < b.1)) :
    (insertMember name value map).Pairwise (fun a b => a.1 < b.1) ∧
      ∀ member ∈ insertMember name value map, member.1 = name ∨ member ∈ map := by
  induction map with
  | nil => exact ⟨List.pairwise_singleton _ _,fun member inside => .inl (congrArg Prod.fst (List.mem_singleton.mp inside))⟩
  | cons first rest ih =>
    obtain ⟨least,later⟩ := List.pairwise_cons.mp ordered
    obtain ⟨sorted,known⟩ := ih later
    rw [insertMember]
    split_ifs with same less
    · refine ⟨List.pairwise_cons.mpr ⟨fun member inside => same ▸ least member inside,later⟩,fun member inside => ?_⟩
      rcases List.mem_cons.mp inside with rfl | inside
      · exact .inl rfl
      · exact .inr (List.mem_cons_of_mem first inside)
    · refine ⟨List.pairwise_cons.mpr ⟨fun member inside => ?_,ordered⟩,fun member inside => ?_⟩
      · rcases List.mem_cons.mp inside with rfl | inside
        · exact less
        · exact lt_trans less (least member inside)
      · rcases List.mem_cons.mp inside with rfl | inside
        · exact .inl rfl
        · exact .inr inside
    · refine ⟨List.pairwise_cons.mpr ⟨fun member inside => ?_,sorted⟩,fun member inside => ?_⟩
      · rcases known member inside with named | inside
        · exact named ▸ lt_of_le_of_ne (not_lt.mp less) (fun clash => same clash.symm)
        · exact least member inside
      · rcases List.mem_cons.mp inside with rfl | inside
        · exact .inr List.mem_cons_self
        · exact (known member inside).imp_right (List.mem_cons_of_mem first)

/-- Maps have their entries by key, each key once. -/
theorem mapOf_ordered (members : List (String × Json.Value)) : (mapOf members).Pairwise (fun a b => a.1 < b.1) := by
  have inserts (map : List (String × Json.Value)) (ordered : map.Pairwise (fun a b => a.1 < b.1)) :
      (members.foldl (fun map member => insertMember member.1 member.2 map) map).Pairwise (fun a b => a.1 < b.1) := by
    induction members generalizing map with
    | nil => exact ordered
    | cons member rest ih => exact ih _ (insertMember_ordered member.1 member.2 map ordered).1
  exact inserts [] List.Pairwise.nil

example : formatEvent (fun _ _ => []) none ⟨0,"a1",.toolCall "ls" none⟩ = Utf8.encode
    ("\x7b\"event_type\":\"TOOL_CALL\",\"timestamp_utc\":\"1970-01-01T00:00:00Z\"," ++
      "\"tool_call\":\x7b\"agent_id\":\"a1\",\"args\":null,\"timestamp_ms\":0,\"tool_name\":\"ls\"\x7d\x7d\n").toList := by
  decide +kernel

def channelCapacity : Nat := 10000

/-- A file `audit.log.<secs>`, named by the second of the rotation that wrote it. -/
structure Rotated where
  secs : Nat
  content : Bytes
  deriving DecidableEq, Repr

/-- The writer with its channel and the files of its directory; `rotated` is in the order
of the rotations, and `received` are the events taken from the channel so far. -/
structure Writer (Event : Type) where
  channel : List Event
  buffer : Bytes
  currentFileSize : Nat
  log : Bytes
  rotated : List Rotated
  store : List Event
  received : List Event

inductive Step (Event : Type) where
  | send (event : Event)
  | receive (now : Nat)
  | flushTick

section Writer
variable {Event : Type} (line : Event → Bytes) (config : AuditLogConfig)

/-- `run` before its loop: earlier rotations and a log file may stand in the directory. -/
def start (earlier : List Rotated) (log : Bytes) : Writer Event where
  channel := []
  buffer := []
  currentFileSize := log.length
  log := log
  rotated := earlier
  store := []
  received := []

/-- The handle's `try_send`: an event that finds the channel full is dropped there. -/
def send (s : Writer Event) (event : Event) : Writer Event :=
  if s.channel.length < channelCapacity then { s with channel := s.channel ++ [event] } else s

def pushStore (maxEntries : Nat) (entries : List Event) (event : Event) : List Event :=
  (if maxEntries ≤ entries.length then entries.tail else entries) ++ [event]

/-- `rename` puts the log file in the place of a file of the new name. -/
def rename (rotated : List Rotated) (secs : Nat) (content : Bytes) : List Rotated :=
  rotated.filter (fun file => decide (file.secs ≠ secs)) ++ [⟨secs,content⟩]

/-- Whether the event's line takes the log above its limit. -/
def Rotates (s : Writer Event) (event : Event) : Prop :=
  config.maxFileSizeBytes < s.currentFileSize + (s.buffer ++ line event).length

instance (s : Writer Event) (event : Event) : Decidable (Rotates line config s event) :=
  inferInstanceAs (Decidable (_ < _))

def receive (s : Writer Event) (now : Nat) : Writer Event :=
  match s.channel with
  | [] => s
  | event :: waiting =>
    let taken := { s with
      channel := waiting
      store := pushStore config.maxMemoryEntries s.store event
      received := s.received ++ [event] }
    if Rotates line config s event then
      { taken with
        buffer := []
        currentFileSize := 0
        log := []
        rotated := rename s.rotated now (s.log ++ (s.buffer ++ line event)) }
    else { taken with buffer := s.buffer ++ line event }

def flushTick (s : Writer Event) : Writer Event :=
  if s.buffer.isEmpty then s
  else
    { s with
      log := s.log ++ s.buffer
      currentFileSize := s.currentFileSize + s.buffer.length
      buffer := [] }

def step (s : Writer Event) : Step Event → Writer Event
  | .send event => send s event
  | .receive now => receive line config s now
  | .flushTick => flushTick s

/-- The rotated files in rotation order, the current file, the unflushed buffer. -/
def contents (s : Writer Event) : Bytes :=
  s.rotated.flatMap Rotated.content ++ s.log ++ s.buffer

/-- Nothing is lost: the directory held `before` when the writer started. -/
def Kept (before : Bytes) (s : Writer Event) : Prop :=
  contents s = before ++ s.received.flatMap line

instance (before : Bytes) (s : Writer Event) : Decidable (Kept line before s) :=
  inferInstanceAs (Decidable (_ = _))

/-- The step renames no log file onto a rotated file that holds anything. -/
def Fresh (s : Writer Event) : Step Event → Prop
  | .receive now =>
    ∀ event, s.channel.head? = some event → Rotates line config s event →
      ∀ file ∈ s.rotated, file.secs = now → file.content = []
  | _ => True

theorem flatMap_filter_eq_iff (keep : Rotated → Bool) (files : List Rotated) :
    (files.filter keep).flatMap Rotated.content = files.flatMap Rotated.content ↔
      ∀ file ∈ files, keep file = false → file.content = [] := by
  induction files with
  | nil => exact ⟨fun _ file member => absurd member List.not_mem_nil,fun _ => rfl⟩
  | cons first rest ih =>
    rw [List.forall_mem_cons,← ih,List.filter_cons]
    cases kept : keep first with
    | true =>
      rw [if_pos rfl,List.flatMap_cons,List.flatMap_cons,List.append_cancel_left_eq]
      exact ⟨fun same => ⟨fun dropped => Bool.noConfusion dropped,same⟩,fun both => both.2⟩
    | false =>
      rw [if_neg Bool.false_ne_true,List.flatMap_cons]
      have shorter : ((rest.filter keep).flatMap Rotated.content).length ≤
          (rest.flatMap Rotated.content).length :=
        (List.filter_sublist.flatMap Rotated.content).length_le
      constructor
      · intro same
        have sizes := congrArg List.length same
        rw [List.length_append] at sizes
        have empty : first.content = [] := List.length_eq_zero_iff.mp (by omega)
        rw [empty,List.nil_append] at same
        exact ⟨fun _ => empty,same⟩
      · intro both
        rw [both.1 rfl,List.nil_append]
        exact both.2

theorem rename_contents (rotated : List Rotated) (secs : Nat) (content : Bytes) :
    (rename rotated secs content).flatMap Rotated.content = rotated.flatMap Rotated.content ++ content ↔
      ∀ file ∈ rotated, file.secs = secs → file.content = [] := by
  rw [rename,List.flatMap_append,List.flatMap_cons,List.flatMap_nil,List.append_nil,
    List.append_cancel_right_eq,flatMap_filter_eq_iff]
  simp only [decide_eq_false_iff_not,not_not,ne_eq]

theorem receive_kept_iff (before : Bytes) (s : Writer Event) (now : Nat) (kept : Kept line before s) :
    Kept line before (receive line config s now) ↔ Fresh line config s (.receive now) := by
  unfold receive
  cases waiting : s.channel with
  | nil =>
    refine ⟨fun _ event first => ?_,fun _ => kept⟩
    rw [waiting] at first
    cases first
  | cons event later =>
    have all : s.rotated.flatMap Rotated.content ++ (s.log ++ (s.buffer ++ line event)) =
        before ++ (s.received ++ [event]).flatMap line := by
      rw [List.flatMap_append,List.flatMap_cons,List.flatMap_nil,List.append_nil,← List.append_assoc before,
        ← kept,contents]
      simp only [List.append_assoc]
    have fresh : Fresh line config s (.receive now) ↔
        (Rotates line config s event → ∀ file ∈ s.rotated, file.secs = now → file.content = []) := by
      unfold Fresh
      rw [waiting]
      exact ⟨fun any => any event rfl,fun this other first => Option.some.inj first ▸ this⟩
    rw [fresh]
    simp only
    split_ifs with rotates
    · simp only [Kept,contents,List.append_nil]
      rw [← all,rename_contents]
      exact ⟨fun empty _ => empty,fun given => given rotates⟩
    · simp only [Kept,contents]
      rw [← all]
      simp only [List.append_assoc]
      exact ⟨fun _ absent => absurd absent rotates,fun _ => True.intro⟩

theorem flushTick_contents (s : Writer Event) : contents (flushTick s) = contents s := by
  unfold flushTick
  split_ifs
  · rfl
  · simp only [contents,List.append_assoc,List.append_nil]

theorem flushTick_received (s : Writer Event) : (flushTick s).received = s.received := by
  unfold flushTick
  split_ifs
  · rfl
  · rfl

theorem step_kept_iff (before : Bytes) (s : Writer Event) (i : Step Event) (kept : Kept line before s) :
    Kept line before (step line config s i) ↔ Fresh line config s i := by
  cases i with
  | send event =>
    have same : Kept line before (send s event) := by
      unfold send
      split_ifs
      · exact kept
      · exact kept
    exact ⟨fun _ => True.intro,fun _ => same⟩
  | receive now => exact receive_kept_iff line config before s now kept
  | flushTick =>
    have same : Kept line before (flushTick s) := by
      rw [Kept,flushTick_contents,flushTick_received]
      exact kept
    exact ⟨fun _ => True.intro,fun _ => same⟩

theorem run_kept_iff (earlier : List Rotated) (log : Bytes) (steps : List (Step Event)) :
    Always (step line config) (Kept line (earlier.flatMap Rotated.content ++ log)) (start earlier log) steps ↔
      Along (step line config) (Fresh line config) (start earlier log) steps := by
  apply always_iff_along (step line config) (Fresh line config) _ (fun _ => True) (fun _ => True)
  · exact fun _ _ _ _ => True.intro
  · exact fun s i _ _ kept => step_kept_iff line config _ s i kept
  · exact fun _ _ => True.intro
  · exact True.intro
  · simp only [Kept,contents,start,List.flatMap_nil,List.append_nil]

/-- The counted size is the file's, so every file this writer renames holds something:
its size and the buffer are above a limit. -/
structure Counted (s : Writer Event) : Prop where
  size : s.currentFileSize = s.log.length
  nonempty : ∀ file ∈ s.rotated, file.content ≠ []

theorem step_counted (s : Writer Event) (i : Step Event) (counted : Counted s) :
    Counted (step line config s i) := by
  cases i with
  | send event =>
    change Counted (send s event)
    unfold send
    split_ifs
    · exact ⟨counted.size,counted.nonempty⟩
    · exact counted
  | receive now =>
    change Counted (receive line config s now)
    unfold receive
    cases s.channel with
    | nil => exact counted
    | cons event later =>
      simp only
      split_ifs with rotates
      · refine ⟨rfl,?_⟩
        intro file member
        cases List.mem_append.mp member with
        | inl older => exact counted.nonempty file (List.mem_filter.mp older).1
        | inr newest =>
          rw [List.mem_singleton.mp newest]
          apply List.ne_nil_of_length_pos
          rw [Rotates,counted.size] at rotates
          rw [List.length_append]
          omega
      · exact ⟨counted.size,counted.nonempty⟩
  | flushTick =>
    change Counted (flushTick s)
    unfold flushTick
    split_ifs
    · exact counted
    · refine ⟨?_,counted.nonempty⟩
      simp only [List.length_append,counted.size]

/-- The step renames no log file to the name of a rotated file. -/
def Apart (s : Writer Event) : Step Event → Prop
  | .receive now =>
    ∀ event, s.channel.head? = some event → Rotates line config s event → ∀ file ∈ s.rotated, file.secs ≠ now
  | _ => True

theorem fresh_iff (s : Writer Event) (i : Step Event) (counted : Counted s) :
    Fresh line config s i ↔ Apart line config s i := by
  cases i with
  | send event => exact Iff.rfl
  | flushTick => exact Iff.rfl
  | receive now =>
    constructor
    · intro fresh event first rotates file member same
      exact counted.nonempty file member (fresh event first rotates file member same)
    · intro apart event first rotates file member same
      exact absurd same (apart event first rotates file member)

/-- Over a directory without rotated files the condition is about names alone: no
rotation takes the second of an earlier one. -/
theorem new_directory_kept_iff (log : Bytes) (steps : List (Step Event)) :
    Always (step line config) (Kept line log) (start [] log) steps ↔
      Along (step line config) (Apart line config) (start [] log) steps := by
  apply always_iff_along (step line config) (Apart line config) _ Counted (fun _ => True)
  · exact fun s i counted _ => step_counted line config s i counted
  · intro s i counted _ kept
    rw [step_kept_iff line config log s i kept]
    exact fresh_iff line config s i counted
  · exact fun _ _ => True.intro
  · exact ⟨rfl,fun _ member => absurd member List.not_mem_nil⟩
  · simp only [Kept,contents,start,List.flatMap_nil,List.append_nil,List.nil_append]

end Writer

section Events
variable (hmac : Bytes → Bytes → Bytes) (config : AuditLogConfig)

def formatted (event : AuditEvent) : Bytes := formatEvent hmac config.hmacKey event

theorem no_event_lost_iff (earlier : List Rotated) (log : Bytes) (steps : List (Step AuditEvent)) :
    Always (step (formatted hmac config) config)
        (Kept (formatted hmac config) (earlier.flatMap Rotated.content ++ log)) (start earlier log) steps ↔
      Along (step (formatted hmac config) config) (Fresh (formatted hmac config) config) (start earlier log) steps :=
  run_kept_iff (formatted hmac config) config earlier log steps

end Events

def toolCalled (tool : String) : AuditEvent := ⟨0,"a1",.toolCall tool none⟩

/-- Two rotations within one second: the second rename replaces the first file. -/
theorem rotations_of_one_second_lose :
    ¬Kept (formatted (fun _ _ => []) ⟨1000,100,none⟩) []
      (run (step (formatted (fun _ _ => []) ⟨1000,100,none⟩) ⟨1000,100,none⟩) (start [] [])
        [.send (toolCalled "echo"),.receive 1700000000,.send (toolCalled "ls"),.receive 1700000000]) := by
  decide +kernel

end ClawKernel.Tools.Audit
