import ClawKernel.Lib.Pieces
import ClawKernel.Lib.Serde
import ClawKernel.Lib.Transcoding
import ClawKernel.Tools.Audit

/-! Signed audit records read back: the line of an event, the record in it, the payload of the record
and the event that the payload is of. The parser of JSON texts is the parameter `fromSlice`.
-/
namespace ClawKernel.Tools.SignedRecords
open Lib Lib.Pieces Lib.Serde
open Audit

/-- Numbers fit their types and arguments are a value, whose objects name no member twice. -/
def Fits : Detail → Prop
  | .toolCall _ args => ∀ value, args = some value → Unique value
  | .toolResult _ _ durationMs _ => durationMs < 2 ^ 64
  | .scriptFsRead _ bytes => bytes < 2 ^ 64
  | .scriptFsWrite _ bytes => bytes < 2 ^ 64
  | .scriptFsGlob _ found => found < 2 ^ 64
  | .securityModeExited durationMs => durationMs < 2 ^ 64
  | _ => True

/-- An event as its type has it. -/
structure Typed where
  event : AuditEvent
  timestamp : event.timestampMs < 2 ^ 64
  fits : Fits event.detail

/-! Reading: what is derived for `AuditEvent`. -/

def flag : Decoder Bool
  | .bool value => some value
  | _ => none

section Fields
variable (field : String → Option Json.Value)

def toolCall : Option Detail := do
  let toolName ← (field "tool_name").bind text
  let args ← missable any (field "args")
  return .toolCall toolName (args.map Any.tree)

def toolResult : Option Detail := do
  let toolName ← (field "tool_name").bind text
  let success ← (field "success").bind flag
  let durationMs ← (field "duration_ms").bind (unsigned 64)
  let errorCode ← missable text (field "error_code")
  return .toolResult toolName success durationMs errorCode

def permissionCheck : Option Detail := do
  let toolName ← (field "tool_name").bind text
  let permission ← (field "permission").bind text
  let granted ← (field "granted").bind flag
  return .permissionCheck toolName permission granted

def modeSwitch : Option Detail := do
  let fromMode ← (field "from_mode").bind text
  let toMode ← (field "to_mode").bind text
  let reason ← (field "reason").bind text
  return .modeSwitch fromMode toMode reason

def agentSpawned : Option Detail := do
  let agentName ← (field "agent_name").bind text
  let restartPolicy ← (field "restart_policy").bind text
  return .agentSpawned agentName restartPolicy

def scriptFsRead : Option Detail := do
  let path ← (field "path").bind text
  let bytes ← (field "bytes").bind (unsigned 64)
  return .scriptFsRead path bytes

def scriptFsWrite : Option Detail := do
  let path ← (field "path").bind text
  let bytes ← (field "bytes").bind (unsigned 64)
  return .scriptFsWrite path bytes

def scriptFsGlob : Option Detail := do
  let pattern ← (field "pattern").bind text
  let found ← (field "matches").bind (unsigned 64)
  return .scriptFsGlob pattern found

def securityModeEntered : Option Detail := do
  let powerKeyHashPrefix ← (field "power_key_hash_prefix").bind text
  return .securityModeEntered powerKeyHashPrefix

def securityModeExited : Option Detail := do
  let durationMs ← (field "duration_ms").bind (unsigned 64)
  return .securityModeExited durationMs

end Fields

def content (names : List String) (own : (String → Option Json.Value) → Option Detail) : Decoder AuditEvent :=
  fun tree => do
    let field ← fields ("timestamp_ms" :: "agent_id" :: names) tree
    let timestampMs ← (field "timestamp_ms").bind (unsigned 64)
    let agentId ← (field "agent_id").bind text
    let detail ← own field
    return ⟨timestampMs,agentId,detail⟩

def contents : List (String × Decoder AuditEvent) :=
  [("tool_call",content ["tool_name","args"] toolCall),
    ("tool_result",content ["tool_name","success","duration_ms","error_code"] toolResult),
    ("permission_check",content ["tool_name","permission","granted"] permissionCheck),
    ("mode_switch",content ["from_mode","to_mode","reason"] modeSwitch),
    ("agent_spawned",content ["agent_name","restart_policy"] agentSpawned),
    ("script_fs_read",content ["path","bytes"] scriptFsRead),
    ("script_fs_write",content ["path","bytes"] scriptFsWrite),
    ("script_fs_glob",content ["pattern","matches"] scriptFsGlob),
    ("security_mode_entered",content ["power_key_hash_prefix"] securityModeEntered),
    ("security_mode_exited",content ["duration_ms"] securityModeExited)]

/-- A variant is an object of one member, which its name stands for. -/
def auditEvent : Decoder AuditEvent
  | .object [(name,tree)] => (contents.lookup name).bind (fun decode => decode tree)
  | _ => none

/-! What is written is read back, but for arguments that are null. -/

/-- What is read for a detail. -/
def reread : Detail → Detail
  | .toolCall toolName (some .null) => .toolCall toolName none
  | detail => detail

def Nulls (detail : Detail) : Prop := ∃ toolName, detail = .toolCall toolName (some .null)

theorem reread_eq (detail : Detail) : reread detail = detail ↔ ¬Nulls detail := by
  constructor
  · rintro same ⟨toolName,rfl⟩
    cases same
  · intro other
    unfold reread
    split
    · rename_i toolName
      exact (other ⟨toolName,rfl⟩).elim
    · rfl

/-- The members of an event's object. -/
def members (timestampMs : Nat) (agentId : String) (detail : Detail) : List (String × Json.Value) :=
  ("timestamp_ms",natural timestampMs) :: ("agent_id",.string agentId) :: detail.members.2

/-- A variant is read back where its own fields are. -/
theorem variant_eq (timestampMs : Nat) (agentId : String) (detail : Detail) (names : List String)
    (own : (String → Option Json.Value) → Option Detail) (fits : timestampMs < 2 ^ 64)
    (known : contents.lookup detail.members.1 = some (content names own)) (same : keys detail.members.2 = names)
    (distinct : ("timestamp_ms" :: "agent_id" :: names).Nodup)
    (reads : own (fun name => (members timestampMs agentId detail).lookup name) = some (reread detail)) :
    auditEvent (AuditEvent.toValue ⟨timestampMs,agentId,detail⟩) = some ⟨timestampMs,agentId,reread detail⟩ := by
  subst same
  have whole := fields_eq ("timestamp_ms" :: "agent_id" :: keys detail.members.2) (members timestampMs agentId detail)
    distinct
  unfold members at whole reads
  unfold auditEvent AuditEvent.toValue
  simp only [known,Option.bind_some]
  unfold content
  rw [whole,Option.bind_eq_bind,Option.bind_some,reads]
  simp only [List.lookup_cons,String.reduceBEq,Option.bind_some,Option.bind_eq_bind,natural,unsigned_eq 64 _ fits,text]
  rfl

theorem optional_text (value : Option String) : missable text (some (Audit.optional (value.map .string))) = some value := by
  cases value with
  | none => rfl
  | some text => rfl

theorem args_eq (args : Option Json.Value) (unique : ∀ value, args = some value → Unique value) (toolName : String) :
    (missable any (some (Audit.optional args))).bind (fun read => some (Detail.toolCall toolName (read.map Any.tree))) =
      some (reread (.toolCall toolName args)) := by
  cases args with
  | none => rfl
  | some value =>
    have same := settle_eq value (unique value rfl)
    cases value with
    | null => rfl
    | _ => exact congrArg (fun tree => some (Detail.toolCall toolName (some tree))) same

theorem number_eq (n : Nat) (fits : n < 2 ^ 64) (wrap : Nat → Detail) :
    (unsigned 64 (natural n)).bind (fun read => some (wrap read)) = some (wrap n) := by
  rw [natural,unsigned_eq 64 n fits,Option.bind_some]

theorem result_eq (toolName : String) (success : Bool) (durationMs : Nat) (errorCode : Option String)
    (fits : durationMs < 2 ^ 64) :
    (unsigned 64 (natural durationMs)).bind (fun read =>
      (missable text (some (Audit.optional (errorCode.map .string)))).bind (fun code =>
        some (Detail.toolResult toolName success read code))) = some (.toolResult toolName success durationMs errorCode) := by
  rw [natural,unsigned_eq 64 durationMs fits,Option.bind_some,optional_text,Option.bind_some]

theorem auditEvent_eq (e : Typed) :
    auditEvent e.event.toValue = some { e.event with detail := reread e.event.detail } := by
  obtain ⟨⟨timestampMs,agentId,detail⟩,timestamp,fits⟩ := e
  cases detail with
  | toolCall toolName args =>
    refine variant_eq timestampMs agentId _ _ _ timestamp rfl rfl (by decide) ?_
    exact args_eq args fits toolName
  | toolResult toolName success durationMs errorCode =>
    refine variant_eq timestampMs agentId _ _ _ timestamp rfl rfl (by decide) ?_
    exact result_eq toolName success durationMs errorCode fits
  | permissionCheck toolName permission granted =>
    exact variant_eq timestampMs agentId _ _ _ timestamp rfl rfl (by decide) rfl
  | modeSwitch fromMode toMode reason =>
    exact variant_eq timestampMs agentId _ _ _ timestamp rfl rfl (by decide) rfl
  | agentSpawned agentName restartPolicy =>
    exact variant_eq timestampMs agentId _ _ _ timestamp rfl rfl (by decide) rfl
  | scriptFsRead path bytes =>
    refine variant_eq timestampMs agentId _ _ _ timestamp rfl rfl (by decide) ?_
    exact number_eq bytes fits (Detail.scriptFsRead path)
  | scriptFsWrite path bytes =>
    refine variant_eq timestampMs agentId _ _ _ timestamp rfl rfl (by decide) ?_
    exact number_eq bytes fits (Detail.scriptFsWrite path)
  | scriptFsGlob pattern found =>
    refine variant_eq timestampMs agentId _ _ _ timestamp rfl rfl (by decide) ?_
    exact number_eq found fits (Detail.scriptFsGlob pattern)
  | securityModeEntered powerKeyHashPrefix =>
    exact variant_eq timestampMs agentId _ _ _ timestamp rfl rfl (by decide) rfl
  | securityModeExited durationMs =>
    refine variant_eq timestampMs agentId _ _ _ timestamp rfl rfl (by decide) ?_
    exact number_eq durationMs fits Detail.securityModeExited

/-! The line of a record. -/

theorem escape_line (c : Char) : '\n' ∉ Json.escape c := by
  have digit : ∀ n < 16, Json.hexDigit n ≠ '\n' := by decide
  unfold Json.escape
  split_ifs with quote slash newline carriage tab back feed control
  · decide
  · decide
  · decide
  · decide
  · decide
  · decide
  · decide
  · have high := digit (c.toNat / 16) (by omega)
    have low := digit (c.toNat % 16) (by omega)
    simp [high.symm,low.symm]
  · simpa using Ne.symm newline

theorem quoted_line (text : String) : '\n' ∉ Json.quoted text := by
  unfold Json.quoted
  simp only [List.mem_append,List.mem_cons,List.mem_flatMap,List.not_mem_nil,or_false,not_or,not_exists,not_and]
  exact ⟨⟨by decide,fun c _ => escape_line c⟩,by decide⟩

section Records
variable (hmac : Bytes → Bytes → Bytes) (key : Bytes)

def payloadOf (event : AuditEvent) : String := String.ofList event.toValue.chars

def signatureOf (payload : String) : String := String.ofList (hexEncode (hmac key (Utf8.encode payload.toList)))

/-- The signed form of an event. -/
def record (event : AuditEvent) : Json.Value :=
  .object [("payload",.string (payloadOf event)),("signature",.string (signatureOf hmac key (payloadOf event)))]

theorem record_line (event : AuditEvent) : 10 ∉ Utf8.encode (record hmac key event).chars := by
  intro member
  have newline := Utf8.newline_of_encode _ member
  simp only [record,Json.Value.chars,Json.memberChars,Json.separated,List.mem_append,List.mem_cons,List.not_mem_nil,
    quoted_line,false_or,or_false] at newline
  revert newline
  decide

theorem formatEvent_signed (event : AuditEvent) :
    formatEvent hmac (some key) event = Utf8.encode (record hmac key event).chars ++ [10] := by
  unfold record signatureOf payloadOf
  rw [String.toList_ofList]
  rfl

/-- A log of signed records is cut at its newlines into the records. -/
theorem log_records (events : List AuditEvent) :
    pieces lineFeed (events.flatMap (formatEvent hmac (some key))) =
      events.map (fun event => Utf8.encode (record hmac key event).chars) ++ [[]] := by
  induction events with
  | nil => rfl
  | cons event rest ih =>
    have line (byte : UInt8) (inside : byte ∈ Utf8.encode (record hmac key event).chars) : lineFeed byte = false :=
      decide_eq_false (fun same => record_line hmac key event (same ▸ inside))
    rw [List.flatMap_cons,formatEvent_signed,List.append_assoc,List.singleton_append,pieces_cut _ _ _ _ line rfl,ih]
    rfl

variable (fromSlice : Bytes → Option Json.Value)

/-- The line is one record, of a payload under its signature. -/
def Signed (line : Bytes) (payload : String) : Prop :=
  ∃ bytes tree, line = bytes ++ [10] ∧ 10 ∉ bytes ∧ fromSlice bytes = some tree ∧
    tree.get "payload" = some (.string payload) ∧ tree.get "signature" = some (.string (signatureOf hmac key payload))

def decodeEvent (payload : String) : Option AuditEvent := (fromSlice (Utf8.encode payload.toList)).bind auditEvent

/-- A verifier takes the line as that of the event. -/
def Verifies (line : Bytes) (event : AuditEvent) : Prop :=
  ∃ payload, Signed hmac key fromSlice line payload ∧ decodeEvent fromSlice payload = some event

/-- The parser reads the two texts that are written for an event as what they were written from. -/
structure Reads (event : AuditEvent) : Prop where
  record : fromSlice (Utf8.encode (record hmac key event).chars) = some (record hmac key event)
  payload : fromSlice (Utf8.encode event.toValue.chars) = some event.toValue

theorem verifies_reread (e : Typed) (reads : Reads hmac key fromSlice e.event) (event : AuditEvent) :
    Verifies hmac key fromSlice (formatEvent hmac (some key) e.event) event ↔
      { e.event with detail := reread e.event.detail } = event := by
  have decoded : decodeEvent fromSlice (payloadOf e.event) = some { e.event with detail := reread e.event.detail } := by
    rw [decodeEvent,payloadOf,String.toList_ofList,reads.payload,Option.bind_some,auditEvent_eq]
  rw [formatEvent_signed]
  constructor
  · rintro ⟨payload,⟨bytes,tree,line,_,read,found,_⟩,same⟩
    obtain rfl := List.append_cancel_right line
    obtain rfl := Option.some.inj (read.symm.trans reads.record)
    obtain rfl := Json.Value.string.inj (Option.some.inj found)
    exact Option.some.inj (decoded.symm.trans same)
  · rintro rfl
    exact ⟨payloadOf e.event,⟨_,_,rfl,record_line hmac key e.event,reads.record,rfl,rfl⟩,decoded⟩

/-- The signed line of an event is one that a verifier takes as the event's, unless the event is a call whose
arguments are null: these are read as none. -/
theorem signed_verifies_iff (e : Typed) (reads : Reads hmac key fromSlice e.event) :
    Verifies hmac key fromSlice (formatEvent hmac (some key) e.event) e.event ↔ ¬Nulls e.event.detail := by
  rw [verifies_reread hmac key fromSlice e reads e.event,← reread_eq]
  constructor
  · exact fun same => congrArg AuditEvent.detail same
  · intro same
    rw [same]

end Records

/-- A call with arguments. -/
def called (args : Json.Value) (unique : Unique args) : Typed where
  event := ⟨1709210096789,"agent\n\"1\"",.toolCall "echo" (some args)⟩
  timestamp := (by decide : 1709210096789 < 2 ^ 64)
  fits := fun _ same => Option.some.inj same ▸ unique

/-- The parser on the texts of one event, and a code of one byte. -/
def readsOnly (event : AuditEvent) (bytes : Bytes) : Option Json.Value :=
  if bytes = Utf8.encode event.toValue.chars then some event.toValue
  else if bytes = Utf8.encode (record (fun _ _ => [7]) [] event).chars then some (record (fun _ _ => [7]) [] event)
  else none

theorem signed_verifies_text :
    Verifies (fun _ _ => [7]) [] (readsOnly (called (.string "a\nb") True.intro).event)
      (formatEvent (fun _ _ => [7]) (some []) (called (.string "a\nb") True.intro).event)
      (called (.string "a\nb") True.intro).event := by
  refine (signed_verifies_iff (fun _ _ => [7]) [] _ (called (.string "a\nb") True.intro) ⟨?_,if_pos rfl⟩).mpr ?_
  · rw [readsOnly,if_neg (by decide +kernel),if_pos rfl]
  · rintro ⟨toolName,same⟩
    cases same

/-- Null arguments come back as none. -/
theorem null_arguments_lost :
    Reads (fun _ _ => [7]) [] (readsOnly (called .null True.intro).event) (called .null True.intro).event ∧
    ¬Verifies (fun _ _ => [7]) [] (readsOnly (called .null True.intro).event)
      (formatEvent (fun _ _ => [7]) (some []) (called .null True.intro).event) (called .null True.intro).event := by
  have reads : Reads (fun _ _ => [7]) [] (readsOnly (called .null True.intro).event) (called .null True.intro).event := by
    refine ⟨?_,if_pos rfl⟩
    rw [readsOnly,if_neg (by decide +kernel),if_pos rfl]
  refine ⟨reads,fun verifies => ?_⟩
  have same := (verifies_reread _ _ _ _ reads _).mp verifies
  cases congrArg AuditEvent.detail same

end ClawKernel.Tools.SignedRecords
