import ClawKernel.Lib.Serde
import ClawKernel.Provider.Fields

/-! The Anthropic format: the same message read from a plain response and put
together from the events of a stream.
-/
namespace ClawKernel.Provider.Anthropic
open Lib.Json Lib.Serde Lib.Utf8 Provider.Types Provider.Sse Provider.Fields

structure AnthropicContentBlock where
  blockType : String
  text : String

structure AnthropicUsage where
  inputTokens : Nat
  outputTokens : Nat

structure AnthropicResponse where
  id : String
  model : String
  content : List AnthropicContentBlock
  stopReason : String
  usage : AnthropicUsage

def contentBlock : Decoder AnthropicContentBlock := fun tree => do
  let field ← fields ["type","text"] tree
  let blockType ← (field "type").bind text
  let text ← (field "text").bind text
  return ⟨blockType,text⟩

def usage : Decoder AnthropicUsage := fun tree => do
  let field ← fields ["input_tokens","output_tokens"] tree
  let inputTokens ← (field "input_tokens").bind (unsigned 64)
  let outputTokens ← (field "output_tokens").bind (unsigned 64)
  return ⟨inputTokens,outputTokens⟩

def response : Decoder AnthropicResponse := fun tree => do
  let field ← fields ["id","model","content","stop_reason","usage"] tree
  let id ← (field "id").bind text
  let model ← (field "model").bind text
  let content ← (field "content").bind (list contentBlock)
  let stopReason ← (field "stop_reason").bind text
  let usage ← (field "usage").bind usage
  return ⟨id,model,content,stopReason,usage⟩

def textDelta : Decoder (String × String) := fun tree => do
  let field ← fields ["type","text"] tree
  let deltaType ← (field "type").bind text
  let text ← (field "text").bind text
  return (deltaType,text)

def messageDelta : Decoder (Option String) := fun tree => do
  let field ← fields ["stop_reason"] tree
  missable text (field "stop_reason")

def streamUsage : Decoder Nat := fun tree => do
  let field ← fields ["output_tokens"] tree
  (field "output_tokens").bind (unsigned 64)

/-- The variant is named by the tag `type`; a tag that names none is any other event. -/
def streamChunk : Decoder AnthropicStreamChunk := fun tree => do
  let tag ← named ["type"] tree
  let type ← (tag "type").bind text
  if type = "content_block_delta" then
    let field ← named ["delta"] tree
    let delta ← (field "delta").bind textDelta
    return .contentBlockDelta delta.1 delta.2
  else if type = "message_delta" then
    let field ← named ["delta","usage"] tree
    let stopReason ← (field "delta").bind messageDelta
    let outputTokens ← missable streamUsage (field "usage")
    return .messageDelta stopReason outputTokens
  else if type = "message_stop" then
    return .messageStop
  else
    return .other

inductive AnthropicError where
  | missingField (field : String)
  | invalidFormat (message : String)
  deriving DecidableEq, Repr

/-- Token counts add up in 64 bits. -/
def parseResponse (raw : AnthropicResponse) : Except AnthropicError CompletionResponse :=
  let content := ((raw.content.find? (fun block => block.blockType = "text")).map
    AnthropicContentBlock.text).getD ""
  .ok ⟨raw.id,raw.model,Message.assistant content,anthropicFinishReason raw.stopReason,
    ⟨raw.usage.inputTokens,raw.usage.outputTokens,(raw.usage.inputTokens + raw.usage.outputTokens) % 2 ^ 64⟩⟩

/-- serde_json: the tree of a text, and what it says of a text it does not take. -/
structure SerdeJson where
  tree : String → Option Value
  message : String → String

def SerdeJson.fromStr (json : SerdeJson) (text : String) : Except String AnthropicStreamChunk :=
  match (json.tree text).bind streamChunk with
  | some chunk => .ok chunk
  | none => .error (json.message text)

def parseStreamChunk (json : SerdeJson) (chunk : Bytes) : Except String (Option Delta) :=
  anthropicParseStreamChunk json.fromStr chunk

/-! A message of the API, as a plain response and as a stream of events. -/

/-- Texts and inputs are sent in the pieces that are given. -/
inductive Block where
  | text (deltas : List String)
  | toolUse (id name : String) (input : Value) (parts : List String)

def Block.said : Block → Option String
  | .text deltas => some (String.join deltas)
  | .toolUse .. => none

structure AnthropicMessage where
  id : String
  model : String
  blocks : List Block
  stopReason : String
  inputTokens : Nat
  outputTokens : Nat

def AnthropicMessage.texts (m : AnthropicMessage) : List String := m.blocks.filterMap Block.said

def WritesBlock (tree : Value) : Block → Prop
  | .text deltas => ∃ field, Shows tree field ∧ field "type" = some (.string "text") ∧
      field "text" = some (.string (String.join deltas))
  | .toolUse id name input _ => ∃ field, Shows tree field ∧ field "type" = some (.string "tool_use") ∧
      field "id" = some (.string id) ∧ field "name" = some (.string name) ∧ field "input" = some input ∧
      field "text" = none

def WritesResponse (tree : Value) (m : AnthropicMessage) : Prop :=
  ∃ field trees inner used, Shows tree field ∧ field "id" = some (.string m.id) ∧
    field "model" = some (.string m.model) ∧ field "content" = some (.array trees) ∧
    List.Forall₂ WritesBlock trees m.blocks ∧ field "stop_reason" = some (.string m.stopReason) ∧
    field "usage" = some inner ∧ Shows inner used ∧ WritesUnsigned 64 (used "input_tokens") m.inputTokens ∧
    WritesUnsigned 64 (used "output_tokens") m.outputTokens

inductive Event where
  | messageStart
  | ping
  | contentBlockStart
  | textDelta (text : String)
  | inputJsonDelta (partialJson : String)
  | contentBlockStop
  | messageDelta (stopReason : String) (outputTokens : Nat)
  | messageStop
  deriving DecidableEq, Repr

def Event.name : Event → String
  | .messageStart => "message_start"
  | .ping => "ping"
  | .contentBlockStart => "content_block_start"
  | .textDelta _ => "content_block_delta"
  | .inputJsonDelta _ => "content_block_delta"
  | .contentBlockStop => "content_block_stop"
  | .messageDelta .. => "message_delta"
  | .messageStop => "message_stop"

def Block.deltas : Block → List Event
  | .text deltas => deltas.map .textDelta
  | .toolUse _ _ _ parts => parts.map .inputJsonDelta

def Block.events (block : Block) : List Event :=
  .contentBlockStart :: block.deltas ++ [.contentBlockStop]

def AnthropicMessage.events (m : AnthropicMessage) : List Event :=
  .messageStart :: m.blocks.flatMap Block.events ++ [.messageDelta m.stopReason m.outputTokens,.messageStop]

/-- What the members of an event hold beside its type. -/
def Event.Content (field : String → Option Value) : Event → Prop
  | .textDelta text => ∃ inner delta, field "delta" = some inner ∧ Shows inner delta ∧
      delta "type" = some (.string "text_delta") ∧ delta "text" = some (.string text)
  | .inputJsonDelta partialJson => ∃ inner delta, field "delta" = some inner ∧ Shows inner delta ∧
      delta "type" = some (.string "input_json_delta") ∧ delta "partial_json" = some (.string partialJson) ∧
      delta "text" = none
  | .messageDelta stopReason outputTokens => ∃ inner delta used usage, field "delta" = some inner ∧ Shows inner delta ∧
      delta "stop_reason" = some (.string stopReason) ∧ field "usage" = some used ∧ Shows used usage ∧
      WritesUnsigned 64 (usage "output_tokens") outputTokens
  | _ => True

def WritesEvent (tree : Value) (event : Event) : Prop :=
  ∃ field, Shows tree field ∧ field "type" = some (.string event.name) ∧ event.Content field

/-- The lines of a stream that sends these events: each event's data on a line of its own,
between lines that are blank or name the event. -/
inductive Sends (json : SerdeJson) : List Bytes → List Event → Prop
  | nil : Sends json [] []
  | blank (line : Bytes) (lines : List Bytes) (events : List Event) (none : trim (lossy line) = [])
      (later : Sends json lines events) : Sends json (line :: lines) events
  | name (line : Bytes) (lines : List Bytes) (events : List Event) (names : "event:".toList <+: trim (lossy line))
      (later : Sends json lines events) : Sends json (line :: lines) events
  | data (text : List Char) (tree : Value) (event : Event) (lines : List Bytes) (events : List Event)
      (trimmed : trim text = text) (filled : text ≠ []) (parsed : json.tree (String.ofList text) = some tree)
      (written : WritesEvent tree event) (later : Sends json lines events) :
      Sends json (encode (dataPrefix ++ text) :: lines) (event :: events)

/-- The stream sends the message; it may be kept alive in between. -/
def Streams (json : SerdeJson) (lines : List Bytes) (m : AnthropicMessage) : Prop :=
  ∃ events, Sends json lines events ∧ events.filter (fun event => event ≠ .ping) = m.events

/-- What has been put together of a stream. -/
structure Streamed where
  content : String
  finishReason : Option FinishReason
  usage : Option TokenUsage

def Streamed.add (streamed : Streamed) : Option Delta → Streamed
  | none => streamed
  | some delta => ⟨streamed.content ++ delta.content.getD "",delta.finishReason.or streamed.finishReason,
      delta.usage.or streamed.usage⟩

def collect (json : SerdeJson) (lines : List Bytes) (streamed : Streamed) : Except String Streamed :=
  lines.foldlM (fun streamed line => (parseStreamChunk json line).map streamed.add) streamed

/-- Both readings succeed and say the same. -/
def Agree (plain : Option AnthropicResponse) (streamed : Except String Streamed) : Prop :=
  ∃ raw parsed together, plain = some raw ∧ parseResponse raw = .ok parsed ∧ streamed = .ok together ∧
    parsed.message.content = together.content ∧ together.finishReason = some parsed.finishReason ∧
    together.usage = some parsed.usage

def readBlock (block : Block) : AnthropicContentBlock := ⟨"text",block.said.getD ""⟩

/-- A block without text is not read. -/
theorem contentBlock_eq (tree : Value) (block : Block) (written : WritesBlock tree block) :
    contentBlock tree = if block.said.isSome then some (readBlock block) else none := by
  cases block with
  | text deltas =>
    obtain ⟨field,shown,kind,told⟩ := written
    simp only [contentBlock,shows_fields _ tree field shown,kind,told,text,Option.bind_eq_bind,Option.bind_some]
    rfl
  | toolUse id name input parts =>
    obtain ⟨field,shown,kind,_,_,_,absent⟩ := written
    simp only [contentBlock,shows_fields _ tree field shown,kind,absent,text,Option.bind_eq_bind,Option.bind_some,
      Option.bind_none]
    rfl

theorem response_eq (tree : Value) (m : AnthropicMessage) (written : WritesResponse tree m) :
    response tree =
      if m.blocks.all (fun block => block.said.isSome) then
        some ⟨m.id,m.model,m.blocks.map readBlock,m.stopReason,⟨m.inputTokens,m.outputTokens⟩⟩
      else none := by
  obtain ⟨field,trees,inner,used,shown,id,model,content,each,reason,counted,counts,input,output⟩ := written
  have listed := mapM_written contentBlock WritesBlock (fun block => block.said.isSome) readBlock contentBlock_eq trees _
    each
  simp only [response,shows_fields _ tree field shown,id,model,content,reason,counted,text,Option.bind_eq_bind,
    Option.bind_some,list,listed,usage,shows_fields _ inner used counts,unsigned_written _ _ _ input,
    unsigned_written _ _ _ output]
  split <;> rfl

/-- Of several texts the first is taken. -/
theorem first_text (blocks : List Block) (texts : ∀ block ∈ blocks, block.said.isSome) :
    (((blocks.map readBlock).find? (fun block => block.blockType = "text")).map AnthropicContentBlock.text).getD "" =
      (blocks.filterMap Block.said).head?.getD "" := by
  cases blocks with
  | nil => rfl
  | cons block blocks =>
    obtain ⟨told,said⟩ := Option.isSome_iff_exists.mp (texts block List.mem_cons_self)
    rw [List.filterMap_cons_some said,List.map_cons,List.find?_cons_of_pos (by rfl),readBlock,said]
    rfl

/-! Reading the stream. -/

def Event.chunk : Event → Option AnthropicStreamChunk
  | .textDelta text => some (.contentBlockDelta "text_delta" text)
  | .inputJsonDelta _ => none
  | .messageDelta stopReason outputTokens => some (.messageDelta (some stopReason) (some outputTokens))
  | .messageStop => some .messageStop
  | _ => some .other

theorem streamChunk_eq (tree : Value) (event : Event) (written : WritesEvent tree event) :
    streamChunk tree = event.chunk := by
  obtain ⟨field,shown,type,content⟩ := written
  unfold streamChunk
  rw [shows_named _ tree field shown]
  simp only [Option.bind_eq_bind,Option.bind_some,type,text]
  cases event with
  | textDelta told =>
    obtain ⟨inner,delta,held,inside,kind,text⟩ := content
    simp only [Event.name,if_true,shows_named _ tree field shown,Option.bind_some,held,textDelta,
      shows_fields _ inner delta inside,kind,text,Lib.Serde.text,Option.bind_eq_bind]
    rfl
  | inputJsonDelta partialJson =>
    obtain ⟨inner,delta,held,inside,kind,_,absent⟩ := content
    simp only [Event.name,if_true,shows_named _ tree field shown,Option.bind_some,held,textDelta,
      shows_fields _ inner delta inside,kind,absent,Lib.Serde.text,Option.bind_eq_bind,Option.bind_none]
    rfl
  | messageDelta stopReason outputTokens =>
    obtain ⟨inner,delta,used,usage,held,inside,reason,counted,counts,output⟩ := content
    have kind : Event.name (.messageDelta stopReason outputTokens) = "message_delta" := rfl
    have ended : messageDelta inner = some (some stopReason) := by
      simp only [messageDelta,shows_fields _ inner delta inside,reason,Option.bind_eq_bind,Option.bind_some]
      rfl
    have told : streamUsage used = some outputTokens := by
      simp only [streamUsage,shows_fields _ used usage counts,Option.bind_eq_bind,Option.bind_some,
        unsigned_written _ _ _ output]
    rw [kind,if_neg (by decide),if_pos rfl,shows_named _ tree field shown]
    simp only [Option.bind_some,held,ended,counted,missable_object streamUsage used usage counts,told,Option.map_some]
    rfl
  | messageStart => rfl
  | ping => rfl
  | contentBlockStart => rfl
  | contentBlockStop => rfl
  | messageStop => rfl

/-- What an event is read as; a delta of a tool's input is not read. -/
def Event.delta : Event → Option Delta
  | .textDelta text => some ⟨some text,none,none,none⟩
  | .messageDelta stopReason outputTokens =>
    some ⟨none,none,some (anthropicFinishReason stopReason),some ⟨0,outputTokens,outputTokens⟩⟩
  | _ => none

def Event.readable : Event → Bool
  | .inputJsonDelta _ => false
  | _ => true

theorem parse_passed (json : SerdeJson) (line : Bytes)
    (passed : trim (lossy line) = [] ∨ "event:".toList <+: trim (lossy line)) : parseStreamChunk json line = .ok none := by
  unfold parseStreamChunk anthropicParseStreamChunk
  rcases passed with none | names
  · rw [none]
    rfl
  · exact if_pos (List.isPrefixOf_iff_prefix.mpr names)

theorem parse_data (json : SerdeJson) (text : List Char) (tree : Value) (event : Event) (trimmed : trim text = text)
    (filled : text ≠ []) (parsed : json.tree (String.ofList text) = some tree) (written : WritesEvent tree event) :
    parseStreamChunk json (encode (dataPrefix ++ text)) =
      if event.readable then .ok event.delta
      else .error ("Invalid format: " ++ json.message (String.ofList text)) := by
  have inked : trim text ≠ [] := by rwa [trimmed]
  have plain : ¬"event:".toList.isPrefixOf (trim (dataPrefix ++ text)) = true := fun starts =>
    not_event_of_data _ (data_shown text inked).2 (List.isPrefixOf_iff_prefix.mp starts)
  have read : payload (trim (dataPrefix ++ text)) = text := (payload_spaced text inked).trans trimmed
  have nonempty : text.isEmpty = false := by simpa using filled
  have decoded : json.fromStr (String.ofList text) = match event.chunk with
      | some chunk => .ok chunk
      | none => .error (json.message (String.ofList text)) := by
    rw [SerdeJson.fromStr,parsed,Option.bind_some,streamChunk_eq tree event written]
  unfold parseStreamChunk anthropicParseStreamChunk
  simp only [lossy_encode,if_neg plain,read,nonempty,decoded,Bool.false_eq_true,if_false]
  cases event <;> rfl

def Streamed.take (streamed : Streamed) (event : Event) : Streamed := streamed.add event.delta

/-- A stream is put together event by event if it can be read. -/
theorem collect_eq (json : SerdeJson) (lines : List Bytes) (events : List Event) (sends : Sends json lines events)
    (streamed : Streamed) :
    (events.all Event.readable = true → collect json lines streamed = .ok (events.foldl Streamed.take streamed)) ∧
    (events.all Event.readable = false → ∃ message, collect json lines streamed = .error message) := by
  unfold collect
  induction sends generalizing streamed with
  | nil => exact ⟨fun _ => rfl,Bool.noConfusion⟩
  | blank line lines events none _ ih =>
    rw [List.foldlM_cons,parse_passed json line (.inl none)]
    exact ih streamed
  | name line lines events names _ ih =>
    rw [List.foldlM_cons,parse_passed json line (.inr names)]
    exact ih streamed
  | data text tree event lines events trimmed filled parsed written _ ih =>
    rw [List.foldlM_cons,parse_data json text tree event trimmed filled parsed written,List.all_cons]
    cases readable : event.readable with
    | true => exact ih (streamed.take event)
    | false => exact ⟨Bool.noConfusion,fun _ => ⟨_,rfl⟩⟩

def Streamed.run (streamed : Streamed) (events : List Event) : Streamed := events.foldl Streamed.take streamed

theorem run_append (streamed : Streamed) (events more : List Event) :
    streamed.run (events ++ more) = (streamed.run events).run more :=
  List.foldl_append

theorem run_without_pings (streamed : Streamed) (events : List Event) :
    streamed.run (events.filter (fun event => event ≠ .ping)) = streamed.run events := by
  induction events generalizing streamed with
  | nil => rfl
  | cons event events ih =>
    by_cases ping : event = .ping
    · rw [List.filter_cons_of_neg (by simp [ping]),ih streamed,ping]
      rfl
    · rw [List.filter_cons_of_pos (by simp [ping])]
      exact ih (streamed.take event)

theorem readable_without_pings (events : List Event) :
    (events.filter (fun event => event ≠ .ping)).all Event.readable = events.all Event.readable := by
  induction events with
  | nil => rfl
  | cons event events ih =>
    by_cases ping : event = .ping
    · rw [List.filter_cons_of_neg (by simp [ping]),ih,ping]
      rfl
    · rw [List.filter_cons_of_pos (by simp [ping]),List.all_cons,List.all_cons,ih]

theorem run_deltas (streamed : Streamed) (deltas : List String) :
    streamed.run (deltas.map .textDelta) =
      ⟨streamed.content ++ String.join deltas,streamed.finishReason,streamed.usage⟩ := by
  induction deltas generalizing streamed with
  | nil => simp [Streamed.run]
  | cons delta deltas ih =>
    change (streamed.take (.textDelta delta)).run (deltas.map .textDelta) = _
    rw [ih,String.join_cons,← String.append_assoc]
    rfl

theorem run_block (streamed : Streamed) (block : Block) (text : String) (said : block.said = some text) :
    streamed.run block.events = ⟨streamed.content ++ text,streamed.finishReason,streamed.usage⟩ := by
  cases block with
  | toolUse id name input parts => cases said
  | text deltas =>
    obtain rfl : String.join deltas = text := Option.some.inj said
    change streamed.run ([.contentBlockStart] ++ deltas.map .textDelta ++ [.contentBlockStop]) = _
    rw [run_append,run_append,run_deltas]
    rfl

theorem run_blocks (streamed : Streamed) (blocks : List Block) (texts : ∀ block ∈ blocks, block.said.isSome) :
    streamed.run (blocks.flatMap Block.events) =
      ⟨streamed.content ++ String.join (blocks.filterMap Block.said),streamed.finishReason,streamed.usage⟩ := by
  induction blocks generalizing streamed with
  | nil => simp [Streamed.run]
  | cons block blocks ih =>
    obtain ⟨here,later⟩ := List.forall_mem_cons.mp texts
    obtain ⟨text,said⟩ := Option.isSome_iff_exists.mp here
    rw [List.flatMap_cons,run_append,run_block streamed block text said,ih _ later,List.filterMap_cons_some said,
      String.join_cons,← String.append_assoc]

/-- A stream of texts says them all; it knows what was written, but not what was read. -/
theorem run_events (m : AnthropicMessage) (texts : ∀ block ∈ m.blocks, block.said.isSome) :
    (⟨"",none,none⟩ : Streamed).run m.events =
      ⟨String.join m.texts,some (anthropicFinishReason m.stopReason),some ⟨0,m.outputTokens,m.outputTokens⟩⟩ := by
  change (⟨"",none,none⟩ : Streamed).run ([.messageStart] ++ m.blocks.flatMap Block.events ++
    [.messageDelta m.stopReason m.outputTokens,.messageStop]) = _
  rw [run_append,run_append]
  change Streamed.run (Streamed.run ⟨"",none,none⟩ (m.blocks.flatMap Block.events)) _ = _
  rw [run_blocks _ _ texts,String.empty_append]
  change Streamed.mk (String.join m.texts ++ "") _ _ = _
  rw [String.append_empty]
  rfl

theorem readable_events (m : AnthropicMessage) (texts : ∀ block ∈ m.blocks, block.said.isSome) :
    m.events.all Event.readable = true := by
  rw [List.all_eq_true]
  intro event member
  simp only [AnthropicMessage.events,List.mem_cons,List.mem_append,List.mem_flatMap,List.cons_append,
    List.not_mem_nil,or_false] at member
  rcases member with rfl | ⟨block,inside,member⟩ | rfl | rfl
  · rfl
  · have said := texts block inside
    cases block with
    | toolUse id name input parts => cases said
    | text deltas =>
      simp only [Block.events,Block.deltas,List.cons_append,List.mem_cons,List.mem_append,List.mem_map,
        List.not_mem_nil,or_false] at member
      rcases member with rfl | ⟨delta,_,rfl⟩ | rfl <;> rfl
  · rfl
  · rfl

theorem collect_message (json : SerdeJson) (lines : List Bytes) (m : AnthropicMessage) (streams : Streams json lines m)
    (texts : ∀ block ∈ m.blocks, block.said.isSome) :
    collect json lines ⟨"",none,none⟩ =
      .ok ⟨String.join m.texts,some (anthropicFinishReason m.stopReason),
        some ⟨0,m.outputTokens,m.outputTokens⟩⟩ := by
  obtain ⟨events,sends,same⟩ := streams
  have readable : events.all Event.readable = true := by
    rw [← readable_without_pings,same]
    exact readable_events m texts
  have together := run_without_pings ⟨"",none,none⟩ events
  rw [same,run_events m texts] at together
  rw [(collect_eq json lines events sends _).1 readable]
  exact congrArg Except.ok together.symm

theorem first_of_join (texts : List String) :
    texts.head?.getD "" = String.join texts ↔ ∀ text ∈ texts.tail, text = "" := by
  cases texts with
  | nil => simp
  | cons text texts =>
    have rest : String.join texts = "" ↔ ∀ text ∈ texts, text = "" := by
      induction texts with
      | nil => simp
      | cons other texts ih => rw [String.join_cons,String.append_eq_empty_iff,ih,List.forall_mem_cons]
    rw [List.head?_cons,Option.getD_some,String.join_cons,List.tail_cons,← rest]
    have whole : text ++ "" = text := String.append_empty
    constructor
    · intro same
      exact (String.append_right_inj text).mp (same.symm.trans whole.symm)
    · intro empty
      rw [empty,whole]

/-- The two readings agree on a message of texts alone, none but the first of which says
anything, that was made of no tokens. -/
theorem agree_iff (json : SerdeJson) (tree : Value) (lines : List Bytes) (m : AnthropicMessage)
    (written : WritesResponse tree m) (streams : Streams json lines m) :
    Agree (response tree) (collect json lines ⟨"",none,none⟩) ↔
      (∀ block ∈ m.blocks, block.said.isSome) ∧ (∀ text ∈ m.texts.tail, text = "") ∧ m.inputTokens = 0 := by
  have read := response_eq tree m written
  by_cases texts : ∀ block ∈ m.blocks, block.said.isSome
  · rw [if_pos (List.all_eq_true.mpr texts)] at read
    have together := collect_message json lines m streams texts
    have content := first_text m.blocks texts
    have bound : m.outputTokens < 2 ^ 64 := by
      obtain ⟨_,_,_,_,_,_,_,_,_,_,_,_,_,_,fits⟩ := written
      exact fits
    rw [read,together]
    constructor
    · rintro ⟨raw,parsed,streamed,taken,answered,collected,same,_,counted⟩
      cases taken
      cases answered
      cases collected
      refine ⟨texts,(first_of_join m.texts).mp (content.symm.trans same),?_⟩
      exact (TokenUsage.mk.inj (Option.some.inj counted)).1.symm
    · rintro ⟨_,rest,unread⟩
      refine ⟨_,_,_,rfl,rfl,rfl,content.trans ((first_of_join m.texts).mpr rest),rfl,?_⟩
      have total : (0 + m.outputTokens) % 2 ^ 64 = m.outputTokens := by
        rw [Nat.zero_add]
        exact Nat.mod_eq_of_lt bound
      rw [unread,total]
  · have refused : ¬m.blocks.all (fun block => block.said.isSome) = true := fun all => texts (List.all_eq_true.mp all)
    rw [if_neg refused] at read
    refine iff_of_false ?_ (fun agreed => texts agreed.1)
    rintro ⟨raw,_,_,taken,_⟩
    rw [read] at taken
    cases taken

/-- A text in two pieces. -/
def greeting (inputTokens : Nat) : AnthropicMessage :=
  ⟨"msg_1","claude-opus-4-6",[.text ["Hel","lo"]],"end_turn",inputTokens,5⟩

def greetingTree (inputTokens : Nat) : Value :=
  .object [("id",.string "msg_1"),("model",.string "claude-opus-4-6"),
    ("content",.array [.object [("type",.string "text"),("text",.string "Hello")]]),("stop_reason",.string "end_turn"),
    ("usage",.object [("input_tokens",.integer (Int.ofNat inputTokens)),("output_tokens",.integer 5)])]

theorem greeting_written (inputTokens : Nat) (fits : inputTokens < 2 ^ 64) :
    WritesResponse (greetingTree inputTokens) (greeting inputTokens) := by
  refine ⟨_,_,_,_,shows_object _ (by decide : ["id","model","content","stop_reason","usage"].Nodup),rfl,rfl,rfl,
    .cons ?_ .nil,rfl,rfl,shows_object _ (by decide : ["input_tokens","output_tokens"].Nodup),⟨rfl,fits⟩,rfl,
    (by decide : 5 < 2 ^ 64)⟩
  exact ⟨_,shows_object _ (by decide : ["type","text"].Nodup),rfl,rfl⟩

/-- The data of the greeting's events. -/
def greetingTrees : List Value :=
  [.object [("type",.string "message_start")],
    .object [("type",.string "content_block_start")],
    .object [("type",.string "content_block_delta"),
      ("delta",.object [("type",.string "text_delta"),("text",.string "Hel")])],
    .object [("type",.string "content_block_delta"),
      ("delta",.object [("type",.string "text_delta"),("text",.string "lo")])],
    .object [("type",.string "content_block_stop")],
    .object [("type",.string "message_delta"),("delta",.object [("stop_reason",.string "end_turn")]),
      ("usage",.object [("output_tokens",.integer 5)])],
    .object [("type",.string "message_stop")]]

/-- A reader of these trees' own texts. -/
def readerOf (trees : List Value) : SerdeJson :=
  ⟨fun text => trees.find? (fun tree => tree.text = text),fun _ => "expected value at line 1 column 1"⟩

def linesOf (trees : List Value) : List Bytes :=
  trees.map (fun tree => encode (dataPrefix ++ tree.chars))

theorem sends_lines (json : SerdeJson) (trees : List Value) (events : List Event)
    (pairs : List.Forall₂ WritesEvent trees events)
    (read : ∀ tree ∈ trees, json.tree tree.text = some tree ∧ trim tree.chars = tree.chars ∧ tree.chars ≠ []) :
    Sends json (linesOf trees) events := by
  induction pairs with
  | nil => exact .nil
  | cons written _ ih =>
    obtain ⟨⟨parsed,trimmed,filled⟩,later⟩ := List.forall_mem_cons.mp read
    exact .data _ _ _ _ _ trimmed filled parsed written (ih later)

theorem greeting_events : List.Forall₂ WritesEvent greetingTrees (greeting 0).events := by
  have bare : ∀ name : String, Shows (.object [("type",.string name)]) (fun key => [("type",.string name)].lookup key) :=
    fun _ => shows_object _ (List.nodup_singleton _)
  have told : ∀ text : String, WritesEvent (.object [("type",.string "content_block_delta"),
      ("delta",.object [("type",.string "text_delta"),("text",.string text)])]) (.textDelta text) :=
    fun _ => ⟨_,shows_object _ (by decide : ["type","delta"].Nodup),rfl,_,_,rfl,
      shows_object _ (by decide : ["type","text"].Nodup),rfl,rfl⟩
  refine .cons ⟨_,bare _,rfl,trivial⟩ (.cons ⟨_,bare _,rfl,trivial⟩ (.cons (told _) (.cons (told _)
    (.cons ⟨_,bare _,rfl,trivial⟩ (.cons ?_ (.cons ⟨_,bare _,rfl,trivial⟩ .nil))))))
  exact ⟨_,shows_object _ (by decide : ["type","delta","usage"].Nodup),rfl,_,_,_,_,rfl,
    shows_object _ (List.nodup_singleton _),rfl,rfl,shows_object _ (List.nodup_singleton _),rfl,
    (by decide : 5 < 2 ^ 64)⟩

theorem greeting_streams (inputTokens : Nat) :
    Streams (readerOf greetingTrees) (linesOf greetingTrees) (greeting inputTokens) := by
  have shape : ∀ tree ∈ greetingTrees, trim tree.chars = tree.chars ∧ tree.chars ≠ [] := by
    decide +kernel
  have parsed : ∀ tree ∈ greetingTrees, (readerOf greetingTrees).tree tree.text = some tree := by
    simp only [greetingTrees,List.forall_mem_cons]
    exact ⟨by rfl,by rfl,by rfl,by rfl,by rfl,by rfl,by rfl,by simp⟩
  have read := fun tree member => And.intro (parsed tree member) (shape tree member)
  exact ⟨(greeting 0).events,sends_lines _ _ _ greeting_events read,rfl⟩

theorem agree_without_input :
    Agree (response (greetingTree 0)) (collect (readerOf greetingTrees) (linesOf greetingTrees) ⟨"",none,none⟩) :=
  (agree_iff _ _ _ _ (greeting_written 0 (by decide)) (greeting_streams 0)).mpr
    ⟨by simp [greeting,Block.said],by simp [greeting,AnthropicMessage.texts,Block.said],rfl⟩

/-- The greeting was made of ten tokens that the stream does not count. -/
theorem input_not_counted :
    WritesResponse (greetingTree 10) (greeting 10) ∧
    Streams (readerOf greetingTrees) (linesOf greetingTrees) (greeting 10) ∧
    ¬Agree (response (greetingTree 10)) (collect (readerOf greetingTrees) (linesOf greetingTrees) ⟨"",none,none⟩) := by
  refine ⟨greeting_written 10 (by decide),greeting_streams 10,?_⟩
  rintro ⟨raw,parsed,streamed,taken,answered,collected,_,_,counted⟩
  have read := response_eq _ _ (greeting_written 10 (by decide))
  have together := collect_message _ _ _ (greeting_streams 10) (by simp [greeting,Block.said])
  rw [read,if_pos (by rfl)] at taken
  rw [together] at collected
  cases taken
  cases answered
  cases collected
  have none := (TokenUsage.mk.inj (Option.some.inj counted)).1
  exact absurd none (by decide)

end ClawKernel.Provider.Anthropic
