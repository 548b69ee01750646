import ClawKernel.Lib.Serde
import ClawKernel.Provider.Sse

/-! The OpenAI format: what a conversation is sent as in a Chat Completions
request, and what a response is read as.
-/
namespace ClawKernel.Provider.OpenAI
open Lib.Json Lib.Serde Provider.Types

structure ToolDef where
  name : String
  description : String
  parameters : Value

/-- `temperature` is the number's text. -/
structure Options where
  model : String
  maxTokens : Nat
  temperature : String
  stream : Bool
  system : Option String
  stopSequences : List String
  tools : Option (List ToolDef)

structure OpenAIMessage where
  role : String
  content : String
  toolCallId : Option String

structure OpenAIRequest where
  model : String
  messages : List OpenAIMessage
  maxTokens : Option Nat
  temperature : Option String
  stream : Bool
  stop : Option (List String)
  tools : Option (List Value)

def roleName : Role → String
  | .user => "user"
  | .assistant => "assistant"
  | .system => "system"
  | .tool => "tool"

def buildRequest (messages : List Message) (opts : Options) : OpenAIRequest :=
  let array := messages.filterMap (fun m =>
    if m.role = .system ∧ opts.system.isSome then none
    else some ⟨roleName m.role,m.content,m.toolCallId⟩)
  let messages := match opts.system with
    | some sys => ⟨"system",sys,none⟩ :: array
    | none => array
  ⟨opts.model,messages,some opts.maxTokens,some opts.temperature,opts.stream,none,none⟩

/-- A member that is left out when there is nothing to write. -/
def skipNone {α : Type} (name : String) (write : α → Value) : Option α → List (String × Value)
  | none => []
  | some value => [(name,write value)]

def OpenAIMessage.members (m : OpenAIMessage) : List (String × Value) :=
  [("role",.string m.role),("content",.string m.content)] ++ skipNone "tool_call_id" .string m.toolCallId

def OpenAIMessage.serialize (m : OpenAIMessage) : Value := .object m.members

def OpenAIRequest.members (r : OpenAIRequest) : List (String × Value) :=
  [("model",.string r.model),("messages",.array (r.messages.map OpenAIMessage.serialize))] ++
    skipNone "max_tokens" (fun n => .integer (Int.ofNat n)) r.maxTokens ++
    skipNone "temperature" .float r.temperature ++ [("stream",.bool r.stream)] ++
    skipNone "stop" (fun stop => .array (stop.map .string)) r.stop ++ skipNone "tools" .array r.tools

def OpenAIRequest.serialize (r : OpenAIRequest) : Value := .object r.members

structure OpenAIFunctionCall where
  name : String
  arguments : String

structure OpenAIToolCall where
  id : String
  callType : String
  function : OpenAIFunctionCall

structure OpenAIResponseMessage where
  role : String
  content : String
  toolCalls : Option (List OpenAIToolCall)

structure OpenAIChoice where
  message : OpenAIResponseMessage
  finishReason : String

structure OpenAIUsage where
  promptTokens : Nat
  completionTokens : Nat
  totalTokens : Nat

structure OpenAIResponse where
  id : String
  model : String
  choices : List OpenAIChoice
  usage : OpenAIUsage

def functionCall : Decoder OpenAIFunctionCall := fun tree => do
  let field ← fields ["name","arguments"] tree
  let name ← (field "name").bind text
  let arguments ← (field "arguments").bind text
  return ⟨name,arguments⟩

def toolCall : Decoder OpenAIToolCall := fun tree => do
  let field ← fields ["id","type","function"] tree
  let id ← (field "id").bind text
  let callType ← (field "type").bind text
  let function ← (field "function").bind functionCall
  return ⟨id,callType,function⟩

def responseMessage : Decoder OpenAIResponseMessage := fun tree => do
  let field ← fields ["role","content","tool_calls"] tree
  let role ← (field "role").bind text
  let content ← (field "content").bind text
  let toolCalls ← missable (list toolCall) (field "tool_calls")
  return ⟨role,content,toolCalls⟩

def choice : Decoder OpenAIChoice := fun tree => do
  let field ← fields ["message","finish_reason"] tree
  let message ← (field "message").bind responseMessage
  let finishReason ← (field "finish_reason").bind text
  return ⟨message,finishReason⟩

def usage : Decoder OpenAIUsage := fun tree => do
  let field ← fields ["prompt_tokens","completion_tokens","total_tokens"] tree
  let promptTokens ← (field "prompt_tokens").bind (unsigned 64)
  let completionTokens ← (field "completion_tokens").bind (unsigned 64)
  let totalTokens ← (field "total_tokens").bind (unsigned 64)
  return ⟨promptTokens,completionTokens,totalTokens⟩

def response : Decoder OpenAIResponse := fun tree => do
  let field ← fields ["id","model","choices","usage"] tree
  let id ← (field "id").bind text
  let model ← (field "model").bind text
  let choices ← (field "choices").bind (list choice)
  let usage ← (field "usage").bind usage
  return ⟨id,model,choices,usage⟩

inductive OpenAIError where
  | missingField (field : String)
  | invalidFormat (message : String)
  deriving DecidableEq, Repr

def parseResponse (raw : OpenAIResponse) : Except OpenAIError CompletionResponse :=
  match raw.choices with
  | [] => .error (.missingField "choices")
  | choice :: _ =>
    let toolCalls := choice.message.toolCalls.map (fun calls =>
      calls.map (fun call => (⟨call.id,call.function.name,call.function.arguments⟩ : ToolCall)))
    .ok ⟨raw.id,raw.model,{Message.assistant choice.message.content with toolCalls},
      Sse.openAIFinishReason choice.finishReason,
      ⟨raw.usage.promptTokens,raw.usage.completionTokens,raw.usage.totalTokens⟩⟩

/-! What the Chat Completions format writes, whatever else stands beside it. -/

def WritesFunction (tree : Value) (call : ToolCall) : Prop :=
  ∃ field, Shows tree field ∧ field "name" = some (.string call.name) ∧
    field "arguments" = some (.string call.arguments)

def WritesCall (tree : Value) (call : ToolCall) : Prop :=
  ∃ field, Shows tree field ∧ field "id" = some (.string call.id) ∧ field "type" = some (.string "function") ∧
    ∃ inner, field "function" = some inner ∧ WritesFunction inner call

def WritesCalls (tree : Option Value) : Option (List ToolCall) → Prop
  | none => tree = none ∨ tree = some .null
  | some calls => ∃ trees, tree = some (.array trees) ∧ List.Forall₂ WritesCall trees calls

def WritesToolFunction (tree : Value) (tool : ToolDef) : Prop :=
  ∃ field, Shows tree field ∧ field "name" = some (.string tool.name) ∧
    field "description" = some (.string tool.description) ∧ field "parameters" = some tool.parameters

def WritesTool (tree : Value) (tool : ToolDef) : Prop :=
  ∃ field, Shows tree field ∧ field "type" = some (.string "function") ∧
    ∃ inner, field "function" = some inner ∧ WritesToolFunction inner tool

/-- A request's list, which may be missing when it is empty. -/
def Carries {α : Type} (written : Value → α → Prop) (tree : Option Value) (items : List α) : Prop :=
  (items = [] ∧ (tree = none ∨ tree = some .null)) ∨
    ∃ trees, tree = some (.array trees) ∧ List.Forall₂ written trees items

def CarriesMessage (tree : Value) (m : Message) : Prop :=
  ∃ field, Shows tree field ∧ field "role" = some (.string (roleName m.role)) ∧
    field "content" = some (.string m.content) ∧
    (m.role = .assistant → Carries WritesCall (field "tool_calls") (m.toolCalls.getD [])) ∧
    (m.role = .tool → field "tool_call_id" = m.toolCallId.map .string)

/-- The messages a request is for: a system prompt of the options stands for all system messages. -/
def folded (messages : List Message) (opts : Options) : List Message :=
  match opts.system with
  | some sys => Message.system sys :: messages.filter (fun m => m.role ≠ .system)
  | none => messages

/-- The request carries the conversation with its tool use, the tools and the stop sequences. -/
def CarriesToolUse (request : Value) (messages : List Message) (opts : Options) : Prop :=
  ∃ field trees, Shows request field ∧ field "messages" = some (.array trees) ∧
    List.Forall₂ CarriesMessage trees (folded messages opts) ∧
    Carries WritesTool (field "tools") (opts.tools.getD []) ∧
    Carries (fun tree stop => tree = .string stop) (field "stop") opts.stopSequences

structure ChatMessage where
  content : Option String
  toolCalls : Option (List ToolCall)

structure ChatChoice where
  message : ChatMessage
  finishReason : String

/-- A response of the API; it may leave its usage out. -/
structure ChatCompletion where
  id : String
  model : String
  first : ChatChoice
  others : List ChatChoice
  usage : Option TokenUsage

def ChatCompletion.choices (chat : ChatCompletion) : List ChatChoice := chat.first :: chat.others

def ChatMessage.calls (m : ChatMessage) : List ToolCall := m.toolCalls.getD []

def ChatCompletion.toolCalls (chat : ChatCompletion) : List ToolCall :=
  chat.choices.flatMap (fun choice => choice.message.calls)

def WritesContent (tree : Option Value) : Option String → Prop
  | none => tree = none ∨ tree = some .null
  | some content => tree = some (.string content)

def WritesMessage (tree : Value) (m : ChatMessage) : Prop :=
  ∃ field, Shows tree field ∧ field "role" = some (.string "assistant") ∧ WritesContent (field "content") m.content ∧
    WritesCalls (field "tool_calls") m.toolCalls

def WritesChoice (tree : Value) (choice : ChatChoice) : Prop :=
  ∃ field, Shows tree field ∧ field "finish_reason" = some (.string choice.finishReason) ∧
    ∃ inner, field "message" = some inner ∧ WritesMessage inner choice.message

def WritesUsage (tree : Option Value) : Option TokenUsage → Prop
  | none => tree = none ∨ tree = some .null
  | some usage => ∃ inner field, tree = some inner ∧ Shows inner field ∧
    WritesUnsigned 64 (field "prompt_tokens") usage.promptTokens ∧
    WritesUnsigned 64 (field "completion_tokens") usage.completionTokens ∧
    WritesUnsigned 64 (field "total_tokens") usage.totalTokens

def WritesResponse (tree : Value) (chat : ChatCompletion) : Prop :=
  ∃ field trees, Shows tree field ∧ field "id" = some (.string chat.id) ∧ field "model" = some (.string chat.model) ∧
    field "choices" = some (.array trees) ∧ List.Forall₂ WritesChoice trees chat.choices ∧
    WritesUsage (field "usage") chat.usage

/-- The response is taken and none of its tool calls is lost. -/
def KeepsToolCalls (tree : Value) (chat : ChatCompletion) : Prop :=
  ∃ raw parsed, response tree = some raw ∧ parseResponse raw = .ok parsed ∧
    parsed.message.toolCalls.getD [] = chat.toolCalls

def sentMessage (m : Message) : OpenAIMessage := ⟨roleName m.role,m.content,m.toolCallId⟩

/-- One request message for each message, in order. -/
theorem buildRequest_messages (messages : List Message) (opts : Options) :
    (buildRequest messages opts).messages = (folded messages opts).map sentMessage := by
  unfold buildRequest folded
  cases opts.system with
  | none =>
    simp only [Option.isSome_none,Bool.false_eq_true,and_false,if_false]
    exact congrFun (List.filterMap_eq_map (f := sentMessage)) messages
  | some prompt =>
    have kept : messages.filterMap (fun m => if m.role = .system ∧ (some prompt).isSome then none
        else some (sentMessage m)) = (messages.filter (fun m => m.role ≠ .system)).map sentMessage := by
      rw [← List.filterMap_eq_map,List.filterMap_filter]
      congr 1
      funext m
      by_cases system : m.role = .system <;> simp [system]
    exact congrArg (List.cons _) kept

theorem request_shows (messages : List Message) (opts : Options) :
    ∃ field, Shows (buildRequest messages opts).serialize field ∧
      field "messages" = some (.array ((folded messages opts).map (fun m => (sentMessage m).serialize))) ∧
      field "tools" = none ∧ field "stop" = none := by
  refine ⟨_,shows_object (buildRequest messages opts).members ?_,?_,rfl,rfl⟩
  · exact (by decide : ["model","messages","max_tokens","temperature","stream"].Nodup)
  · change some (Value.array ((buildRequest messages opts).messages.map OpenAIMessage.serialize)) = _
    rw [buildRequest_messages,List.map_map]
    rfl

theorem message_shows (m : Message) : ∃ field, Shows (sentMessage m).serialize field ∧
    field "role" = some (.string (roleName m.role)) ∧ field "content" = some (.string m.content) ∧
    field "tool_calls" = none ∧ field "tool_call_id" = m.toolCallId.map .string := by
  refine ⟨_,shows_object (sentMessage m).members ?_,rfl,rfl,?_,?_⟩
  · simp only [OpenAIMessage.members,sentMessage]
    cases m.toolCallId with
    | none => exact (by decide : ["role","content"].Nodup)
    | some id => exact (by decide : ["role","content","tool_call_id"].Nodup)
  all_goals
    simp only [OpenAIMessage.members,sentMessage]
    cases m.toolCallId <;> rfl

theorem carries_absent {α : Type} (written : Value → α → Prop) (items : List α) :
    Carries written none items ↔ items = [] := by
  simp [Carries]

/-- A message is carried whole unless it is an assistant's with tool calls. -/
theorem carriesMessage_iff (m : Message) :
    CarriesMessage (sentMessage m).serialize m ↔ (m.role = .assistant → m.toolCalls.getD [] = []) := by
  obtain ⟨field,shown,role,content,calls,id⟩ := message_shows m
  constructor
  · rintro ⟨other,also,_,_,kept,_⟩ assistant
    rw [shows_unique _ _ _ also shown,calls] at kept
    exact (carries_absent _ _).mp (kept assistant)
  · intro none
    refine ⟨field,shown,role,content,?_,fun _ => id⟩
    intro assistant
    rw [calls]
    exact (carries_absent _ _).mpr (none assistant)

theorem folded_assistants (messages : List Message) (opts : Options) (p : Message → Prop) :
    (∀ m ∈ folded messages opts, m.role = .assistant → p m) ↔ ∀ m ∈ messages, m.role = .assistant → p m := by
  unfold folded
  cases opts.system with
  | none => exact Iff.rfl
  | some sys =>
    rw [List.forall_mem_cons]
    constructor
    · rintro ⟨_,others⟩ m member assistant
      refine others m (List.mem_filter.mpr ⟨member,?_⟩) assistant
      rw [assistant]
      rfl
    · intro all
      refine ⟨fun system => ?_,fun m member => all m (List.mem_filter.mp member).1⟩
      cases system

theorem carriesToolUse_iff (messages : List Message) (opts : Options) :
    CarriesToolUse (buildRequest messages opts).serialize messages opts ↔
      (∀ m ∈ messages, m.role = .assistant → m.toolCalls.getD [] = []) ∧ opts.tools.getD [] = [] ∧
        opts.stopSequences = [] := by
  obtain ⟨field,shown,sent,tools,stop⟩ := request_shows messages opts
  have carried : List.Forall₂ CarriesMessage ((folded messages opts).map (fun m => (sentMessage m).serialize))
      (folded messages opts) ↔ ∀ m ∈ messages, m.role = .assistant → m.toolCalls.getD [] = [] := by
    rw [List.forall₂_map_left_iff,List.forall₂_same,← folded_assistants messages opts]
    exact forall₂_congr (fun m _ => carriesMessage_iff m)
  constructor
  · rintro ⟨other,trees,also,listed,each,offered,stopped⟩
    obtain rfl := shows_unique _ _ _ also shown
    rw [sent] at listed
    cases listed
    rw [tools] at offered
    rw [stop] at stopped
    exact ⟨carried.mp each,(carries_absent _ _).mp offered,(carries_absent _ _).mp stopped⟩
  · rintro ⟨plain,untooled,unstopped⟩
    refine ⟨field,_,shown,sent,carried.mpr plain,?_,?_⟩
    · rw [tools]
      exact (carries_absent _ _).mpr untooled
    · rw [stop]
      exact (carries_absent _ _).mpr unstopped

/-! Reading a response. -/

def readCall (call : ToolCall) : OpenAIToolCall := ⟨call.id,"function",⟨call.name,call.arguments⟩⟩

theorem functionCall_eq (tree : Value) (call : ToolCall) (written : WritesFunction tree call) :
    functionCall tree = some ⟨call.name,call.arguments⟩ := by
  obtain ⟨field,shown,name,arguments⟩ := written
  simp only [functionCall,shows_fields _ tree field shown,name,arguments,text,Option.bind_eq_bind,Option.bind_some]
  rfl

theorem toolCall_eq (tree : Value) (call : ToolCall) (written : WritesCall tree call) :
    toolCall tree = some (readCall call) := by
  obtain ⟨field,shown,id,kind,inner,function,named⟩ := written
  simp only [toolCall,shows_fields _ tree field shown,id,kind,function,functionCall_eq inner call named,text,
    Option.bind_eq_bind,Option.bind_some]
  rfl

theorem toolCalls_eq (tree : Option Value) (calls : Option (List ToolCall)) (written : WritesCalls tree calls) :
    missable (list toolCall) tree = some (calls.map (List.map readCall)) := by
  cases calls with
  | none => rcases written with rfl | rfl <;> rfl
  | some calls =>
    obtain ⟨trees,rfl,each⟩ := written
    have read := mapM_written toolCall WritesCall (fun _ => true) readCall (fun tree call => toolCall_eq tree call)
      trees calls each
    rw [List.all_eq_true.mpr (fun _ _ => rfl),if_pos rfl] at read
    change (trees.mapM toolCall).map some = _
    rw [read]
    rfl

def readMessage (m : ChatMessage) : OpenAIResponseMessage :=
  ⟨"assistant",m.content.getD "",m.toolCalls.map (List.map readCall)⟩

/-- A message without text is not read. -/
theorem responseMessage_eq (tree : Value) (m : ChatMessage) (written : WritesMessage tree m) :
    responseMessage tree = if m.content.isSome then some (readMessage m) else none := by
  obtain ⟨field,shown,role,content,calls⟩ := written
  have read := toolCalls_eq _ _ calls
  unfold responseMessage readMessage
  rw [shows_fields _ tree field shown]
  simp only [role,text,Option.bind_eq_bind,Option.bind_some]
  cases shownContent : m.content with
  | none =>
    rw [shownContent] at content
    rcases content with absent | null
    · simp only [absent,Option.bind_none]
      rfl
    · simp only [null,Option.bind_some,text,Option.bind_none]
      rfl
  | some told =>
    rw [shownContent] at content
    have content : field "content" = some (.string told) := content
    simp only [content,Option.bind_some,text,read]
    rfl

def readChoice (choice : ChatChoice) : OpenAIChoice := ⟨readMessage choice.message,choice.finishReason⟩

theorem choice_eq (tree : Value) (c : ChatChoice) (written : WritesChoice tree c) :
    choice tree = if c.message.content.isSome then some (readChoice c) else none := by
  obtain ⟨field,shown,reason,inner,message,told⟩ := written
  simp only [choice,shows_fields _ tree field shown,message,responseMessage_eq inner c.message told,
    reason,text,Option.bind_eq_bind,Option.bind_some]
  cases c.message.content.isSome <;> rfl

theorem usage_eq (tree : Option Value) (told : Option TokenUsage) (written : WritesUsage tree told) :
    tree.bind usage = told.map (fun told => ⟨told.promptTokens,told.completionTokens,told.totalTokens⟩) := by
  cases told with
  | none => rcases written with rfl | rfl <;> rfl
  | some told =>
    obtain ⟨inner,field,rfl,shown,prompt,completion,total⟩ := written
    simp only [usage,shows_fields _ inner field shown,unsigned_written _ _ _ prompt,unsigned_written _ _ _ completion,
      unsigned_written _ _ _ total,Option.bind_eq_bind,Option.bind_some]
    rfl

theorem response_eq (tree : Value) (chat : ChatCompletion) (written : WritesResponse tree chat) :
    response tree =
      if chat.choices.all (fun choice => choice.message.content.isSome) then
        chat.usage.map (fun usage => ⟨chat.id,chat.model,chat.choices.map readChoice,
          ⟨usage.promptTokens,usage.completionTokens,usage.totalTokens⟩⟩)
      else none := by
  obtain ⟨field,trees,shown,id,model,choices,each,used⟩ := written
  have listed := mapM_written choice WritesChoice (fun c => c.message.content.isSome) readChoice choice_eq trees _ each
  have counted := usage_eq _ _ used
  simp only [response,shows_fields _ tree field shown,id,model,choices,text,Option.bind_eq_bind,Option.bind_some,list,
    listed,counted]
  split
  · cases chat.usage <;> rfl
  · rfl

/-- The calls of the first choice are returned. -/
theorem parseResponse_calls (id model : String) (chat : ChatCompletion) (usage : OpenAIUsage) :
    ∃ parsed, parseResponse ⟨id,model,chat.choices.map readChoice,usage⟩ = .ok parsed ∧
      parsed.message.toolCalls.getD [] = chat.first.message.calls := by
  refine ⟨_,rfl,?_⟩
  change (Option.map _ (chat.first.message.toolCalls.map (List.map readCall))).getD [] = _
  unfold ChatMessage.calls
  cases chat.first.message.toolCalls with
  | none => rfl
  | some calls =>
    simp only [Option.map_some,Option.getD_some,List.map_map]
    exact List.map_id calls

/-- A response keeps its calls if every choice says something, the first alone calls tools
and the usage is stated. -/
theorem keepsToolCalls_iff (tree : Value) (chat : ChatCompletion) (written : WritesResponse tree chat) :
    KeepsToolCalls tree chat ↔ chat.usage.isSome ∧ (∀ choice ∈ chat.choices, choice.message.content.isSome) ∧
      ∀ choice ∈ chat.others, choice.message.calls = [] := by
  have read := response_eq tree chat written
  have called : chat.toolCalls = chat.first.message.calls ++ chat.others.flatMap (fun c => c.message.calls) := rfl
  constructor
  · rintro ⟨raw,parsed,accepted,answered,kept⟩
    rw [read] at accepted
    split at accepted
    · rename_i told
      obtain ⟨usage,stated,rfl⟩ := Option.map_eq_some_iff.mp accepted
      obtain ⟨other,also,own⟩ := parseResponse_calls chat.id chat.model chat
        ⟨usage.promptTokens,usage.completionTokens,usage.totalTokens⟩
      obtain rfl : parsed = other := Except.ok.inj (answered.symm.trans also)
      rw [own,called] at kept
      have rest := List.append_right_eq_self.mp kept.symm
      exact ⟨Option.isSome_of_mem stated,List.all_eq_true.mp told,List.flatMap_eq_nil_iff.mp rest⟩
    · cases accepted
  · rintro ⟨stated,told,alone⟩
    obtain ⟨usage,used⟩ := Option.isSome_iff_exists.mp stated
    rw [if_pos (List.all_eq_true.mpr told),used,Option.map_some] at read
    obtain ⟨parsed,answered,own⟩ := parseResponse_calls chat.id chat.model chat
      ⟨usage.promptTokens,usage.completionTokens,usage.totalTokens⟩
    refine ⟨_,parsed,read,answered,?_⟩
    rw [own,called,List.flatMap_eq_nil_iff.mpr alone,List.append_nil]

/-- Tool use survives a request without tool calls, tools and stop sequences, and a response
whose choices all say something, with its usage and no calls but those of its first choice. -/
theorem tool_use_survives_iff (messages : List Message) (opts : Options) (tree : Value) (chat : ChatCompletion)
    (written : WritesResponse tree chat) :
    (CarriesToolUse (buildRequest messages opts).serialize messages opts ↔
      (∀ m ∈ messages, m.role = .assistant → m.toolCalls.getD [] = []) ∧ opts.tools.getD [] = [] ∧
        opts.stopSequences = []) ∧
    (KeepsToolCalls tree chat ↔ chat.usage.isSome ∧ (∀ choice ∈ chat.choices, choice.message.content.isSome) ∧
      ∀ choice ∈ chat.others, choice.message.calls = []) :=
  ⟨carriesToolUse_iff messages opts,keepsToolCalls_iff tree chat written⟩

def weatherCall : ToolCall := ⟨"call_1","get_weather","\x7b\x7d"⟩

/-- A response that calls a tool. -/
def answer (content : Option String) : ChatCompletion :=
  ⟨"chatcmpl-1","gpt-4o",⟨⟨content,some [weatherCall]⟩,"tool_calls"⟩,[],some ⟨20,15,35⟩⟩

def answerTree (content : Value) : Value :=
  .object [("id",.string "chatcmpl-1"),("model",.string "gpt-4o"),
    ("choices",.array [.object [("message",.object [("role",.string "assistant"),("content",content),
      ("tool_calls",.array [.object [("id",.string "call_1"),("type",.string "function"),
        ("function",.object [("name",.string "get_weather"),("arguments",.string "\x7b\x7d")])]])]),
      ("finish_reason",.string "tool_calls")]]),
    ("usage",.object [("prompt_tokens",.integer 20),("completion_tokens",.integer 15),("total_tokens",.integer 35)])]

theorem answer_written (tree : Value) (content : Option String) (told : WritesContent (some tree) content) :
    WritesResponse (answerTree tree) (answer content) := by
  have function : WritesCall (.object [("id",.string "call_1"),("type",.string "function"),
      ("function",.object [("name",.string "get_weather"),("arguments",.string "\x7b\x7d")])]) weatherCall :=
    ⟨_,shows_object _ (by decide : ["id","type","function"].Nodup),rfl,rfl,_,rfl,_,
      shows_object _ (by decide : ["name","arguments"].Nodup),rfl,rfl⟩
  refine ⟨_,_,shows_object _ (by decide : ["id","model","choices","usage"].Nodup),rfl,rfl,rfl,.cons ?_ .nil,?_⟩
  · exact ⟨_,shows_object _ (by decide : ["message","finish_reason"].Nodup),rfl,_,rfl,_,
      shows_object _ (by decide : ["role","content","tool_calls"].Nodup),rfl,told,_,rfl,.cons function .nil⟩
  · exact ⟨_,_,rfl,shows_object _ (by decide : ["prompt_tokens","completion_tokens","total_tokens"].Nodup),
      ⟨rfl,by decide⟩,⟨rfl,by decide⟩,rfl,by decide⟩

def plainOptions : Options := ⟨"gpt-4o",4096,"0.7",false,none,[],none⟩

theorem tool_use_survives_beside_text :
    CarriesToolUse (buildRequest [Message.user "Weather?"] plainOptions).serialize [Message.user "Weather?"] plainOptions ∧
    KeepsToolCalls (answerTree (.string "Looking.")) (answer (some "Looking.")) := by
  have survives := tool_use_survives_iff [Message.user "Weather?"] plainOptions _ _
    (answer_written (.string "Looking.") (some "Looking.") rfl)
  exact ⟨survives.1.mpr ⟨by simp [Message.user],rfl,rfl⟩,
    survives.2.mpr ⟨rfl,by simp [ChatCompletion.choices,answer],by simp [answer]⟩⟩

/-- The call an assistant made is not sent back, and a response that only calls is refused. -/
theorem tool_call_lost :
    ¬CarriesToolUse (buildRequest [Message.user "Weather?",⟨.assistant,"",some [weatherCall],none⟩,
      Message.toolResult "call_1" "72"] plainOptions).serialize
      [Message.user "Weather?",⟨.assistant,"",some [weatherCall],none⟩,Message.toolResult "call_1" "72"] plainOptions ∧
    WritesResponse (answerTree .null) (answer none) ∧ ¬KeepsToolCalls (answerTree .null) (answer none) := by
  have written := answer_written .null none (.inr rfl)
  refine ⟨?_,written,?_⟩
  · rw [carriesToolUse_iff]
    rintro ⟨uncalled,_⟩
    have called := uncalled ⟨.assistant,"",some [weatherCall],none⟩ (by simp) rfl
    cases called
  · rw [keepsToolCalls_iff _ _ written]
    rintro ⟨_,told,_⟩
    have text := told (answer none).first List.mem_cons_self
    cases text

end ClawKernel.Provider.OpenAI
