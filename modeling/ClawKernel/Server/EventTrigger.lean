import ClawKernel.Lib.Json
import ClawKernel.Lib.Replace

/-! Events of the bus and what an event trigger makes of them: their names, the pattern and
the condition they are tested with, and the template of the injected message. JSON objects
have their members in the order of serde's map, by key.
-/
namespace ClawKernel.Server.EventTrigger
open Lib Lib.Replace

/-- A2A messages, extension events and trigger events are carried as their JSON. -/
inductive Event where
  | agentStarted (agentId : String)
  | agentStopped (agentId reason : String)
  | llmRequestStarted (agentId provider : String)
  | llmRequestCompleted (agentId : String) (promptTokens completionTokens : Nat)
  | messageReceived (agentId channel messageType : String)
  | a2a (message : Json.Value)
  | toolCalled (agentId toolName callId : String)
  | toolResult (agentId toolName callId : String) (success : Bool)
  | contextWindowApproachingLimit (agentId : String) (tokenCount tokenLimit : Nat)
  | memoryArchiveComplete (agentId : String) (archivedCount : Nat)
  | modeChanged (agentId : String) (toPowerMode : Bool)
  | extension (event : Json.Value)
  | agentRestarted (agentId : String) (attempt delayMs : Nat)
  | agentFailed (agentId : String) (attempts : Nat) (reason : String)
  | shutdown
  | triggerFired (event : Json.Value)
  | custom (eventType : String) (data : Json.Value)

def eventTypeName : Event → String
  | .agentStarted _ => "agent.started"
  | .agentStopped .. => "agent.stopped"
  | .llmRequestStarted .. => "llm.request.started"
  | .llmRequestCompleted .. => "llm.request.completed"
  | .messageReceived .. => "message.received"
  | .a2a _ => "a2a"
  | .toolCalled .. => "tool.called"
  | .toolResult .. => "tool.result"
  | .contextWindowApproachingLimit .. => "context.window.limit"
  | .memoryArchiveComplete .. => "memory.archive.complete"
  | .modeChanged .. => "mode.changed"
  | .extension _ => "extension"
  | .agentRestarted .. => "agent.restarted"
  | .agentFailed .. => "agent.failed"
  | .shutdown => "shutdown"
  | .custom eventType _ => eventType
  | .triggerFired _ => "unknown"

def tagged (variant : String) (members : List (String × Json.Value)) : Json.Value :=
  .object [(variant,.object members)]

def toValue : Event → Json.Value
  | .agentStarted agentId => tagged "AgentStarted" [("agent_id",.string agentId)]
  | .agentStopped agentId reason => tagged "AgentStopped" [("agent_id",.string agentId),("reason",.string reason)]
  | .llmRequestStarted agentId provider =>
    tagged "LlmRequestStarted" [("agent_id",.string agentId),("provider",.string provider)]
  | .llmRequestCompleted agentId prompt completion =>
    tagged "LlmRequestCompleted" [("agent_id",.string agentId),("completion_tokens",.integer completion),
      ("prompt_tokens",.integer prompt)]
  | .messageReceived agentId channel messageType =>
    tagged "MessageReceived" [("agent_id",.string agentId),("channel",.string channel),
      ("message_type",.string messageType)]
  | .a2a message => .object [("A2A",message)]
  | .toolCalled agentId toolName callId =>
    tagged "ToolCalled" [("agent_id",.string agentId),("call_id",.string callId),("tool_name",.string toolName)]
  | .toolResult agentId toolName callId success =>
    tagged "ToolResult" [("agent_id",.string agentId),("call_id",.string callId),("success",.bool success),
      ("tool_name",.string toolName)]
  | .contextWindowApproachingLimit agentId count limit =>
    tagged "ContextWindowApproachingLimit" [("agent_id",.string agentId),("token_count",.integer count),
      ("token_limit",.integer limit)]
  | .memoryArchiveComplete agentId count =>
    tagged "MemoryArchiveComplete" [("agent_id",.string agentId),("archived_count",.integer count)]
  | .modeChanged agentId toPowerMode =>
    tagged "ModeChanged" [("agent_id",.string agentId),("to_power_mode",.bool toPowerMode)]
  | .extension event => .object [("Extension",event)]
  | .agentRestarted agentId attempt delayMs =>
    tagged "AgentRestarted" [("agent_id",.string agentId),("attempt",.integer attempt),("delay_ms",.integer delayMs)]
  | .agentFailed agentId attempts reason =>
    tagged "AgentFailed" [("agent_id",.string agentId),("attempts",.integer attempts),("reason",.string reason)]
  | .shutdown => .string "Shutdown"
  | .triggerFired event => .object [("TriggerFired",event)]
  | .custom eventType data => tagged "Custom" [("data",data),("event_type",.string eventType)]

def regexMetacharacters : List Char := ['.','+','(',')','[',']','\x7b','\x7d','^','$','|','\\']

/-- The regular expression `build_event_pattern_regex` compiles. -/
def patternSource (pattern : String) : String :=
  String.ofList ('^' :: pattern.toList.flatMap (fun c =>
    if c = '*' then ['.','*'] else if c = '?' then ['.']
    else if c ∈ regexMetacharacters then ['\\',c] else [c]) ++ ['$'])

def splitDots : List Char → List Char → List String
  | [], part => [String.ofList part.reverse]
  | c :: rest, part => if c = '.' then String.ofList part.reverse :: splitDots rest [] else splitDots rest (c :: part)

def navigate : List String → Json.Value → Option Json.Value
  | [], current => some current
  | part :: rest, current =>
    match current.get part with
    | none => none
    | some next => navigate rest next

def conditionMatches (event : Event) (condition : Json.Value) : Bool :=
  match (condition.get "field").bind Json.Value.asStr with
  | none => true
  | some field =>
    match condition.get "equals" with
    | none => true
    | some expected =>
      match navigate (splitDots field.toList []) (toValue event) with
      | none => false
      | some current => current.same expected

def placeholder : String := "\x7bevent.type\x7d"

def renderTemplate (template : String) (event : Event) : String :=
  String.ofList (replaceAll placeholder.toList (eventTypeName event).toList template.toList)

/-- A template is injected as it is written exactly when it has no placeholder, or the
event is called like the placeholder. -/
theorem renderTemplate_eq_iff (template : String) (event : Event) :
    renderTemplate template event = template ↔
      ¬placeholder.toList <:+: template.toList ∨ eventTypeName event = placeholder := by
  rw [renderTemplate,← String.toList_inj,String.toList_ofList,replaceAll_eq_iff _ _ (by decide),String.toList_inj]

theorem renderTemplate_placeholder (event : Event) : renderTemplate placeholder event = eventTypeName event := by
  rw [renderTemplate,replaceAll_pattern _ _ (by decide),String.ofList_toList]

example : renderTemplate "Event: \x7bevent.type\x7d received" (.agentStarted "a1") =
    "Event: agent.started received" := by decide

end ClawKernel.Server.EventTrigger
