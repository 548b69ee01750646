import ClawKernel.Lib.Loops
import ClawKernel.Loop.Types
import ClawKernel.Provider.Retry
import Mathlib.Data.List.Infix

/-! `AgentLoop::run`. What the loop reads and writes is one record: the history and
the shared state outlive a run, and so do the traces of the states broadcast, the
requests sent and the events published. An effect that fails keeps the record as
it was left.
-/
namespace ClawKernel.Loop.Run
open Lib.Json Lib.Loops Loop.States Loop.Types Provider.Retry
open Provider.Types hiding FinishReason

structure Vars where
  history : List Message
  machine : StateMachine
  state : AgentState
  broadcast : List AgentState
  requests : List (List Message × Options)
  published : List Published
  chunks : List StreamChunk
  loopState : LoopState
  toolCalls : List ToolCall

abbrev Effect := EStateM AgentError Vars

def transition (event : StateEvent) : Effect AgentState := do
  let vars ← get
  match vars.machine.transition event with
  | (machine,.success new) =>
    set {vars with machine, state := new, broadcast := vars.broadcast ++ [new]}
    return new
  | (_,.invalid source event allowed) => throw (.invalidStateTransition source event allowed)

def append (message : Message) : Effect Unit :=
  modify fun vars => {vars with history := vars.history ++ [message]}

def publish (event : Published) : Effect Unit :=
  modify fun vars => {vars with published := vars.published ++ [event]}

def noteRequest (messages : List Message) (options : Options) : Effect Unit :=
  modify fun vars => {vars with requests := vars.requests ++ [(messages,options)]}

def noteUsage (usage : TokenUsage) : Effect Unit :=
  modify fun vars => {vars with loopState :=
    {vars.loopState with turn := vars.loopState.turn + 1, usage := addUsage vars.loopState.usage usage}}

def noteHistoryLen : Effect Unit :=
  modify fun vars => {vars with loopState := {vars.loopState with historyLen := vars.history.length}}

def noteToolCalls (calls : List ToolCall) : Effect Unit :=
  modify fun vars => {vars with toolCalls := vars.toolCalls ++ calls}

def earlyResult (reason : FinishReason) (vars : Vars) : AgentResult :=
  ⟨reason,vars.history.getLast?,vars.loopState.usage,vars.loopState.turn,
    (vars.history.getLast?.map Message.content).getD "",vars.toolCalls⟩

def replyResult (reason : FinishReason) (message : Message) (vars : Vars) : AgentResult :=
  ⟨reason,some message,vars.loopState.usage,vars.loopState.turn,message.content,vars.toolCalls⟩

def finishEarly (loop : AgentLoop) (reason : FinishReason) (label : String) : Effect AgentResult := do
  let _ ← transition .stopConditionMet
  let result := earlyResult reason (← get)
  publish (.loopCompleted loop.agentId label result.turns)
  return result

def executeCall (loop : AgentLoop) (registry : ToolRegistry) (request position : Nat) (call : ToolCall) :
    String × String :=
  match loop.fromStr call.arguments with
  | .error message =>
    (call.id,(Value.object [("error",.string "parameter_parse_failed"),
      ("message",.string ("Failed to parse parameters: " ++ message)),("tool_call_id",.string call.id)]).text)
  | .ok args =>
    match registry.execute request position call.name args with
    | .ok result => (call.id,(result.output.getD .null).text)
    | .error error => (call.id,(Value.object [("error",.string error.display)]).text)

def executeToolsParallel (loop : AgentLoop) (registry : ToolRegistry) (request : Nat) (calls : List ToolCall) :
    Except AgentError (List (String × String)) :=
  .ok ((calls.take loop.config.maxToolCallsPerTurn).mapIdx (executeCall loop registry request))

def noRegistryJson : String :=
  (Value.object [("error",.string "no_tool_registry"),
    ("message",.string "This agent has no tool registry configured; tool calls are not available")]).text

/-- `!result_content.contains("\"error\"")`. -/
def looksSuccessful (content : String) : Bool := !decide ("\"error\"".toList <:+: content.toList)

def appendResult (loop : AgentLoop) (calls : List ToolCall) (result : String × String) : Effect Unit := do
  match calls.find? (fun call => call.id = result.1) with
  | some call => publish (.toolResult loop.agentId call.name result.1 (looksSuccessful result.2))
  | none => pure ()
  append (.toolResult result.1 result.2)

def runTools (loop : AgentLoop) (registry : ToolRegistry) (request : Nat) (calls : List ToolCall) :
    Effect Unit := do
  noteToolCalls calls
  forM calls fun call => publish (.toolCalled loop.agentId call.name call.id)
  let _ ← transition .toolsRequired
  match executeToolsParallel loop registry request calls with
  | .error error =>
    tryCatch (do let _ ← transition .error) (fun _ => pure ())
    throw error
  | .ok results =>
    forM results (appendResult loop calls)
    noteHistoryLen
    let _ ← transition .toolsCompleted

def refuseTools (calls : List ToolCall) : Effect Unit := do
  let _ ← transition .toolsRequired
  forM calls fun call => append (.toolResult call.id noRegistryJson)
  noteHistoryLen
  let _ ← transition .toolsCompleted

def askComplete (loop : AgentLoop) : Effect CompletionResponse := do
  let vars ← get
  publish (.llmRequest loop.agentId loop.provider.providerId loop.provider.modelId vars.history.length)
  let _ ← transition .llmRequestSent
  noteRequest vars.history loop.options
  match withRetry
      (fun attempt => loop.provider.complete vars.requests.length attempt vars.history loop.options) {} with
  | .ok response => return response
  | .error error =>
    let _ ← transition .error
    throw (.provider error.display)

def finishWith (loop : AgentLoop) (reason : FinishReason) (label : String) (message : Message) :
    Effect AgentResult := do
  let _ ← transition .llmResponseReceived
  let _ ← transition .stopConditionMet
  let result := replyResult reason message (← get)
  publish (.loopCompleted loop.agentId label result.turns)
  return result

def receive (loop : AgentLoop) (request : Nat) (response : CompletionResponse) :
    Effect (Option AgentResult) := do
  noteUsage response.usage
  if loop.config.spent (← get).loopState.usage then
    append response.message
    return some (← finishWith loop .tokenBudget "token_budget" response.message)
  else
    publish (.llmResponse loop.agentId loop.provider.providerId response.usage (some response.finishReason))
    append response.message
    noteHistoryLen
    let calls := response.message.toolCalls.getD []
    if !calls.isEmpty && loop.config.toolUseEnabled then
      match loop.tools with
      | some registry => runTools loop registry request calls
      | none => refuseTools calls
      return none
    else
      return some (← finishWith loop .stop "stop" response.message)

def turn (loop : AgentLoop) : Effect (Option AgentResult) := do
  publish (.turnStarted loop.agentId (← get).loopState.turn)
  let vars ← get
  if loop.stopConditions.any (fun shouldStop => shouldStop vars.loopState) then
    return some (← finishEarly loop .stopCondition "stop_condition")
  else if loop.config.maxTurns ≤ vars.loopState.turn then
    return some (← finishEarly loop .maxTurns "max_turns")
  else if loop.config.spent vars.loopState.usage then
    return some (← finishEarly loop .tokenBudget "token_budget")
  else
    let response ← askComplete loop
    receive loop vars.requests.length response

abbrev Outcome := Except AgentError AgentResult × Vars

def iteration (body : Effect (Option AgentResult)) (vars : Vars) : Vars ⊕ Outcome :=
  match body.run vars with
  | .ok none next => .inl next
  | .ok (some result) last => .inr (.ok result,last)
  | .error error last => .inr (.error error,last)

def begin (message : String) (vars : Vars) : EStateM.Result AgentError Vars Unit :=
  let effect : Effect Unit := do
    let _ ← transition .start
    append (.user message)
  effect.run {vars with machine := .new, loopState := .new, toolCalls := [], chunks := []}

def runWith (loop : AgentLoop) (body : Effect (Option AgentResult)) (message : String) (vars : Vars) :
    Option Outcome :=
  match begin message vars with
  | .ok _ started => iterate (iteration body) (loop.config.maxTurns + 1) started
  | .error error failed => some (.error error,failed)

def run (loop : AgentLoop) : String → Vars → Option Outcome := runWith loop (turn loop)

end ClawKernel.Loop.Run
