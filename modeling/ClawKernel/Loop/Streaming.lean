import ClawKernel.Loop.Run

/-! `AgentLoop::run_streaming`: the same loop over a provider's delta stream, which
assembles the reply itself and sends chunks to a receiver that stays open.
-/
namespace ClawKernel.Loop.Streaming
open Lib.Json Loop.States Loop.Types Loop.Run
open Provider.Types hiding FinishReason

/-- What the delta loop accumulates. The tool call being assembled has an id, a
name and the arguments so far. -/
structure Assembly where
  content : String
  calls : List ToolCall
  usage : Option TokenUsage
  finishReason : Option Provider.Types.FinishReason
  partialId : Option String
  partialName : Option String
  partialArgs : String
  deriving DecidableEq, Repr

def Assembly.empty : Assembly := ⟨"",[],none,none,none,none,""⟩

def send (chunk : StreamChunk) : Effect Unit :=
  modify fun vars => {vars with chunks := vars.chunks ++ [chunk]}

def flush (assembly : Assembly) : Assembly × List StreamChunk :=
  match assembly.partialId with
  | some id =>
    let name := assembly.partialName.getD ""
    let calls := assembly.calls ++ [⟨id,name,assembly.partialArgs⟩]
    ({assembly with calls, partialId := none, partialName := none, partialArgs := ""},[.toolStart id name])
  | none => (assembly,[])

def takeToolCall (piece : ToolCall) (assembly : Assembly) : Assembly × List StreamChunk :=
  let isNewCall := piece.id ≠ assembly.partialId.getD ""
  let (assembly,chunks) := if isNewCall then flush assembly else (assembly,[])
  if isNewCall ∧ piece.id ≠ "" then
    let partialArgs := piece.arguments
    ({assembly with partialId := some piece.id, partialName := some piece.name, partialArgs},chunks)
  else ({assembly with partialArgs := assembly.partialArgs ++ piece.arguments},chunks)

def takeText (content : Option String) (assembly : Assembly) : Assembly × List StreamChunk :=
  match content with
  | some text =>
    if text ≠ "" then ({assembly with content := assembly.content ++ text},[.text text false])
    else (assembly,[])
  | none => (assembly,[])

def takeDelta (delta : Delta) (assembly : Assembly) : Assembly × List StreamChunk :=
  let finishReason := delta.finishReason.or assembly.finishReason
  let assembly := {assembly with usage := delta.usage.or assembly.usage, finishReason}
  let (assembly,texts) := takeText delta.content assembly
  match delta.toolCall with
  | some piece =>
    let (assembly,starts) := takeToolCall piece assembly
    (assembly,texts ++ starts)
  | none => (assembly,texts)

def drain : List (Except ProviderError Delta) → Assembly → Effect Assembly
  | [], assembly => do
    let (assembly,chunks) := flush assembly
    forM chunks send
    return assembly
  | .error error :: _, _ => do
    let _ ← transition .error
    send (.error error.display)
    throw (.provider error.display)
  | .ok delta :: rest, assembly => do
    let (assembly,chunks) := takeDelta delta assembly
    forM chunks send
    drain rest assembly

def finishEarly (loop : AgentLoop) (reason : FinishReason) (label : String) : Effect AgentResult := do
  let _ ← transition .stopConditionMet
  let result := earlyResult reason (← get)
  publish (.loopCompleted loop.agentId label result.turns)
  send (.finish reason)
  return result

def askStream (loop : AgentLoop) : Effect Assembly := do
  let vars ← get
  publish (.llmRequest loop.agentId loop.provider.providerId loop.provider.modelId vars.history.length)
  let _ ← transition .llmRequestSent
  noteRequest vars.history loop.options
  match loop.provider.completeStream vars.requests.length vars.history loop.options with
  | .error error =>
    let _ ← transition .error
    send (.error error.display)
    throw (.provider error.display)
  | .ok items => drain items .empty

/-- The usage of the turn: what the stream reported, or an estimate from the text. -/
def turnUsage (assembly : Assembly) : TokenUsage :=
  match assembly.usage with
  | some usage => usage
  | none =>
    let estimated := assembly.content.utf8ByteSize / 4 + 10
    ⟨0,estimated,estimated⟩

def assistantMessage (assembly : Assembly) : Message :=
  if assembly.calls.isEmpty then .assistant assembly.content
  else {Message.assistant assembly.content with toolCalls := some assembly.calls}

def appendResult (loop : AgentLoop) (calls : List ToolCall) (result : String × String) : Effect Unit := do
  send (.toolComplete result.1
    (match loop.fromStr result.2 with | .ok value => value | .error _ => .string result.2))
  match calls.find? (fun call => call.id = result.1) with
  | some call => publish (.toolResult loop.agentId call.name result.1 (looksSuccessful result.2))
  | none => pure ()
  append (.toolResult result.1 result.2)

def runTools (loop : AgentLoop) (registry : ToolRegistry) (request : Nat) (calls : List ToolCall) :
    Effect Unit := do
  noteToolCalls calls
  forM calls fun call => publish (.toolCalled loop.agentId call.name call.id)
  let _ ← transition .toolsRequired
  match executeToolsParallel loop registry request calls with
  | .error error =>
    tryCatch (do let _ ← transition .error) (fun _ => pure ())
    throw error
  | .ok results =>
    forM results (appendResult loop calls)
    noteHistoryLen
    let _ ← transition .toolsCompleted

def refuseTools (calls : List ToolCall) : Effect Unit := do
  let _ ← transition .toolsRequired
  forM calls fun call => do
    send (.toolError call.id "no_tool_registry")
    append (.toolResult call.id noRegistryJson)
  noteHistoryLen
  let _ ← transition .toolsCompleted

def receive (loop : AgentLoop) (request : Nat) (assembly : Assembly) : Effect (Option AgentResult) := do
  noteUsage (turnUsage assembly)
  let message := assistantMessage assembly
  let vars ← get
  if loop.config.spent vars.loopState.usage then
    append message
    let _ ← transition .llmResponseReceived
    let _ ← transition .stopConditionMet
    let result := {replyResult .tokenBudget message vars with content := assembly.content}
    publish (.loopCompleted loop.agentId "token_budget" result.turns)
    send (.finish .tokenBudget)
    return some result
  else
    publish (.llmResponse loop.agentId loop.provider.providerId vars.loopState.usage assembly.finishReason)
    append message
    noteHistoryLen
    if !assembly.calls.isEmpty && loop.config.toolUseEnabled then
      match loop.tools with
      | some registry => runTools loop registry request assembly.calls
      | none => refuseTools assembly.calls
      return none
    else
      let _ ← transition .llmResponseReceived
      let _ ← transition .stopConditionMet
      send (.text "" true)
      send (.usageUpdate vars.loopState.usage)
      send (.finish .stop)
      let result := {replyResult .stop message vars with content := assembly.content}
      publish (.loopCompleted loop.agentId "stop" result.turns)
      return some result

def turn (loop : AgentLoop) : Effect (Option AgentResult) := do
  publish (.turnStarted loop.agentId (← get).loopState.turn)
  let vars ← get
  if loop.stopConditions.any (fun shouldStop => shouldStop vars.loopState) then
    return some (← finishEarly loop .stopCondition "stop_condition")
  else if loop.config.maxTurns ≤ vars.loopState.turn then
    return some (← finishEarly loop .maxTurns "max_turns")
  else if loop.config.spent vars.loopState.usage then
    return some (← finishEarly loop .tokenBudget "token_budget")
  else
    let assembly ← askStream loop
    receive loop vars.requests.length assembly

def runStreaming (loop : AgentLoop) : String → Vars → Option Outcome := runWith loop (turn loop)

end ClawKernel.Loop.Streaming
