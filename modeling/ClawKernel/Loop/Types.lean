import ClawKernel.Lib.Json
import ClawKernel.Loop.States
import ClawKernel.Provider.Types

/-! Configuration, results and collaborators of an agent loop.
A provider and a registry may answer differently each time they are asked: their
functions take the number of requests the loop has sent in its life before, and a
provider also the number of the attempt within one request. Wall-clock time is
left out.
-/
namespace ClawKernel.Loop.Types
open Lib.Json Loop.States Provider.Types

inductive AgentError where
  | provider (message : String)
  | context (message : String)
  | invalidStateTransition (source : AgentState) (event : StateEvent) (allowed : List StateEvent)
  deriving DecidableEq, Repr

structure AgentLoopConfig where
  maxTurns : Nat := 20
  tokenBudget : Nat := 0
  systemPrompt : Option String := none
  toolUseEnabled : Bool := true
  maxToolCallsPerTurn : Nat := 10
  deriving DecidableEq, Repr

inductive FinishReason where
  | stop
  | maxTurns
  | tokenBudget
  | noToolCall
  | stopCondition
  | error
  deriving DecidableEq, Repr

structure LoopState where
  turn : Nat
  usage : TokenUsage
  historyLen : Nat
  deriving DecidableEq, Repr

def LoopState.new : LoopState := ⟨0,⟨0,0,0⟩,0⟩

structure AgentResult where
  finishReason : FinishReason
  lastMessage : Option Message
  usage : TokenUsage
  turns : Nat
  content : String
  toolCalls : List ToolCall
  deriving DecidableEq, Repr

inductive StreamChunk where
  | text (content : String) (isFinal : Bool)
  | toolStart (id name : String)
  | toolComplete (id : String) (result : Value)
  | toolError (id error : String)
  | usageUpdate (usage : TokenUsage)
  | finish (reason : FinishReason)
  | error (message : String)
  deriving Repr

/-- Calls of the event publisher. `llmResponse` carries the finish reason whose
debug text is published. -/
inductive Published where
  | turnStarted (agentId : String) (turn : Nat)
  | llmRequest (agentId provider model : String) (messageCount : Nat)
  | llmResponse (agentId provider : String) (usage : TokenUsage)
      (finishReason : Option Provider.Types.FinishReason)
  | toolCalled (agentId toolName callId : String)
  | toolResult (agentId toolName callId : String) (success : Bool)
  | loopCompleted (agentId reason : String) (totalTurns : Nat)
  deriving DecidableEq, Repr

/-- The options a loop sets; the others keep their defaults in every request. -/
structure Options where
  model : String
  maxTokens : Nat
  system : Option String
  deriving DecidableEq, Repr

structure LLMProvider where
  providerId : String
  modelId : String
  complete : (request attempt : Nat) → List Message → Options → Except ProviderError CompletionResponse
  completeStream : (request : Nat) → List Message → Options →
    Except ProviderError (List (Except ProviderError Delta))

inductive ToolErrorCode where
  | invalidParameter
  | executionFailed
  | timeout
  | permissionDenied
  | resourceNotFound
  | rateLimited
  | internalError
  deriving DecidableEq, Repr

structure ToolError where
  code : ToolErrorCode
  message : String
  deriving DecidableEq, Repr

structure ToolResult where
  success : Bool
  output : Option Value
  error : Option ToolError
  deriving Repr

inductive RegistryError where
  | toolNotFound (name : String)
  | alreadyExists (name : String)
  | permissionDenied (tool permission : String)
  | timeout (ms : Nat)
  | executionFailed (message : String)
  deriving DecidableEq, Repr

def RegistryError.display : RegistryError → String
  | .toolNotFound name => "tool not found: " ++ name
  | .alreadyExists name => "tool already registered: " ++ name
  | .permissionDenied tool permission => "permission denied: tool '" ++ tool ++ "' requires " ++ permission
  | .timeout ms => "execution timed out after " ++ toString ms ++ "ms"
  | .executionFailed message => "execution error: " ++ message

/-- `position` is the place of the call among those of its turn. -/
structure ToolRegistry where
  execute : (request position : Nat) → (name : String) → Value → Except RegistryError ToolResult

/-- `fromStr` is `serde_json::from_str`, with the text of its error. -/
structure AgentLoop where
  provider : LLMProvider
  tools : Option ToolRegistry
  stopConditions : List (LoopState → Bool)
  config : AgentLoopConfig
  agentId : String
  fromStr : String → Except String Value

structure AgentLoopBuilder where
  provider : Option LLMProvider
  tools : Option ToolRegistry
  stopConditions : List (LoopState → Bool)
  config : AgentLoopConfig
  agentId : String
  fromStr : String → Except String Value

def AgentLoopBuilder.build (builder : AgentLoopBuilder) : Except AgentError AgentLoop :=
  match builder.provider with
  | none => .error (.context "no provider set")
  | some provider =>
    if builder.config.maxToolCallsPerTurn = 0 then
      .error (.context
        "max_tool_calls_per_turn must be > 0; a value of 0 would silently discard all tool calls")
    else if builder.config.maxTurns = 0 then
      .error (.context "max_turns 必须 ≥ 1（为 0 表示循环永远不会执行任何轮次）")
    else
      .ok ⟨provider,builder.tools,builder.stopConditions,builder.config,builder.agentId,builder.fromStr⟩

/-- `token_budget > 0 && total_tokens >= token_budget`. -/
def AgentLoopConfig.spent (config : AgentLoopConfig) (usage : TokenUsage) : Bool :=
  0 < config.tokenBudget && config.tokenBudget ≤ usage.totalTokens

def AgentLoop.options (loop : AgentLoop) : Options := ⟨loop.provider.modelId,4096,loop.config.systemPrompt⟩

def addUsage (total more : TokenUsage) : TokenUsage :=
  ⟨total.promptTokens + more.promptTokens,total.completionTokens + more.completionTokens,
    total.totalTokens + more.totalTokens⟩

end ClawKernel.Loop.Types
