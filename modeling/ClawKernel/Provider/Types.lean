import Mathlib.Data.Nat.Notation

/-! Conversation messages, completion responses, streamed deltas and provider errors.
-/
namespace ClawKernel.Provider.Types

inductive Role where
  | user
  | assistant
  | system
  | tool
  deriving DecidableEq, Repr

structure ToolCall where
  id : String
  name : String
  arguments : String
  deriving DecidableEq, Repr

structure Message where
  role : Role
  content : String
  toolCalls : Option (List ToolCall)
  toolCallId : Option String
  deriving DecidableEq, Repr

namespace Message

def user (content : String) : Message := ⟨.user,content,none,none⟩

def assistant (content : String) : Message := ⟨.assistant,content,none,none⟩

def system (content : String) : Message := ⟨.system,content,none,none⟩

def toolResult (toolCallId content : String) : Message := ⟨.tool,content,none,some toolCallId⟩

end Message

structure TokenUsage where
  promptTokens : Nat
  completionTokens : Nat
  totalTokens : Nat
  deriving DecidableEq, Repr

inductive FinishReason where
  | stop
  | length
  | toolCalls
  | contentFilter
  | other (name : String)
  deriving DecidableEq, Repr

structure CompletionResponse where
  id : String
  model : String
  message : Message
  finishReason : FinishReason
  usage : TokenUsage
  deriving DecidableEq, Repr

structure Delta where
  content : Option String
  toolCall : Option ToolCall
  finishReason : Option FinishReason
  usage : Option TokenUsage
  deriving DecidableEq, Repr

/-- `invalidTemperature` carries the number's text. -/
inductive ProviderError where
  | http (status : Nat) (message : String)
  | network (message : String)
  | auth (message : String)
  | rateLimited (retryAfterSecs : Nat)
  | invalidRequest (message : String)
  | serialization (message : String)
  | stream (message : String)
  | modelNotFound (model : String)
  | contextLengthExceeded
  | invalidTemperature (temperature : String)
  | other (message : String)
  | buildFailed (message : String)
  deriving DecidableEq, Repr

def ProviderError.display : ProviderError → String
  | .http status message => "HTTP error: " ++ toString status ++ " — " ++ message
  | .network message => "network error: " ++ message
  | .auth message => "authentication failed: " ++ message
  | .rateLimited secs => "rate limited, retry after " ++ toString secs ++ "s"
  | .invalidRequest message => "invalid request: " ++ message
  | .serialization message => "serialization error: " ++ message
  | .stream message => "stream error: " ++ message
  | .modelNotFound model => "model not found: " ++ model
  | .contextLengthExceeded => "context length exceeded"
  | .invalidTemperature temperature =>
    "invalid temperature: " ++ temperature ++ ". Must be between 0.0 and 2.0"
  | .other message => "provider error: " ++ message
  | .buildFailed message => "transport build failed: " ++ message

end ClawKernel.Provider.Types
