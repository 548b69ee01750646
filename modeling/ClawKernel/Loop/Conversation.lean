import ClawKernel.Loop.Streaming

/-! What the two loops have in common: a conversation whose turns ask for a reply,
append it with the answers to its tool calls, and stop. How the reply is obtained
is a parameter. Both loops refine it, each with its own way of asking.
-/
namespace ClawKernel.Loop.Conversation
open Lib.Json Lib.Loops Loop.States Loop.Types Loop.Run
open Provider.Types hiding FinishReason
open Provider.Retry

structure Reply where
  message : Message
  usage : TokenUsage
  deriving DecidableEq, Repr

def Reply.calls (reply : Reply) : List ToolCall := reply.message.toolCalls.getD []

structure Talk where
  history : List Message
  broadcast : List AgentState
  requests : List (List Message × Options)
  loopState : LoopState
  toolCalls : List ToolCall
  deriving DecidableEq, Repr

abbrev Ending := Except AgentError AgentResult × Talk

/-- How a request is answered: the number of requests before it, and its messages. -/
abbrev Ask := Nat → List Message → Except ProviderError Reply

namespace Talk

def say (talk : Talk) (states : List AgentState) : Talk :=
  {talk with broadcast := talk.broadcast ++ states}

def append (talk : Talk) (messages : List Message) : Talk :=
  {talk with history := talk.history ++ messages}

def request (talk : Talk) (options : Options) : Talk :=
  {talk with requests := talk.requests ++ [(talk.history,options)]}

def spend (talk : Talk) (usage : TokenUsage) : Talk :=
  let loopState := {talk.loopState with turn := talk.loopState.turn + 1, usage := addUsage talk.loopState.usage usage}
  {talk with loopState}

def measure (talk : Talk) : Talk :=
  {talk with loopState := {talk.loopState with historyLen := talk.history.length}}

def record (talk : Talk) (calls : List ToolCall) : Talk :=
  {talk with toolCalls := talk.toolCalls ++ calls}

def early (talk : Talk) (reason : FinishReason) : AgentResult :=
  ⟨reason,talk.history.getLast?,talk.loopState.usage,talk.loopState.turn,
    (talk.history.getLast?.map Message.content).getD "",talk.toolCalls⟩

def result (talk : Talk) (reason : FinishReason) (message : Message) : AgentResult :=
  ⟨reason,some message,talk.loopState.usage,talk.loopState.turn,message.content,talk.toolCalls⟩

end Talk

def stopReason (loop : AgentLoop) (state : LoopState) : Option FinishReason :=
  if loop.stopConditions.any (fun shouldStop => shouldStop state) then some .stopCondition
  else if loop.config.maxTurns ≤ state.turn then some .maxTurns
  else if loop.config.spent state.usage then some .tokenBudget
  else none

def answers (loop : AgentLoop) (request : Nat) (calls : List ToolCall) : List Message :=
  match loop.tools with
  | some registry =>
    ((calls.take loop.config.maxToolCallsPerTurn).mapIdx (executeCall loop registry request)).map
      (fun result => .toolResult result.1 result.2)
  | none => calls.map (fun call => .toolResult call.id noRegistryJson)

def recorded (loop : AgentLoop) (calls : List ToolCall) : List ToolCall :=
  if loop.tools.isSome then calls else []

def answered (loop : AgentLoop) (request : Nat) (calls : List ToolCall) (talk : Talk) : Talk :=
  ((talk.record (recorded loop calls)).append (answers loop request calls)).measure.say [.toolExecuting,.running]

def hear (loop : AgentLoop) (request : Nat) (reply : Reply) (talk : Talk) : Talk ⊕ Ending :=
  let heard := (talk.spend reply.usage).append [reply.message]
  if loop.config.spent heard.loopState.usage then
    .inr (.ok (heard.result .tokenBudget reply.message),heard.say [.running,.completed])
  else if reply.calls ≠ [] ∧ loop.config.toolUseEnabled then
    .inl (answered loop request reply.calls heard)
  else
    .inr (.ok (heard.result .stop reply.message),heard.measure.say [.running,.completed])

def asked (loop : AgentLoop) (ask : Ask) (talk : Talk) : Talk ⊕ Ending :=
  let waiting := (talk.request loop.options).say [.awaitingLLM]
  match ask talk.requests.length talk.history with
  | .error error => .inr (.error (.provider error.display),waiting.say [.error])
  | .ok reply => hear loop talk.requests.length reply waiting

def exchange (loop : AgentLoop) (ask : Ask) (talk : Talk) : Talk ⊕ Ending :=
  match stopReason loop talk.loopState with
  | some reason => .inr (.ok (talk.early reason),talk.say [.completed])
  | none => asked loop ask talk

def start (message : String) (talk : Talk) : Talk :=
  {(talk.append [.user message]).say [.running] with loopState := .new, toolCalls := []}

def converse (loop : AgentLoop) (ask : Ask) (message : String) (talk : Talk) : Option Ending :=
  iterate (exchange loop ask) (loop.config.maxTurns + 1) (start message talk)

def completeAsk (loop : AgentLoop) : Ask := fun request messages =>
  (withRetry (fun attempt => loop.provider.complete request attempt messages loop.options) {}).map
    (fun response => ⟨response.message,response.usage⟩)

def assemble : List (Except ProviderError Delta) → Streaming.Assembly → Except ProviderError Streaming.Assembly
  | [], assembly => .ok (Streaming.flush assembly).1
  | .error error :: _, _ => .error error
  | .ok delta :: rest, assembly => assemble rest (Streaming.takeDelta delta assembly).1

def replyOf (assembly : Streaming.Assembly) : Reply :=
  ⟨Streaming.assistantMessage assembly,Streaming.turnUsage assembly⟩

def streamAsk (loop : AgentLoop) : Ask := fun request messages =>
  match loop.provider.completeStream request messages loop.options with
  | .error error => .error error
  | .ok items => (assemble items .empty).map replyOf

theorem streamAsk_opened (loop : AgentLoop) (request : Nat) (messages : List Message)
    (items : List (Except ProviderError Delta))
    (opened : loop.provider.completeStream request messages loop.options = .ok items) :
    streamAsk loop request messages = (assemble items .empty).map replyOf := by
  rw [streamAsk,opened]

theorem streamAsk_ok (loop : AgentLoop) (request : Nat) (messages : List Message) (reply : Reply)
    (given : streamAsk loop request messages = .ok reply) :
    ∃ items assembly, loop.provider.completeStream request messages loop.options = .ok items ∧
      assemble items .empty = .ok assembly ∧ reply = replyOf assembly := by
  unfold streamAsk at given
  cases opened : loop.provider.completeStream request messages loop.options with
  | error refused => simp [opened] at given
  | ok items =>
    cases assembled : assemble items .empty with
    | error first => simp [opened,assembled,Except.map] at given
    | ok assembly =>
      refine ⟨items,assembly,rfl,assembled,?_⟩
      simpa [opened,assembled,Except.map] using given.symm

theorem replyOf_calls (assembly : Streaming.Assembly) : (replyOf assembly).calls = assembly.calls := by
  unfold Reply.calls replyOf Streaming.assistantMessage
  cases calls : assembly.calls <;> simp [Message.assistant]

theorem replyOf_content (assembly : Streaming.Assembly) : (replyOf assembly).message.content = assembly.content := by
  unfold replyOf Streaming.assistantMessage
  cases assembly.calls <;> simp [Message.assistant]

theorem replyOf_role (assembly : Streaming.Assembly) : (replyOf assembly).message.role = .assistant := by
  unfold replyOf Streaming.assistantMessage
  dsimp only
  split <;> rfl

section Hearing

variable (loop : AgentLoop) (request : Nat) (reply : Reply) (talk : Talk)

theorem hear_spent (spent : loop.config.spent (talk.spend reply.usage).loopState.usage = true) :
    hear loop request reply talk =
      .inr (.ok (((talk.spend reply.usage).append [reply.message]).result .tokenBudget reply.message),
        ((talk.spend reply.usage).append [reply.message]).say [.running,.completed]) :=
  if_pos spent

theorem hear_calls (under : ¬loop.config.spent (talk.spend reply.usage).loopState.usage = true)
    (calls : reply.calls ≠ [] ∧ loop.config.toolUseEnabled = true) :
    hear loop request reply talk =
      .inl (answered loop request reply.calls ((talk.spend reply.usage).append [reply.message])) :=
  (if_neg under).trans (if_pos calls)

theorem hear_stop (under : ¬loop.config.spent (talk.spend reply.usage).loopState.usage = true)
    (done : ¬(reply.calls ≠ [] ∧ loop.config.toolUseEnabled = true)) :
    hear loop request reply talk =
      .inr (.ok (((talk.spend reply.usage).append [reply.message]).result .stop reply.message),
        ((talk.spend reply.usage).append [reply.message]).measure.say [.running,.completed]) :=
  (if_neg under).trans (if_neg done)

end Hearing

theorem calls_test (calls : List ToolCall) (enabled : Bool) :
    (!calls.isEmpty && enabled) = true ↔ calls ≠ [] ∧ enabled = true := by
  cases calls <;> simp

theorem answered_measure (loop : AgentLoop) (request : Nat) (calls : List ToolCall) (talk : Talk) :
    answered loop request calls talk.measure = answered loop request calls talk := rfl

/-- Everything a turn can do: stop before it asks, fail, stop with the reply, or
answer the calls of the reply and go on. -/
theorem exchange_cases (loop : AgentLoop) (ask : Ask) (talk : Talk) :
    (∃ reason, stopReason loop talk.loopState = some reason ∧
      exchange loop ask talk = .inr (.ok (talk.early reason),talk.say [.completed])) ∨
    stopReason loop talk.loopState = none ∧
      ((∃ error, ask talk.requests.length talk.history = .error error ∧
        exchange loop ask talk =
          .inr (.error (.provider error.display),((talk.request loop.options).say [.awaitingLLM]).say [.error])) ∨
      (∃ reply, ask talk.requests.length talk.history = .ok reply ∧
        exchange loop ask talk =
          hear loop talk.requests.length reply ((talk.request loop.options).say [.awaitingLLM]))) := by
  unfold exchange
  cases stopped : stopReason loop talk.loopState with
  | some reason => exact .inl ⟨reason,rfl,rfl⟩
  | none =>
    refine .inr ⟨rfl,?_⟩
    unfold asked
    cases given : ask talk.requests.length talk.history with
    | error error => exact .inl ⟨error,rfl,rfl⟩
    | ok reply => exact .inr ⟨reply,rfl,rfl⟩

theorem hear_cases (loop : AgentLoop) (request : Nat) (reply : Reply) (talk : Talk) :
    (loop.config.spent (talk.spend reply.usage).loopState.usage = false ∧ reply.calls ≠ [] ∧
      loop.config.toolUseEnabled = true ∧
      hear loop request reply talk =
        .inl (answered loop request reply.calls ((talk.spend reply.usage).append [reply.message]))) ∨
    (∃ result last, hear loop request reply talk = .inr (result,last) ∧
      last.history = talk.history ++ [reply.message] ∧ last.requests = talk.requests) := by
  by_cases spent : loop.config.spent (talk.spend reply.usage).loopState.usage = true
  · exact .inr ⟨_,_,hear_spent loop request reply talk spent,rfl,rfl⟩
  · by_cases calls : reply.calls ≠ [] ∧ loop.config.toolUseEnabled = true
    · exact .inl ⟨by simpa using spent,calls.1,calls.2,hear_calls loop request reply talk spent calls⟩
    · exact .inr ⟨_,_,hear_stop loop request reply talk spent calls,rfl,rfl⟩

theorem stopReason_turn (loop : AgentLoop) (state : LoopState) (free : stopReason loop state = none) :
    state.turn < loop.config.maxTurns := by
  by_contra limit
  simp only [stopReason,not_lt.mp limit,if_true] at free
  split at free <;> cases free

/-- The bound on the iterations is enough: every conversation ends. -/
theorem converse_ends (loop : AgentLoop) (ask : Ask) (message : String) (talk : Talk) :
    ∃ ending, converse loop ask message talk = some ending := by
  refine iterate_ends _ (fun talk => talk.loopState.turn) loop.config.maxTurns ?_ _ _ (by omega) (by omega)
  intro talk next went
  rcases exchange_cases loop ask talk with ⟨_,_,ended⟩ | ⟨free,⟨_,_,ended⟩ | ⟨reply,_,heard⟩⟩
  · simp [ended] at went
  · simp [ended] at went
  · refine ⟨stopReason_turn loop _ free,?_⟩
    rw [heard] at went
    rcases hear_cases loop talk.requests.length reply _ with ⟨-,-,-,on⟩ | ⟨_,_,ended,-⟩
    · obtain rfl := Sum.inl.inj (on.symm.trans went)
      exact Nat.lt_succ_self _
    · simp [ended] at went

end ClawKernel.Loop.Conversation
