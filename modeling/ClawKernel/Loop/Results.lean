import ClawKernel.Loop.Pairing

/-! What the result of a run says of it: the calls that were executed, the last message of the
assistant and its text, whatever the run ends with.
-/
namespace ClawKernel.Loop.Results
open Lib.Loops Loop.Types Loop.Run Loop.Conversation Loop.Refinement Loop.Pairing
open Provider.Types hiding FinishReason

/-- Of the calls of a turn, those that a tool of the registry is executed for: of as many as
the limit allows, the ones whose arguments can be read. -/
def executed (loop : AgentLoop) (calls : List ToolCall) : List ToolCall :=
  match loop.tools with
  | some _ => (calls.take loop.config.maxToolCallsPerTurn).filter (fun call => (loop.fromStr call.arguments).isOk)
  | none => []

/-- Whether the loop goes on with the calls of a reply. -/
def GoesOn (loop : AgentLoop) (talk : Talk) (reply : Reply) : Prop :=
  loop.config.spent (talk.spend reply.usage).loopState.usage = false ∧ reply.calls ≠ [] ∧ loop.config.toolUseEnabled = true

instance (loop : AgentLoop) (talk : Talk) (reply : Reply) : Decidable (GoesOn loop talk reply) :=
  inferInstanceAs (Decidable (_ ∧ _ ∧ _))

/-- The calls that are executed in a turn. -/
def executedIn (loop : AgentLoop) (ask : Ask) (talk : Talk) : List ToolCall :=
  match stopReason loop talk.loopState with
  | some _ => []
  | none =>
    match ask talk.requests.length talk.history with
    | .error _ => []
    | .ok reply => if GoesOn loop talk reply then executed loop reply.calls else []

def executedFrom (loop : AgentLoop) (ask : Ask) : Nat → Talk → List ToolCall
  | 0, _ => []
  | fuel+1, talk => executedIn loop ask talk ++ (exchange loop ask talk).elim (executedFrom loop ask fuel) (fun _ => [])

def lastAssistant (messages : List Message) : Option Message :=
  (messages.filter (fun message => message.role = .assistant)).getLast?

/-- The result tells what happened in the run that led from `vars` to `last`. -/
structure Tells (loop : AgentLoop) (mode : Mode) (message : String) (vars last : Vars) (result : AgentResult) : Prop where
  toolCalls : result.toolCalls = executedFrom loop (mode.ask loop) (loop.config.maxTurns + 1) (start message (talkOf vars))
  lastMessage : result.lastMessage = lastAssistant (last.history.drop vars.history.length)
  content : result.content = ((lastAssistant (last.history.drop vars.history.length)).map Message.content).getD ""

/-- The condition on a turn: it stops early only after a message of the assistant, all calls it
goes on with are executed where there is a registry, and it ends with a reply of the assistant. -/
def TurnTells (loop : AgentLoop) (ask : Ask) (talk : Talk) : Prop :=
  match stopReason loop talk.loopState with
  | some _ => ∃ message, talk.history.getLast? = some message ∧ message.role = .assistant
  | none =>
    match ask talk.requests.length talk.history with
    | .error _ => True
    | .ok reply =>
      if GoesOn loop talk reply then
        loop.tools.isSome = true → reply.calls.length ≤ loop.config.maxToolCallsPerTurn ∧
          ∀ call ∈ reply.calls, (loop.fromStr call.arguments).isOk = true
      else reply.message.role = .assistant

section Turn
variable (loop : AgentLoop)

theorem executed_sublist (calls : List ToolCall) : (executed loop calls).Sublist (recorded loop calls) := by
  unfold executed recorded
  cases loop.tools with
  | none => exact List.Sublist.refl []
  | some registry => exact List.filter_sublist.trans (List.take_sublist _ _)

theorem executed_eq_iff (calls : List ToolCall) :
    executed loop calls = recorded loop calls ↔
      (loop.tools.isSome = true → calls.length ≤ loop.config.maxToolCallsPerTurn ∧
        ∀ call ∈ calls, (loop.fromStr call.arguments).isOk = true) := by
  unfold executed recorded
  cases loop.tools with
  | none => exact iff_of_true rfl (fun clash => absurd clash Bool.false_ne_true)
  | some registry =>
    rw [forall_prop_of_true (p := (some registry).isSome = true) rfl]
    constructor
    · intro all
      have whole : (calls.take loop.config.maxToolCallsPerTurn).filter
          (fun call => (loop.fromStr call.arguments).isOk) = calls := all
      constructor
      · have short := congrArg List.length whole
        have taken := (List.filter_sublist (p := fun call => (loop.fromStr call.arguments).isOk)
          (l := calls.take loop.config.maxToolCallsPerTurn)).length_le
        rw [List.length_take] at taken
        omega
      · intro call member
        rw [← whole] at member
        exact (List.mem_filter.mp member).2
    · rintro ⟨within,reads⟩
      change (calls.take loop.config.maxToolCallsPerTurn).filter _ = calls
      rw [List.take_of_length_le within]
      exact List.filter_eq_self.mpr reads

/-- What a turn comes to. -/
theorem exchange_kinds (ask : Ask) (talk : Talk) :
    (∃ reason, stopReason loop talk.loopState = some reason ∧
      exchange loop ask talk = .inr (.ok (talk.early reason),talk.say [.completed])) ∨
    stopReason loop talk.loopState = none ∧
      ((∃ error talk' message, ask talk.requests.length talk.history = .error error ∧
        exchange loop ask talk = .inr (.error message,talk')) ∨
      ∃ reply, ask talk.requests.length talk.history = .ok reply ∧
        (GoesOn loop talk reply ∧ (∃ next, exchange loop ask talk = .inl next ∧
            next.toolCalls = talk.toolCalls ++ recorded loop reply.calls ∧ talk.history <+: next.history) ∨
          ¬GoesOn loop talk reply ∧ ∃ result last, exchange loop ask talk = .inr (.ok result,last) ∧
            result.toolCalls = talk.toolCalls ∧ result.lastMessage = some reply.message ∧
            result.content = reply.message.content ∧ last.history = talk.history ++ [reply.message])) := by
  rcases exchange_cases loop ask talk with ended | ⟨free,⟨error,given,failed⟩ | ⟨reply,given,heard⟩⟩
  · exact Or.inl ended
  · exact Or.inr ⟨free,Or.inl ⟨error,_,_,given,failed⟩⟩
  · refine Or.inr ⟨free,Or.inr ⟨reply,given,?_⟩⟩
    rw [heard]
    let waiting := (talk.request loop.options).say [.awaitingLLM]
    by_cases spent : loop.config.spent (waiting.spend reply.usage).loopState.usage = true
    · right
      refine ⟨fun on => ?_,_,_,hear_spent loop talk.requests.length reply waiting spent,rfl,rfl,rfl,rfl⟩
      exact Bool.false_ne_true (on.1.symm.trans spent)
    · by_cases calls : reply.calls ≠ [] ∧ loop.config.toolUseEnabled = true
      · left
        refine ⟨⟨Bool.eq_false_iff.mpr spent,calls⟩,_,hear_calls loop talk.requests.length reply waiting spent calls,rfl,?_⟩
        exact (List.prefix_append _ _).trans (List.prefix_append _ _)
      · right
        exact ⟨fun on => calls on.2,_,_,hear_stop loop talk.requests.length reply waiting spent calls,rfl,rfl,rfl,rfl⟩

/-! A conversation that ends with a result. -/
section Conversation
variable (ask : Ask) (result : AgentResult) (last : Talk)

theorem executedFrom_early (fuel : Nat) (talk : Talk) (reason : FinishReason) (ending : Ending)
    (stopped : stopReason loop talk.loopState = some reason) (ended : exchange loop ask talk = .inr ending) :
    executedFrom loop ask (fuel + 1) talk = [] := by
  rw [executedFrom,executedIn,stopped,ended]
  rfl

theorem executedFrom_ended (fuel : Nat) (talk : Talk) (reply : Reply) (ending : Ending)
    (free : stopReason loop talk.loopState = none) (given : ask talk.requests.length talk.history = .ok reply)
    (off : ¬GoesOn loop talk reply) (ended : exchange loop ask talk = .inr ending) :
    executedFrom loop ask (fuel + 1) talk = [] := by
  rw [executedFrom,executedIn,free,given,ended]
  exact congrArg (· ++ []) (if_neg off)

theorem executedFrom_went (fuel : Nat) (talk next : Talk) (reply : Reply)
    (free : stopReason loop talk.loopState = none) (given : ask talk.requests.length talk.history = .ok reply)
    (on : GoesOn loop talk reply) (went : exchange loop ask talk = .inl next) :
    executedFrom loop ask (fuel + 1) talk = executed loop reply.calls ++ executedFrom loop ask fuel next := by
  rw [executedFrom,executedIn,free,given,went]
  exact congrArg (· ++ executedFrom loop ask fuel next) (if_pos on)

theorem turnTells_early (talk : Talk) (reason : FinishReason) (stopped : stopReason loop talk.loopState = some reason) :
    TurnTells loop ask talk ↔ ∃ message, talk.history.getLast? = some message ∧ message.role = .assistant := by
  rw [TurnTells,stopped]

theorem turnTells_reply (talk : Talk) (reply : Reply) (free : stopReason loop talk.loopState = none)
    (given : ask talk.requests.length talk.history = .ok reply) :
    TurnTells loop ask talk ↔
      if GoesOn loop talk reply then executed loop reply.calls = recorded loop reply.calls
      else reply.message.role = .assistant := by
  rw [TurnTells,free,executed_eq_iff]
  simp only [given]

/-- The last message is that of the history, and no more calls are executed than recorded. -/
theorem ending_facts (fuel : Nat) (talk : Talk) (ends : iterate (exchange loop ask) fuel talk = some (.ok result,last)) :
    talk.toolCalls.length + (executedFrom loop ask fuel talk).length ≤ result.toolCalls.length ∧
      talk.history <+: last.history ∧ result.lastMessage = last.history.getLast? ∧
      result.content = (last.history.getLast?.map Message.content).getD "" := by
  induction fuel generalizing talk with
  | zero => cases ends
  | succ fuel ih =>
    rw [iterate] at ends
    rcases exchange_kinds loop ask talk with ⟨reason,stopped,ended⟩ | ⟨free,⟨error,talk',message,_,failed⟩ | ⟨reply,given,heard⟩⟩
    · rw [executedFrom_early loop ask fuel talk reason _ stopped ended]
      rw [ended] at ends
      cases ends
      exact ⟨Nat.le_refl _,List.prefix_refl _,rfl,rfl⟩
    · rw [failed] at ends
      cases ends
    · rcases heard with ⟨on,next,went,calls,history⟩ | ⟨off,result',last',ended,calls,message,content,history⟩
      · rw [went] at ends
        obtain ⟨fewer,extends',facts⟩ := ih next ends
        refine ⟨?_,history.trans extends',facts⟩
        have sublist := (executed_sublist loop reply.calls).length_le
        rw [calls,List.length_append] at fewer
        rw [executedFrom_went loop ask fuel talk next reply free given on went,List.length_append]
        omega
      · rw [executedFrom_ended loop ask fuel talk reply _ free given off ended]
        rw [ended] at ends
        cases ends
        rw [calls,message,content,history,List.getLast?_concat]
        exact ⟨Nat.le_refl _,List.prefix_append _ _,rfl,rfl⟩

/-- The calls are those executed and the last message is one of the assistant exactly if every
turn meets the condition. -/
theorem ending_tells_iff (fuel : Nat) (talk : Talk)
    (ends : iterate (exchange loop ask) fuel talk = some (.ok result,last)) :
    (result.toolCalls = talk.toolCalls ++ executedFrom loop ask fuel talk ∧
        ∃ message, last.history.getLast? = some message ∧ message.role = .assistant) ↔
      Throughout (exchange loop ask) (TurnTells loop ask) fuel talk := by
  induction fuel generalizing talk with
  | zero => cases ends
  | succ fuel ih =>
    rw [iterate] at ends
    rcases exchange_kinds loop ask talk with ⟨reason,stopped,ended⟩ | ⟨free,⟨error,talk',message,_,failed⟩ | ⟨reply,given,heard⟩⟩
    · rw [executedFrom_early loop ask fuel talk reason _ stopped ended,throughout_ended _ _ fuel talk _ ended,
        turnTells_early loop ask talk reason stopped]
      rw [ended] at ends
      cases ends
      exact and_iff_right (List.append_nil talk.toolCalls).symm
    · rw [failed] at ends
      cases ends
    · rcases heard with ⟨on,next,went,calls,history⟩ | ⟨off,result',last',ended,calls,message,content,history⟩
      · rw [executedFrom_went loop ask fuel talk next reply free given on went,throughout_went _ _ fuel talk next went,
          turnTells_reply loop ask talk reply free given,if_pos on]
        rw [went] at ends
        have fewer := (ending_facts loop ask result last fuel next ends).1
        have later := ih next ends
        rw [calls,List.append_assoc] at later
        rw [calls,List.length_append] at fewer
        have sublist := executed_sublist loop reply.calls
        constructor
        · rintro ⟨same,assistant⟩
          have length := congrArg List.length same
          rw [List.length_append,List.length_append] at length
          have whole := sublist.eq_of_length_le (by omega)
          exact ⟨whole,later.mp ⟨whole ▸ same,assistant⟩⟩
        · rintro ⟨whole,along⟩
          rw [whole]
          exact later.mpr along
      · rw [executedFrom_ended loop ask fuel talk reply _ free given off ended,throughout_ended _ _ fuel talk _ ended,
          turnTells_reply loop ask talk reply free given,if_neg off]
        rw [ended] at ends
        cases ends
        rw [calls,history,List.getLast?_concat,and_iff_right (List.append_nil talk.toolCalls).symm]
        constructor
        · rintro ⟨said,same,role⟩
          obtain rfl := Option.some.inj same
          exact role
        · exact fun role => ⟨_,rfl,role⟩

end Conversation

end Turn

theorem lastAssistant_iff (messages : List Message) (message : Message) (last : messages.getLast? = some message) :
    lastAssistant messages = some message ↔ message.role = .assistant := by
  obtain ⟨before,rfl⟩ := List.getLast?_eq_some_iff.mp last
  constructor
  · intro found
    have member := List.mem_of_getLast? found
    exact of_decide_eq_true (List.mem_filter.mp member).2
  · intro role
    rw [lastAssistant,List.filter_append,List.filter_singleton,decide_eq_true role]
    exact List.getLast?_concat

/-- The result of a run tells what happened exactly if the run stops early only after a message
of the assistant, ends with a reply of the assistant otherwise, and, where there is a registry,
has it execute all calls it goes on with; without one nothing is executed or recorded. -/
theorem result_tells_iff (loop : AgentLoop) (mode : Mode) (message : String) (vars last : Vars) (result : AgentResult)
    (ran : mode.run loop message vars = some (.ok result,last)) :
    Tells loop mode message vars last result ↔
      Throughout (exchange loop (mode.ask loop)) (TurnTells loop (mode.ask loop)) (loop.config.maxTurns + 1)
        (start message (talkOf vars)) := by
  obtain ⟨ending,ends⟩ := converse_ends loop (mode.ask loop) message (talkOf vars)
  have refines := runWith_refines loop (mode.turn loop) (mode.ask loop) (mode.turn_reaches loop) message vars
  rw [← mode.run_eq,ran,ends] at refines
  obtain ⟨returned,talk⟩ := ending
  cases refines with
  | some same =>
    obtain ⟨rfl,rfl⟩ : Except.ok result = returned ∧ talkOf last = talk := same
    have ends : iterate (exchange loop (mode.ask loop)) (loop.config.maxTurns + 1) (start message (talkOf vars)) =
      some (.ok result,talkOf last) := ends
    obtain ⟨_,extends',same,content⟩ := ending_facts loop (mode.ask loop) result (talkOf last) _ _ ends
    obtain ⟨more,history⟩ : vars.history ++ [.user message] <+: last.history := extends'
    -- the run's own messages end as the history does
    have own : last.history.drop vars.history.length = .user message :: more := by
      rw [← history,List.append_assoc]
      exact List.drop_left
    have tail : (last.history.drop vars.history.length).getLast? = last.history.getLast? := by
      rw [own,← history,List.append_assoc]
      exact (List.getLast?_append_of_ne_nil vars.history (List.cons_ne_nil (.user message) more)).symm
    obtain ⟨final,found⟩ := Option.isSome_iff_exists.mp
      (List.getLast?_isSome.mpr (own ▸ List.cons_ne_nil _ _ : last.history.drop vars.history.length ≠ []))
    have lastFound := tail.symm.trans found
    have told := lastAssistant_iff _ final found
    rw [← ending_tells_iff loop (mode.ask loop) result (talkOf last) _ _ ends]
    change _ ↔ result.toolCalls = [] ++ _ ∧ ∃ message, last.history.getLast? = some message ∧ message.role = .assistant
    change result.lastMessage = last.history.getLast? at same
    change result.content = (last.history.getLast?.map Message.content).getD "" at content
    rw [lastFound] at same content
    constructor
    · intro tells
      exact ⟨tells.toolCalls,final,lastFound,told.mp (tells.lastMessage.symm.trans same)⟩
    · rintro ⟨calls,other,found',role⟩
      obtain rfl := Option.some.inj (lastFound.symm.trans found')
      have there := told.mpr role
      exact ⟨calls,same.trans there.symm,by rw [there]; exact content⟩

/-- A provider that only says hello. -/
def greetingLoop : AgentLoop where
  provider := ⟨"p","m",fun _ _ _ _ => .ok ⟨"r","m",.assistant "hello",.stop,⟨1,1,2⟩⟩,fun _ _ _ => .ok []⟩
  tools := none
  stopConditions := []
  config := {}
  agentId := "agent"
  fromStr := fun _ => .ok .null

theorem greeting_tells :
    ∃ last result, Mode.run greetingLoop .complete "go" (created []) = some (.ok result,last) ∧
      Tells greetingLoop .complete "go" (created []) last result :=
  ⟨_,_,rfl,(result_tells_iff greetingLoop .complete "go" (created []) _ _ rfl).mpr
    ((throughout_ended (exchange greetingLoop (Mode.ask greetingLoop .complete)) _ _ _ _ rfl).mpr rfl)⟩

/-- Two calls a turn, of which one is executed, and two turns. -/
theorem capped_result :
    (Mode.run (twoCallLoop 1) .complete "go" (created [])).map
        (fun outcome => outcome.1.toOption.map (fun result => (result.toolCalls.map ToolCall.id,result.lastMessage))) =
      some (some (["a","b","a","b"],some (.toolResult "a" "null"))) ∧
    (executedFrom (twoCallLoop 1) (Mode.ask (twoCallLoop 1) .complete) 3 (start "go" (talkOf (created [])))).map ToolCall.id =
      ["a","a"] ∧
    (Mode.run (twoCallLoop 1) .complete "go" (created [])).map (fun outcome => lastAssistant outcome.2.history) =
      some (some twoCalls) :=
  ⟨by decide +kernel,by decide +kernel,by decide +kernel⟩

end ClawKernel.Loop.Results
