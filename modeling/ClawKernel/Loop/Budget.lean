import ClawKernel.Loop.Assembly
import ClawKernel.Loop.Pairing
import Mathlib.Algebra.GroupWithZero.Nat

/-! The turns of a run and what they use. A run's requests are answered one after
another; each answer completes a turn, and its usage is added to the run's.
-/
namespace ClawKernel.Loop.Budget
open Lib.Loops Loop.States Loop.Types Loop.Run Loop.Conversation Loop.Refinement Loop.Pairing
open Provider.Types hiding FinishReason
open Provider.Retry

/-- Component by component. -/
def totalUsage (usages : List TokenUsage) : TokenUsage :=
  ⟨(usages.map TokenUsage.promptTokens).sum,(usages.map TokenUsage.completionTokens).sum,
    (usages.map TokenUsage.totalTokens).sum⟩

/-- The last usage that was reported, or the loop's estimate: a token for four bytes of text, and ten. -/
def streamUsage (deltas : List Delta) : TokenUsage :=
  match (deltas.filterMap Delta.usage).getLast? with
  | some usage => usage
  | none =>
    let estimated := (String.join (deltas.filterMap Delta.content)).utf8ByteSize / 4 + 10
    ⟨0,estimated,estimated⟩

/-- What the answer to a request uses; `none` when the request fails. -/
def answerUsage (loop : AgentLoop) (mode : Mode) (request : Nat) (messages : List Message) : Option TokenUsage :=
  match mode with
  | .complete =>
    (withRetry (fun attempt => loop.provider.complete request attempt messages loop.options) {}).toOption.map
      CompletionResponse.usage
  | .streaming =>
    (loop.provider.completeStream request messages loop.options).toOption.bind
      (fun items => (items.mapM Except.toOption).map streamUsage)

/-- The answers to the requests of a run that `old` requests came before. -/
def answerUsages (loop : AgentLoop) (mode : Mode) (old : Nat) (made : List (List Message × Options)) :
    List (Option TokenUsage) :=
  made.mapIdx fun position request => answerUsage loop mode (old + position) request.1

theorem totalUsage_append (usages : List TokenUsage) (usage : TokenUsage) :
    totalUsage (usages ++ [usage]) = addUsage (totalUsage usages) usage := by
  simp [totalUsage,addUsage]

/-! What an answer uses. -/

theorem assemble_read (items : List (Except ProviderError Delta)) (start : Streaming.Assembly) :
    (assemble items start).toOption =
      (items.mapM Except.toOption).map (fun deltas => (Streaming.flush (Assembly.after deltas start)).1) := by
  induction items generalizing start with
  | nil => rfl
  | cons item rest ih =>
    cases item with
    | error error => rfl
    | ok delta =>
      rw [List.mapM_cons]
      refine (ih (Streaming.takeDelta delta start).1).trans ?_
      cases rest.mapM Except.toOption with
      | none => rfl
      | some deltas => rfl

theorem turnUsage_stream (deltas : List Delta) :
    Streaming.turnUsage (Streaming.flush (Assembly.after deltas .empty)).1 = streamUsage deltas := by
  obtain ⟨content,usage,-⟩ := Assembly.flush_fields (Assembly.after deltas .empty)
  obtain ⟨text,reported,-⟩ := Assembly.after_fields deltas .empty
  have noText : Streaming.Assembly.empty.content ++ String.join (deltas.filterMap Delta.content) =
      String.join (deltas.filterMap Delta.content) := String.empty_append
  have noUsage : (deltas.filterMap Delta.usage).getLast?.or Streaming.Assembly.empty.usage =
      (deltas.filterMap Delta.usage).getLast? := Option.or_none
  unfold Streaming.turnUsage streamUsage
  rewrite [usage,content,reported,text,noText,noUsage]
  cases (deltas.filterMap Delta.usage).getLast? with
  | none => rfl
  | some usage => rfl

theorem answerUsage_ask (loop : AgentLoop) (mode : Mode) (request : Nat) (messages : List Message) :
    answerUsage loop mode request messages = (mode.ask loop request messages).toOption.map Reply.usage := by
  cases mode with
  | complete =>
    unfold answerUsage Mode.ask completeAsk
    dsimp only
    cases withRetry (fun attempt => loop.provider.complete request attempt messages loop.options) {} with
    | error error => rfl
    | ok response => rfl
  | streaming =>
    change (loop.provider.completeStream request messages loop.options).toOption.bind _ =
      (streamAsk loop request messages).toOption.map Reply.usage
    cases opened : loop.provider.completeStream request messages loop.options with
    | error error =>
      unfold streamAsk
      rw [opened]
      rfl
    | ok items =>
      rw [streamAsk_opened loop request messages items opened]
      have used : ((assemble items .empty).map replyOf).toOption.map Reply.usage =
          (assemble items .empty).toOption.map Streaming.turnUsage := by
        cases assemble items .empty with
        | error error => rfl
        | ok assembly => rfl
      rw [used,assemble_read,Option.map_map]
      change (items.mapM Except.toOption).map streamUsage = _
      congr 1
      funext deltas
      exact (turnUsage_stream deltas).symm

/-! One turn. -/

/-- A conversation in a run whose requests so far are all answered. -/
structure Ledger (loop : AgentLoop) (mode : Mode) (old made : List (List Message × Options)) (usages : List TokenUsage)
    (talk : Talk) : Prop where
  requests : talk.requests = old ++ made
  answered : answerUsages loop mode old.length made = usages.map some
  turns : talk.loopState.turn = usages.length
  usage : talk.loopState.usage = totalUsage usages
  limit : made.length ≤ loop.config.maxTurns
  budget : ∀ position < made.length, loop.config.spent (totalUsage (usages.take position)) = false

/-- What a run reports of its turns when it ends: the last request of a run that fails is the one without an answer. -/
def Reports (loop : AgentLoop) (mode : Mode) (old made : List (List Message × Options)) (usages : List TokenUsage) :
    Except AgentError AgentResult → Prop
  | .ok result => answerUsages loop mode old.length made = usages.map some ∧
      result.turns = usages.length ∧ result.usage = totalUsage usages
  | .error _ => answerUsages loop mode old.length made = usages.map some ++ [none]

structure Reported (loop : AgentLoop) (mode : Mode) (old made : List (List Message × Options))
    (usages : List TokenUsage) (ending : Ending) : Prop where
  requests : ending.2.requests = old ++ made
  reports : Reports loop mode old made usages ending.1
  limit : made.length ≤ loop.config.maxTurns
  budget : ∀ position < made.length, loop.config.spent (totalUsage (usages.take position)) = false

theorem answerUsages_append (loop : AgentLoop) (mode : Mode) (old : Nat) (made : List (List Message × Options))
    (request : List Message × Options) :
    answerUsages loop mode old (made ++ [request]) =
      answerUsages loop mode old made ++ [answerUsage loop mode (old + made.length) request.1] := by
  simp [answerUsages,List.mapIdx_append]

theorem stopReason_unspent (loop : AgentLoop) (state : LoopState) (free : stopReason loop state = none) :
    loop.config.spent state.usage = false := by
  by_contra spent
  simp only [stopReason,Bool.not_eq_false] at free spent
  rw [spent] at free
  split at free
  · cases free
  · split at free <;> cases free

section Turns

variable {loop : AgentLoop} {mode : Mode} {old made : List (List Message × Options)} {usages : List TokenUsage}
  {talk : Talk}

theorem Ledger.length (ledger : Ledger loop mode old made usages talk) : made.length = usages.length := by
  have both := congrArg List.length ledger.answered
  simpa [answerUsages] using both

/-- The next request is within the limits, and it is the next to be answered. -/
theorem Ledger.next (ledger : Ledger loop mode old made usages talk) (free : stopReason loop talk.loopState = none) :
    answerUsages loop mode old.length (made ++ [(talk.history,loop.options)]) =
        usages.map some ++ [(mode.ask loop talk.requests.length talk.history).toOption.map Reply.usage] ∧
      (made ++ [(talk.history,loop.options)]).length ≤ loop.config.maxTurns ∧
      ∀ more, ∀ position < (made ++ [(talk.history,loop.options)]).length,
        loop.config.spent (totalUsage ((usages ++ more).take position)) = false := by
  have length := ledger.length
  refine ⟨?_,?_,?_⟩
  · rw [answerUsages_append,ledger.answered,answerUsage_ask,ledger.requests,List.length_append]
  · have below := stopReason_turn loop talk.loopState free
    rw [ledger.turns,← length] at below
    rw [List.length_append,List.length_singleton]
    exact below
  · intro more position inside
    rw [List.take_append_of_le_length (by simp at inside; omega)]
    rcases Nat.lt_or_ge position made.length with before | last
    · exact ledger.budget position before
    · rw [List.take_of_length_le (by omega),← ledger.usage]
      exact stopReason_unspent loop talk.loopState free

theorem Ledger.hear (ledger : Ledger loop mode old made usages talk) (free : stopReason loop talk.loopState = none)
    (reply : Reply) (given : mode.ask loop talk.requests.length talk.history = .ok reply) :
    (Conversation.hear loop talk.requests.length reply ((talk.request loop.options).say [.awaitingLLM])).elim
      (fun next => ∃ made usages, Ledger loop mode old made usages next)
      (fun ending => ∃ made usages, Reported loop mode old made usages ending) := by
  obtain ⟨answered,limit,budget⟩ := ledger.next free
  have requests : talk.requests ++ [(talk.history,loop.options)] = old ++ (made ++ [(talk.history,loop.options)]) := by
    rw [ledger.requests,List.append_assoc]
  have heard : answerUsages loop mode old.length (made ++ [(talk.history,loop.options)]) =
      (usages ++ [reply.usage]).map some := by
    rw [answered,given,List.map_append]
    rfl
  have turns : talk.loopState.turn + 1 = (usages ++ [reply.usage]).length := by
    rw [ledger.turns,List.length_append,List.length_singleton]
  have usage : addUsage talk.loopState.usage reply.usage = totalUsage (usages ++ [reply.usage]) := by
    rw [ledger.usage,totalUsage_append]
  by_cases spent : loop.config.spent (((talk.request loop.options).say [.awaitingLLM]).spend reply.usage).loopState.usage = true
  · rw [hear_spent loop _ reply _ spent]
    exact ⟨_,_,⟨requests,⟨heard,turns,usage⟩,limit,budget _⟩⟩
  · by_cases calls : reply.calls ≠ [] ∧ loop.config.toolUseEnabled = true
    · rw [hear_calls loop _ reply _ spent calls]
      exact ⟨_,_,⟨requests,heard,turns,usage,limit,budget _⟩⟩
    · rw [hear_stop loop _ reply _ spent calls]
      exact ⟨_,_,⟨requests,⟨heard,turns,usage⟩,limit,budget _⟩⟩

theorem Ledger.exchange (ledger : Ledger loop mode old made usages talk) :
    (Conversation.exchange loop (mode.ask loop) talk).elim
      (fun next => ∃ made usages, Ledger loop mode old made usages next)
      (fun ending => ∃ made usages, Reported loop mode old made usages ending) := by
  rcases exchange_cases loop (mode.ask loop) talk with ⟨reason,_,ended⟩ | ⟨free,⟨error,given,failed⟩ | ⟨reply,given,heard⟩⟩
  · rw [ended]
    exact ⟨made,usages,⟨ledger.requests,⟨ledger.answered,ledger.turns,ledger.usage⟩,ledger.limit,ledger.budget⟩⟩
  · rw [failed]
    obtain ⟨answered,limit,budget⟩ := ledger.next free
    refine ⟨made ++ [(talk.history,loop.options)],usages,⟨?_,?_,limit,?_⟩⟩
    · change talk.requests ++ [(talk.history,loop.options)] = _
      rw [ledger.requests,List.append_assoc]
    · rw [given] at answered
      exact answered
    · simpa using budget []
  · rw [heard]
    exact ledger.hear free reply given

end Turns

/-- Every run ends within its limits: it makes no more requests than `max_turns` and none
once the budget is spent, and it reports the turns that were answered and what they used. -/
theorem run_within_limits (loop : AgentLoop) (mode : Mode) (message : String) (vars : Vars) :
    ∃ result last made usages, mode.run loop message vars = some (result,last) ∧
      last.requests = vars.requests ++ made ∧ made.length ≤ loop.config.maxTurns ∧
      (∀ position < made.length, 0 < loop.config.tokenBudget →
        (totalUsage (usages.take position)).totalTokens < loop.config.tokenBudget) ∧
      Reports loop mode vars.requests made usages result := by
  obtain ⟨result,last,ran,made,usages,reported⟩ := mode_run_meets loop mode message vars
    (fun talk => ∃ made usages, Ledger loop mode vars.requests made usages talk)
    (fun ending => ∃ made usages, Reported loop mode vars.requests made usages ending)
    ⟨[],[],⟨(List.append_nil _).symm,rfl,rfl,rfl,Nat.zero_le _,nofun⟩⟩
    (fun talk ⟨made,usages,ledger⟩ => ledger.exchange)
  refine ⟨result,last,made,usages,ran,reported.requests,reported.limit,?_,reported.reports⟩
  intro position inside positive
  have unspent := reported.budget position inside
  simp only [AgentLoopConfig.spent,Bool.and_eq_false_iff,decide_eq_false_iff_not] at unspent
  omega

end ClawKernel.Loop.Budget
