import ClawKernel.Loop.Refinement
import Mathlib.Data.List.Nodup
import Mathlib.Data.List.TakeWhile

/-! Tool calls and their results in the messages a loop sends. Over the whole life of
a loop, calls and results pair up as long as every turn that hears calls answers
all of them.
-/
namespace ClawKernel.Loop.Pairing
open Lib.Loops Loop.States Loop.Types Loop.Run Loop.Conversation Loop.Refinement
open Provider.Types hiding FinishReason
open Provider.Retry

def answersCall (id : String) (message : Message) : Bool :=
  message.role = .tool && message.toolCallId = some id

def untilAssistant (messages : List Message) : List Message :=
  messages.takeWhile (fun message => message.role ≠ .assistant)

/-- From the message numbered `old` on, every call of an assistant message has one
result before the next assistant message, and every result has a call before it. -/
structure Paired (old : Nat) (messages : List Message) : Prop where
  answered : ∀ before message after, messages = before ++ message :: after → old ≤ before.length →
    message.role = .assistant → ∀ call ∈ message.toolCalls.getD [],
      (untilAssistant after).countP (answersCall call.id) = 1
  called : ∀ before message after, messages = before ++ message :: after → old ≤ before.length →
    message.role = .tool → ∃ earlier ∈ before, earlier.role = .assistant ∧
      ∃ call ∈ earlier.toolCalls.getD [], message.toolCallId = some call.id

theorem paired_old (messages : List Message) : Paired messages.length messages := by
  constructor <;> intro before message after parts long
  · rw [parts,List.length_append,List.length_cons] at long
    omega
  · rw [parts,List.length_append,List.length_cons] at long
    omega

theorem split_append {α : Type*} (first second before after : List α) (item : α)
    (parts : first ++ second = before ++ item :: after) :
    (∃ middle, first = before ++ item :: middle ∧ after = middle ++ second) ∨
      ∃ middle, before = first ++ middle ∧ second = middle ++ item :: after := by
  rcases List.append_eq_append_iff.mp parts with ⟨middle,left,right⟩ | ⟨middle,left,right⟩
  · exact .inr ⟨middle,left,right⟩
  · cases middle with
    | nil => exact .inr ⟨[],by simpa using left.symm,by simpa using right.symm⟩
    | cons first' middle =>
      obtain ⟨rfl,rfl⟩ := List.cons.inj right
      exact .inl ⟨middle,left,rfl⟩

theorem untilAssistant_append (first second : List Message) (id : String)
    (quiet : (untilAssistant second).countP (answersCall id) = 0) :
    (untilAssistant (first ++ second)).countP (answersCall id) = (untilAssistant first).countP (answersCall id) := by
  unfold untilAssistant at quiet ⊢
  rw [List.takeWhile_append]
  split
  · rename_i whole
    have all : first.takeWhile (fun message => message.role ≠ .assistant) = first :=
      (List.takeWhile_prefix _).eq_of_length whole
    rw [List.countP_append,quiet,all,Nat.add_zero]
  · rfl

theorem paired_append (old : Nat) (messages block : List Message) (paired : Paired old messages)
    (own : Paired 0 block) (quiet : ∀ id, (untilAssistant block).countP (answersCall id) = 0) :
    Paired old (messages ++ block) := by
  constructor <;> intro before message after parts long role
  · intro call member
    rcases split_append _ _ _ _ _ parts with ⟨middle,rfl,rfl⟩ | ⟨middle,rfl,inside⟩
    · rw [untilAssistant_append middle block call.id (quiet call.id)]
      exact paired.answered before message middle rfl long role call member
    · exact own.answered middle message after inside (Nat.zero_le _) role call member
  · rcases split_append _ _ _ _ _ parts with ⟨middle,rfl,rfl⟩ | ⟨middle,rfl,inside⟩
    · exact paired.called before message middle rfl long role
    · obtain ⟨earlier,member,carries⟩ := own.called middle message after inside (Nat.zero_le _) role
      exact ⟨earlier,List.mem_append_right _ member,carries⟩

theorem paired_append_user (old : Nat) (messages : List Message) (paired : Paired old messages) (text : String) :
    Paired old (messages ++ [.user text]) := by
  have only : ∀ before message after, [Message.user text] = before ++ message :: after → message = .user text := by
    intro before message after parts
    have member : message ∈ [Message.user text] := parts ▸ by simp
    simpa using member
  refine paired_append old messages _ paired ⟨?_,?_⟩ (fun id => rfl)
  · rintro before message after parts - role
    rw [only before message after parts] at role
    cases role
  · rintro before message after parts - role
    rw [only before message after parts] at role
    cases role

structure Answers (calls : List ToolCall) (results : List Message) : Prop where
  tool : ∀ result ∈ results, result.role = .tool
  ids : results.map Message.toolCallId = calls.map (fun call => some call.id)

theorem answers_count (calls : List ToolCall) (results : List Message) (answers : Answers calls results)
    (distinct : (calls.map ToolCall.id).Nodup) (call : ToolCall) (member : call ∈ calls) :
    results.countP (answersCall call.id) = 1 := by
  have same : results.countP (answersCall call.id) =
      (results.map Message.toolCallId).count (some call.id) := by
    rw [List.count,List.countP_map]
    apply List.countP_congr
    intro result inside
    simp [answersCall,answers.tool result inside]
  have mapped : calls.map (fun call => some call.id) = (calls.map ToolCall.id).map some := by simp
  rw [same,answers.ids,mapped]
  exact List.count_eq_one_of_mem (distinct.map (Option.some_injective _))
    (List.mem_map_of_mem (List.mem_map_of_mem member))

theorem paired_reply (reply : Message) (results : List Message) (role : reply.role = .assistant)
    (distinct : ((reply.toolCalls.getD []).map ToolCall.id).Nodup) (answers : Answers (reply.toolCalls.getD []) results) :
    Paired 0 (reply :: results) := by
  have none_assistant : untilAssistant results = results := by
    apply List.takeWhile_eq_self_iff.mpr
    intro result member
    simp [answers.tool result member]
  constructor
  · rintro before message after parts - isAssistant call member
    cases before with
    | nil =>
      obtain ⟨rfl,rfl⟩ := List.cons.inj parts
      rw [none_assistant]
      exact answers_count _ _ answers distinct call member
    | cons first before =>
      have inside : message ∈ results := (List.cons.inj parts).2 ▸ by simp
      rw [answers.tool message inside] at isAssistant
      cases isAssistant
  · rintro before message after parts - isTool
    cases before with
    | nil =>
      obtain ⟨rfl,rfl⟩ := List.cons.inj parts
      rw [role] at isTool
      cases isTool
    | cons first before =>
      obtain ⟨rfl,rest⟩ := List.cons.inj parts
      have inside : message.toolCallId ∈ results.map Message.toolCallId := List.mem_map_of_mem (rest ▸ by simp)
      rw [answers.ids] at inside
      obtain ⟨call,member,id⟩ := List.mem_map.mp inside
      exact ⟨reply,List.mem_cons_self,role,call,member,id.symm⟩

/-! One turn. -/

theorem executeCall_id (loop : AgentLoop) (registry : ToolRegistry) (request position : Nat) (call : ToolCall) :
    (executeCall loop registry request position call).1 = call.id := by
  unfold executeCall
  split
  · rfl
  · split <;> rfl

theorem answers_of_calls (loop : AgentLoop) (request : Nat) (calls : List ToolCall)
    (fit : loop.tools.isSome → calls.length ≤ loop.config.maxToolCallsPerTurn) :
    Answers calls (answers loop request calls) := by
  unfold answers
  cases tools : loop.tools with
  | none =>
    constructor
    · intro result member
      obtain ⟨call,-,rfl⟩ := List.mem_map.mp member
      rfl
    · simp [Message.toolResult]
  | some registry =>
    have whole : calls.take loop.config.maxToolCallsPerTurn = calls := List.take_of_length_le (fit (by simp [tools]))
    constructor
    · intro result member
      obtain ⟨pair,-,rfl⟩ := List.mem_map.mp member
      rfl
    · rw [whole]
      apply List.ext_getElem (by simp)
      intro n _ _
      simp [Message.toolResult,executeCall_id]

/-- All calls of the reply are answered in the turn that hears it: their ids are
distinct, tools are enabled, the turn stays within the token budget, and a registry
executes as many calls as there are. -/
def Answerable (loop : AgentLoop) (usage : TokenUsage) (reply : Reply) : Prop :=
  (reply.calls.map ToolCall.id).Nodup ∧
    (reply.calls ≠ [] → loop.config.toolUseEnabled = true ∧ loop.config.spent (addUsage usage reply.usage) = false ∧
      (loop.tools.isSome → reply.calls.length ≤ loop.config.maxToolCallsPerTurn))

def PairedSoFar (old : Nat) (talk : Talk) : Prop :=
  Paired old talk.history ∧ ∀ request ∈ talk.requests, Paired old request.1

theorem exchange_paired (loop : AgentLoop) (ask : Ask) (old : Nat) (talk : Talk) (paired : PairedSoFar old talk)
    (assistant : ∀ reply, ask talk.requests.length talk.history = .ok reply → reply.message.role = .assistant)
    (answerable : stopReason loop talk.loopState = none → ∀ reply,
      ask talk.requests.length talk.history = .ok reply → Answerable loop talk.loopState.usage reply) :
    (∀ next, exchange loop ask talk = .inl next → PairedSoFar old next) ∧
      ∀ result last, exchange loop ask talk = .inr (result,last) → PairedSoFar old last := by
  have requested : ∀ request ∈ talk.requests ++ [(talk.history,loop.options)], Paired old request.1 := by
    intro request member
    rcases List.mem_append.mp member with earlier | now
    · exact paired.2 request earlier
    · rw [List.mem_singleton.mp now]
      exact paired.1
  rcases exchange_cases loop ask talk with ⟨reason,-,ended⟩ | ⟨free,⟨error,-,failed⟩ | ⟨reply,given,heard⟩⟩
  · rw [ended]
    refine ⟨by simp,?_⟩
    rintro result last same
    cases same
    exact paired
  · rw [failed]
    refine ⟨by simp,?_⟩
    rintro result last same
    cases same
    exact ⟨paired.1,requested⟩
  · rw [heard]
    obtain ⟨distinct,ready⟩ := answerable free reply given
    have role := assistant reply given
    have appended : ∀ results, Answers reply.calls results → Paired old (talk.history ++ reply.message :: results) := by
      intro results answers
      refine paired_append old talk.history _ paired.1 (paired_reply _ _ role distinct answers) (fun id => ?_)
      simp [untilAssistant,role]
    let waiting := (talk.request loop.options).say [.awaitingLLM]
    by_cases silent : reply.calls = []
    · have alone := appended [] (by rw [silent]; exact ⟨by simp,rfl⟩)
      rcases hear_cases loop talk.requests.length reply waiting with ⟨-,calls,-⟩ | ⟨result,last,ended,history,requests⟩
      · exact absurd silent calls
      · rw [ended]
        refine ⟨by simp,?_⟩
        rintro _ _ same
        cases same
        exact ⟨history ▸ alone,requests ▸ requested⟩
    · obtain ⟨enabled,within,fit⟩ := ready silent
      have under : ¬loop.config.spent (waiting.spend reply.usage).loopState.usage = true := by
        change ¬loop.config.spent (addUsage talk.loopState.usage reply.usage) = true
        simp [within]
      rw [hear_calls loop talk.requests.length reply waiting under ⟨silent,enabled⟩]
      refine ⟨?_,by simp⟩
      rintro _ same
      cases same
      have history : (answered loop talk.requests.length reply.calls
          ((waiting.spend reply.usage).append [reply.message])).history =
          talk.history ++ reply.message :: answers loop talk.requests.length reply.calls :=
        List.append_assoc _ _ _
      refine ⟨?_,requested⟩
      rw [history]
      exact appended _ (answers_of_calls loop _ _ fit)

/-! Whole lives of a loop. -/

inductive Mode where
  | complete
  | streaming
  deriving DecidableEq, Repr

def Mode.turn (loop : AgentLoop) : Mode → Effect (Option AgentResult)
  | .complete => Run.turn loop
  | .streaming => Streaming.turn loop

def Mode.ask (loop : AgentLoop) : Mode → Ask
  | .complete => completeAsk loop
  | .streaming => streamAsk loop

def Mode.run (loop : AgentLoop) : Mode → String → Vars → Option Outcome
  | .complete => Run.run loop
  | .streaming => Streaming.runStreaming loop

theorem Mode.run_eq (loop : AgentLoop) (mode : Mode) : mode.run loop = runWith loop (mode.turn loop) := by
  cases mode <;> rfl

theorem Mode.turn_reaches (loop : AgentLoop) (mode : Mode) (talk : Talk) :
    Reaches talk .running (mode.turn loop) (exchange loop (mode.ask loop) talk) := by
  cases mode with
  | complete => exact run_turn_reaches loop talk
  | streaming => exact stream_turn_reaches loop talk

def created (history : List Message) : Vars := ⟨history,.new,.idle,[],[],[],[],.new,[]⟩

/-- The calls of `run` and `run_streaming` on one loop, one after the other. -/
def life (loop : AgentLoop) : List (Mode × String) → Vars → Option Vars
  | [], vars => some vars
  | (mode,message) :: rest, vars => (mode.run loop message vars).bind (fun outcome => life loop rest outcome.2)

def TurnAnswerable (loop : AgentLoop) (mode : Mode) (vars : Vars) : Prop :=
  stopReason loop vars.loopState = none → ∀ reply, mode.ask loop vars.requests.length vars.history = .ok reply →
    Answerable loop vars.loopState.usage reply

def LifeAnswerable (loop : AgentLoop) : List (Mode × String) → Vars → Prop
  | [], _ => True
  | (mode,message) :: rest, vars =>
    (∀ started, begin message vars = .ok () started →
      Throughout (iteration (mode.turn loop)) (TurnAnswerable loop mode) (loop.config.maxTurns + 1) started) ∧
    ∀ outcome, mode.run loop message vars = some outcome → LifeAnswerable loop rest outcome.2

def RepliesAsAssistant (provider : LLMProvider) : Prop :=
  ∀ request attempt messages options response,
    provider.complete request attempt messages options = .ok response → response.message.role = .assistant

theorem ask_assistant (loop : AgentLoop) (replies : RepliesAsAssistant loop.provider) (mode : Mode) (request : Nat)
    (messages : List Message) (reply : Reply) (given : mode.ask loop request messages = .ok reply) :
    reply.message.role = .assistant := by
  cases mode with
  | complete =>
    unfold Mode.ask completeAsk at given
    cases found : withRetry (fun attempt => loop.provider.complete request attempt messages loop.options) {} with
    | error error => simp [found,Except.map] at given
    | ok response =>
      obtain ⟨attempt,answer⟩ := withRetry_ok _ _ _ found
      obtain rfl : ⟨response.message,response.usage⟩ = reply := by simpa [found,Except.map] using given
      exact replies _ _ _ _ _ answer
  | streaming =>
    obtain ⟨_,assembly,-,-,rfl⟩ := streamAsk_ok loop request messages reply given
    exact replyOf_role assembly

theorem mode_run_ends (loop : AgentLoop) (mode : Mode) (message : String) (vars : Vars) :
    ∃ outcome, mode.run loop message vars = some outcome := by
  rw [mode.run_eq]
  exact runWith_ends loop _ _ (mode.turn_reaches loop) message vars

/-- What every turn of a conversation keeps or ends with, a run ends with. -/
theorem mode_run_meets (loop : AgentLoop) (mode : Mode) (message : String) (vars : Vars) (inv : Talk → Prop)
    (post : Ending → Prop) (starts : inv (start message (talkOf vars)))
    (turns : ∀ talk, inv talk → (exchange loop (mode.ask loop) talk).elim inv post) :
    ∃ result last, mode.run loop message vars = some (result,last) ∧ post (result,talkOf last) := by
  obtain ⟨ending,ends⟩ := converse_ends loop (mode.ask loop) message (talkOf vars)
  have met : post ending := by
    refine iterate_invariant _ inv (fun _ => True) post ?_ ?_ _ _ starts (throughout_of_all _ _ (fun _ => trivial) _ _)
      ending ends
    · intro talk next holds _ went
      simpa [went] using turns talk holds
    · intro talk ending holds _ ended
      simpa [ended] using turns talk holds
  have refines := runWith_refines loop (mode.turn loop) (mode.ask loop) (mode.turn_reaches loop) message vars
  rw [show converse loop (mode.ask loop) message (talkOf vars) = some ending from ends] at refines
  obtain ⟨⟨result,last⟩,ran,same,talked⟩ := rel_some refines
  refine ⟨result,last,by rw [mode.run_eq]; exact ran,?_⟩
  rwa [show result = ending.1 from same,show talkOf last = ending.2 from talked]

theorem run_paired (loop : AgentLoop) (replies : RepliesAsAssistant loop.provider) (mode : Mode) (message : String)
    (old : Nat) (vars started : Vars) (paired : PairedSoFar old (talkOf vars))
    (began : begin message vars = .ok () started)
    (answerable : Throughout (iteration (mode.turn loop)) (TurnAnswerable loop mode) (loop.config.maxTurns + 1) started)
    (outcome : Outcome) (ran : mode.run loop message vars = some outcome) : PairedSoFar old (talkOf outcome.2) := by
  have stands : Stands started (start message (talkOf vars)) .running := begin_starts message vars started began
  rw [mode.run_eq,runWith,began] at ran
  have turned : ∀ vars, Stands vars (talkOf vars) .running ∧ PairedSoFar old (talkOf vars) → TurnAnswerable loop mode vars →
      (∀ next, exchange loop (mode.ask loop) (talkOf vars) = .inl next → PairedSoFar old next) ∧
        ∀ result last, exchange loop (mode.ask loop) (talkOf vars) = .inr (result,last) → PairedSoFar old last :=
    fun vars holds ready => exchange_paired loop (mode.ask loop) old (talkOf vars) holds.2
      (ask_assistant loop replies mode _ _) ready
  refine iterate_invariant (iteration (mode.turn loop))
    (fun vars => Stands vars (talkOf vars) .running ∧ PairedSoFar old (talkOf vars)) (TurnAnswerable loop mode)
    (fun outcome => PairedSoFar old (talkOf outcome.2)) ?_ ?_ _ started ?_ answerable outcome ran
  · intro vars next holds ready went
    have reached := mode.turn_reaches loop (talkOf vars) vars holds.1
    rw [went] at reached
    cases after : exchange loop (mode.ask loop) (talkOf vars) with
    | inr ending => simp [after] at reached
    | inl talk =>
      rw [after,Sum.liftRel_inl_inl] at reached
      obtain ⟨rfl,running⟩ := reached
      exact ⟨⟨rfl,running⟩,(turned vars holds ready).1 _ after⟩
  · intro vars outcome holds ready ended
    have reached := mode.turn_reaches loop (talkOf vars) vars holds.1
    rw [ended] at reached
    cases after : exchange loop (mode.ask loop) (talkOf vars) with
    | inl talk => simp [after] at reached
    | inr ending =>
      rw [after,Sum.liftRel_inr_inr] at reached
      rw [reached.2]
      exact (turned vars holds ready).2 _ _ after
  · refine ⟨⟨rfl,stands.2⟩,?_⟩
    rw [stands.1]
    exact ⟨paired_append_user old _ paired.1 message,paired.2⟩

/-- In every life of a loop whose turns can all be answered, the messages sent with
every request pair the tool calls the loop appended with their results. -/
theorem calls_answered (loop : AgentLoop) (replies : RepliesAsAssistant loop.provider) (history : List Message)
    (runs : List (Mode × String)) (answerable : LifeAnswerable loop runs (created history)) :
    ∃ last, life loop runs (created history) = some last ∧
      ∀ request ∈ last.requests, Paired history.length request.1 := by
  have lives : ∀ runs vars, PairedSoFar history.length (talkOf vars) → LifeAnswerable loop runs vars →
      ∃ last, life loop runs vars = some last ∧ PairedSoFar history.length (talkOf last) := by
    intro runs
    induction runs with
    | nil => exact fun vars paired _ => ⟨vars,rfl,paired⟩
    | cons first rest ih =>
      obtain ⟨mode,message⟩ := first
      rintro vars paired ⟨turns,later⟩
      obtain ⟨started,began,-⟩ := begin_stands message vars
      obtain ⟨outcome,ran⟩ := mode_run_ends loop mode message vars
      obtain ⟨last,lived,kept⟩ := ih outcome.2
        (run_paired loop replies mode message _ vars started paired began (turns started began) outcome ran)
        (later outcome ran)
      exact ⟨last,by simp [life,ran,lived],kept⟩
  obtain ⟨last,lived,kept⟩ := lives runs (created history) ⟨paired_old history,by simp [created,talkOf]⟩ answerable
  exact ⟨last,lived,kept.2⟩

/-! A provider that calls two tools in every turn. -/

def twoCalls : Message := ⟨.assistant,"",some [⟨"a","f","1"⟩,⟨"b","f","2"⟩],none⟩

def twoDeltas : List Delta :=
  [⟨none,some ⟨"a","f","1"⟩,none,none⟩,⟨none,some ⟨"b","f","2"⟩,some .toolCalls,some ⟨1,1,2⟩⟩]

def twoCallProvider : LLMProvider :=
  ⟨"p","m",fun _ _ _ _ => .ok ⟨"r","m",twoCalls,.toolCalls,⟨1,1,2⟩⟩,fun _ _ _ => .ok (twoDeltas.map .ok)⟩

def twoCallBuilder (limit : Nat) : AgentLoopBuilder where
  provider := some twoCallProvider
  tools := some ⟨fun _ _ _ _ => .ok ⟨true,some .null,none⟩⟩
  stopConditions := []
  config := {maxTurns := 2, maxToolCallsPerTurn := limit}
  agentId := "agent"
  fromStr := fun _ => .ok .null

def twoCallLoop (limit : Nat) : AgentLoop where
  provider := twoCallProvider
  tools := (twoCallBuilder limit).tools
  stopConditions := []
  config := (twoCallBuilder limit).config
  agentId := "agent"
  fromStr := fun _ => .ok .null

theorem twoCallProvider_replies : RepliesAsAssistant twoCallProvider := by
  rintro _ _ _ _ _ same
  cases same
  rfl

theorem twoCallLoop_answerable (mode : Mode) (vars : Vars) : TurnAnswerable (twoCallLoop 2) mode vars := by
  intro _ reply given
  have same : mode.ask (twoCallLoop 2) vars.requests.length vars.history = .ok ⟨twoCalls,⟨1,1,2⟩⟩ := by
    cases mode <;> rfl
  cases same.symm.trans given
  exact ⟨by decide,fun _ => ⟨rfl,rfl,fun _ => by decide⟩⟩

theorem lifeAnswerable_of_all (loop : AgentLoop) (all : ∀ mode vars, TurnAnswerable loop mode vars)
    (runs : List (Mode × String)) (vars : Vars) : LifeAnswerable loop runs vars := by
  induction runs generalizing vars with
  | nil => trivial
  | cons first rest ih =>
    exact ⟨fun _ _ => throughout_of_all _ _ (all first.1) _ _,fun outcome _ => ih outcome.2⟩

theorem calls_answered_twice :
    ∃ last, life (twoCallLoop 2) [(.complete,"go"),(.streaming,"again")] (created []) = some last ∧
      ∀ request ∈ last.requests, Paired 0 request.1 :=
  calls_answered (twoCallLoop 2) twoCallProvider_replies [] _
    (lifeAnswerable_of_all _ twoCallLoop_answerable _ _)

/-- With a limit of one call a turn, the second request leaves call `b` without a result. -/
theorem call_over_limit_unanswered :
    (twoCallBuilder 1).build = .ok (twoCallLoop 1) ∧ RepliesAsAssistant (twoCallLoop 1).provider ∧
    (life (twoCallLoop 1) [(.complete,"go")] (created [])).map (fun last => last.requests.map Prod.fst) =
      some [[.user "go"],[.user "go",twoCalls,.toolResult "a" "null"]] ∧
    ¬Paired 0 [.user "go",twoCalls,.toolResult "a" "null"] := by
  refine ⟨rfl,twoCallProvider_replies,by decide +kernel,?_⟩
  intro paired
  have one := paired.answered [.user "go"] twoCalls [.toolResult "a" "null"] rfl (Nat.zero_le _) rfl ⟨"b","f","2"⟩
    (by decide)
  revert one
  decide

end ClawKernel.Loop.Pairing
