import ClawKernel.Lib.Quotes
import ClawKernel.Loop.Results
import ClawKernel.Loop.Traces

/-! What the model and the events are told of the tools a run executes: the content of the
result messages, and the success flags published with them.
-/
namespace ClawKernel.Loop.Outcomes
open Lib.Json Lib.Loops Loop.States Loop.Types Loop.Run Loop.Conversation Loop.Refinement Loop.Pairing
open Loop.Results Loop.Traces
open Provider.Types hiding FinishReason
open Provider.Retry

/-- What a call comes to: its arguments cannot be read, or the registry refuses it, or the
tool returns. -/
inductive Answer where
  | unread (message : String)
  | refused (error : RegistryError)
  | returned (result : ToolResult)

structure Execution where
  call : ToolCall
  answer : Answer

/-- The text the model is given. -/
def Execution.content (execution : Execution) : String :=
  match execution.answer with
  | .unread message => (Value.object [("error",.string "parameter_parse_failed"),
      ("message",.string ("Failed to parse parameters: " ++ message)),("tool_call_id",.string execution.call.id)]).text
  | .refused error => (Value.object [("error",.string error.display)]).text
  | .returned result => (result.output.getD .null).text

def Execution.flag (execution : Execution) : String × Bool := (execution.call.id,looksSuccessful execution.content)

def Execution.message (execution : Execution) : Message := .toolResult execution.call.id execution.content

def answer (loop : AgentLoop) (registry : ToolRegistry) (request position : Nat) (call : ToolCall) : Answer :=
  match loop.fromStr call.arguments with
  | .error message => .unread message
  | .ok args =>
    match registry.execute request position call.name args with
    | .ok result => .returned result
    | .error error => .refused error

def execution (loop : AgentLoop) (registry : ToolRegistry) (request position : Nat) (call : ToolCall) : Execution :=
  ⟨call,answer loop registry request position call⟩

/-- The calls of a turn that are executed, each with what it comes to. -/
def executions (loop : AgentLoop) (request : Nat) (calls : List ToolCall) : List Execution :=
  match loop.tools with
  | some registry => (calls.take loop.config.maxToolCallsPerTurn).mapIdx (execution loop registry request)
  | none => []

/-- The executions after a reply. -/
def executionsOf (loop : AgentLoop) (talk : Talk) (reply : Reply) : List Execution :=
  if GoesOn loop talk reply then executions loop talk.requests.length reply.calls else []

def executionsIn (loop : AgentLoop) (ask : Ask) (talk : Talk) : List Execution :=
  match stopReason loop talk.loopState with
  | some _ => []
  | none =>
    match ask talk.requests.length talk.history with
    | .error _ => []
    | .ok reply => executionsOf loop talk reply

/-- The executions of a run, turn by turn. -/
def executionsOfRun (loop : AgentLoop) (mode : Mode) (message : String) (vars : Vars) : List Execution :=
  along (exchange loop (mode.ask loop)) (executionsIn loop (mode.ask loop)) (loop.config.maxTurns + 1)
    (start message (talkOf vars))

def flagOf : Published → Option (String × Bool)
  | .toolResult _ _ id success => some (id,success)
  | _ => none

/-- The success flags among the events. -/
def flags (vars : Vars) : List (String × Bool) := vars.published.filterMap flagOf

/-- A JSON text holds a message, written as in a string. -/
def Holds (content message : String) : Prop := message.toList.flatMap escape <:+: content.toList

/-- The flag is the success of the tool, and a message that tells of a failure holds its error. -/
def Truthful (execution : Execution) : Prop :=
  match execution.answer with
  | .unread _ => True
  | .refused error => execution.flag.2 = false ∧ Holds execution.content error.display
  | .returned result =>
    execution.flag.2 = result.success ∧
      (result.success = false → ∀ error ∈ result.error, Holds execution.content error.message)

/-- The condition on what a tool returns: its output names an `error` exactly if the tool fails,
and repeats the message of the failure. -/
def SpeaksInOutput (result : ToolResult) : Prop :=
  (result.output.getD .null).mentions "error".toList = !result.success ∧
    (result.success = false → ∀ error ∈ result.error, Holds (result.output.getD .null).text error.message)

def Meets (execution : Execution) : Prop :=
  match execution.answer with
  | .returned result => SpeaksInOutput result
  | _ => True

section Content

theorem executeCall_eq (loop : AgentLoop) (registry : ToolRegistry) (request position : Nat) (call : ToolCall) :
    executeCall loop registry request position call =
      (call.id,(execution loop registry request position call).content) := by
  unfold executeCall execution answer Execution.content
  cases loop.fromStr call.arguments with
  | error message => rfl
  | ok args =>
    dsimp only
    cases registry.execute request position call.name args with
    | ok result => rfl
    | error error => rfl

theorem results_eq (loop : AgentLoop) (registry : ToolRegistry) (request : Nat) (calls : List ToolCall) :
    calls.mapIdx (executeCall loop registry request) =
      (calls.mapIdx (execution loop registry request)).map (fun execution => (execution.call.id,execution.content)) := by
  rw [List.mapIdx_eq_zipIdx_map,List.mapIdx_eq_zipIdx_map,List.map_map]
  exact List.map_congr_left (fun item _ => executeCall_eq loop registry request item.2 item.1)

theorem error_plain : ∀ c ∈ "error".toList, plain c = true := List.all_eq_true.mp (by decide)

theorem looksSuccessful_text (value : Value) :
    looksSuccessful value.text = !value.mentions "error".toList := by
  have word : "\"error\"".toList = quotedWord "error".toList := by decide
  have chars : value.text.toList = value.chars := String.toList_ofList
  have same := mentions_iff "error".toList error_plain value
  change (!decide ("\"error\"".toList <:+: value.text.toList)) = _
  rw [word,chars]
  congr 1
  rw [Bool.eq_iff_iff,decide_eq_true_iff,same]

theorem refused_told (error : RegistryError) :
    looksSuccessful (Value.object [("error",.string error.display)]).text = false ∧
      Holds (Value.object [("error",.string error.display)]).text error.display := by
  constructor
  · rw [looksSuccessful_text]
    rfl
  · refine ⟨"\x7b\"error\":\"".toList,['"','\x7d'],?_⟩
    rw [Value.text,String.toList_ofList]
    simp [Value.chars,memberChars,separated,quoted,escape]

theorem truthful_iff (execution : Execution) : Truthful execution ↔ Meets execution := by
  obtain ⟨call,answer⟩ := execution
  unfold Truthful Meets Execution.flag Execution.content
  cases answer with
  | unread message => rfl
  | refused error =>
    dsimp only
    exact iff_of_true (refused_told error) trivial
  | returned result =>
    dsimp only
    rw [looksSuccessful_text,Bool.not_eq_eq_eq_not]
    rfl

end Content

/-! The history. -/
section History
variable (loop : AgentLoop) (ask : Ask) (talk : Talk)

theorem executions_answered (request : Nat) (calls : List ToolCall) :
    ((executions loop request calls).map Execution.message).Sublist (answers loop request calls) := by
  unfold executions answers
  cases loop.tools with
  | none => exact List.nil_sublist _
  | some registry =>
    dsimp only
    rw [results_eq,List.map_map]
    exact List.Sublist.refl _

theorem executionsIn_reply (reply : Reply) (free : stopReason loop talk.loopState = none)
    (given : ask talk.requests.length talk.history = .ok reply) :
    executionsIn loop ask talk = executionsOf loop talk reply := by
  rw [executionsIn,free,given]

theorem exchange_tells : ∃ said,
    (exchange loop ask talk).elim Talk.history (fun ending => ending.2.history) = talk.history ++ said ∧
      ((executionsIn loop ask talk).map Execution.message).Sublist said := by
  rcases exchange_cases loop ask talk with ⟨reason,stopped,ended⟩ | ⟨free,⟨error,given,failed⟩ | ⟨reply,given,heard⟩⟩
  · refine ⟨[],?_,?_⟩
    · rw [ended]
      exact (List.append_nil _).symm
    · rw [executionsIn,stopped]
      exact List.nil_sublist _
  · refine ⟨[],?_,?_⟩
    · rw [failed]
      exact (List.append_nil _).symm
    · rw [executionsIn,free,given]
      exact List.nil_sublist _
  · let waiting := (talk.request loop.options).say [.awaitingLLM]
    rw [heard,executionsIn_reply loop ask talk reply free given]
    unfold executionsOf
    by_cases spent : loop.config.spent (waiting.spend reply.usage).loopState.usage = true
    · have off : ¬GoesOn loop talk reply := fun on => Bool.false_ne_true (on.1.symm.trans spent)
      rw [hear_spent loop talk.requests.length reply waiting spent,if_neg off]
      exact ⟨[reply.message],rfl,List.nil_sublist _⟩
    · by_cases calls : reply.calls ≠ [] ∧ loop.config.toolUseEnabled = true
      · have on : GoesOn loop talk reply := ⟨Bool.eq_false_iff.mpr spent,calls⟩
        rw [hear_calls loop talk.requests.length reply waiting spent calls,if_pos on]
        refine ⟨reply.message :: answers loop talk.requests.length reply.calls,?_,?_⟩
        · exact List.append_assoc talk.history [reply.message] _
        · exact (executions_answered loop _ _).cons reply.message
      · have off : ¬GoesOn loop talk reply := fun on => calls on.2
        rw [hear_stop loop talk.requests.length reply waiting spent calls,if_neg off]
        exact ⟨[reply.message],rfl,List.nil_sublist _⟩

end History

/-! The events. -/
section Events

theorem transition_quiet (event : StateEvent) : Quiet flags (transition event) :=
  Quiet.transition (fun _ _ _ => rfl) event

theorem publish_quiet (event : Published) (other : flagOf event = none) : Quiet flags (publish event) := by
  refine Quiet.modify (fun vars => ?_)
  rw [flags,List.filterMap_append,List.filterMap_cons_none other,List.filterMap_nil,List.append_nil]
  rfl

theorem append_quiet (message : Message) : Quiet flags (append message) := Quiet.modify (fun _ => rfl)

theorem send_quiet (chunk : StreamChunk) : Quiet flags (Streaming.send chunk) := Quiet.modify (fun _ => rfl)

theorem noteHistoryLen_quiet : Quiet flags noteHistoryLen := Quiet.modify (fun _ => rfl)

theorem noteToolCalls_quiet (calls : List ToolCall) : Quiet flags (noteToolCalls calls) := Quiet.modify (fun _ => rfl)

theorem noteUsage_quiet (usage : TokenUsage) : Quiet flags (noteUsage usage) := Quiet.modify (fun _ => rfl)

theorem noteRequest_quiet (messages : List Message) (options : Options) : Quiet flags (noteRequest messages options) :=
  Quiet.modify (fun _ => rfl)

variable (loop : AgentLoop)

theorem finishWith_quiet (reason : FinishReason) (label : String) (message : Message) :
    Quiet flags (finishWith loop reason label message) := by
  refine (transition_quiet _).bind fun _ => ?_
  refine (transition_quiet _).bind fun _ => ?_
  apply Quiet.get
  intro vars
  exact (publish_quiet _ rfl).bind (fun _ => Quiet.pure _)

theorem finishEarly_quiet (reason : FinishReason) (label : String) : Quiet flags (finishEarly loop reason label) := by
  refine (transition_quiet _).bind fun _ => ?_
  apply Quiet.get
  intro vars
  exact (publish_quiet _ rfl).bind (fun _ => Quiet.pure _)

theorem stream_finishEarly_quiet (reason : FinishReason) (label : String) :
    Quiet flags (Streaming.finishEarly loop reason label) := by
  refine (transition_quiet _).bind fun _ => ?_
  apply Quiet.get
  intro vars
  refine (publish_quiet _ rfl).bind fun _ => ?_
  exact (send_quiet _).bind (fun _ => Quiet.pure _)

theorem askComplete_quiet : Quiet flags (Run.askComplete loop) := by
  apply Quiet.get
  intro vars
  refine (publish_quiet _ rfl).bind fun _ => ?_
  refine (transition_quiet _).bind fun _ => ?_
  refine (noteRequest_quiet _ _).bind fun _ => ?_
  split
  · exact Quiet.pure _
  · exact (transition_quiet _).bind (fun _ => Quiet.throw _)

theorem drain_quiet (items : List (Except ProviderError Delta)) (start : Streaming.Assembly) :
    Quiet flags (Streaming.drain items start) := by
  induction items generalizing start with
  | nil => exact (Quiet.forM send_quiet _).bind (fun _ => Quiet.pure _)
  | cons item rest ih =>
    cases item with
    | error error =>
      refine (transition_quiet _).bind fun _ => ?_
      exact (send_quiet _).bind (fun _ => Quiet.throw _)
    | ok delta => exact (Quiet.forM send_quiet _).bind (fun _ => ih _)

theorem askStream_quiet : Quiet flags (Streaming.askStream loop) := by
  apply Quiet.get
  intro vars
  refine (publish_quiet _ rfl).bind fun _ => ?_
  refine (transition_quiet _).bind fun _ => ?_
  refine (noteRequest_quiet _ _).bind fun _ => ?_
  split
  · refine (transition_quiet _).bind fun _ => ?_
    exact (send_quiet _).bind (fun _ => Quiet.throw _)
  · exact drain_quiet _ _

theorem refusal_quiet (calls : List ToolCall) (refuse : ToolCall → Effect Unit)
    (refuses : ∀ call, Quiet flags (refuse call)) :
    Quiet flags (do
      let _ ← transition .toolsRequired
      forM calls refuse
      noteHistoryLen
      let _ ← transition .toolsCompleted) := by
  refine (transition_quiet _).bind fun _ => ?_
  refine (Quiet.forM refuses _).bind fun _ => ?_
  refine noteHistoryLen_quiet.bind fun _ => ?_
  exact (transition_quiet _).bind (fun _ => Quiet.pure _)

theorem stream_refuse_quiet (call : ToolCall) : Quiet flags
    (do Streaming.send (.toolError call.id "no_tool_registry"); append (.toolResult call.id noRegistryJson)) :=
  (send_quiet _).bind (fun _ => append_quiet _)

section Results
variable (talk : Talk) (current : AgentState) (calls : List ToolCall) (result : String × String)

theorem publish_adds (agentId name id : String) (success : Bool) :
    Adds flags talk current (publish (.toolResult agentId name id success)) [(id,success)] := by
  intro vars _
  exact List.filterMap_append

/-- The flag of a result is published with the name of a call that has its id. -/
theorem report_adds (known : ∃ call ∈ calls, call.id = result.1) : Adds flags talk current (do
    match calls.find? (fun call => call.id = result.1) with
    | some call => publish (.toolResult loop.agentId call.name result.1 (looksSuccessful result.2))
    | none => pure ()
    append (.toolResult result.1 result.2)) [(result.1,looksSuccessful result.2)] := by
  cases found : calls.find? (fun call => call.id = result.1) with
  | none =>
    obtain ⟨call,member,same⟩ := known
    exact absurd (decide_eq_true same) (List.find?_eq_none.mp found call member)
  | some call => exact Adds.only (publish_leads _ _ _) (publish_adds _ _ _ _ _ _) (append_quiet _)

end Results

/-- Both ways of running the tools of a turn. -/
theorem tools_add (registry : ToolRegistry) (request : Nat) (calls : List ToolCall) (talk : Talk)
    (present : loop.tools = some registry) (report : String × String → Effect Unit)
    (reports : ∀ result talk current,
      Leads talk current (report result) () (talk.append [.toolResult result.1 result.2]) current)
    (adds : ∀ result talk current, (∃ call ∈ calls, call.id = result.1) →
      Adds flags talk current (report result) [(result.1,looksSuccessful result.2)]) :
    Adds flags talk .awaitingLLM (do
      noteToolCalls calls
      forM calls fun call => publish (.toolCalled loop.agentId call.name call.id)
      let _ ← transition .toolsRequired
      match executeToolsParallel loop registry request calls with
      | .error error =>
        tryCatch (do let _ ← transition .error) (fun _ => pure ())
        throw error
      | .ok results =>
        forM results report
        noteHistoryLen
        let _ ← transition .toolsCompleted) ((executions loop request calls).map Execution.flag) := by
  have flagged : (executions loop request calls).map Execution.flag =
      ((calls.take loop.config.maxToolCallsPerTurn).mapIdx (executeCall loop registry request)).flatMap
        (fun result => [(result.1,looksSuccessful result.2)]) := by
    rw [← List.map_eq_flatMap,executions,present,results_eq,List.map_map]
    rfl
  have known : ∀ result ∈ (calls.take loop.config.maxToolCallsPerTurn).mapIdx (executeCall loop registry request),
      ∃ call ∈ calls, call.id = result.1 := by
    intro result member
    rw [results_eq,List.mem_map] at member
    obtain ⟨execution,made,rfl⟩ := member
    obtain ⟨position,inside,rfl⟩ := List.mem_mapIdx.mp made
    exact ⟨_,List.mem_of_mem_take (List.getElem_mem inside),rfl⟩
  rw [flagged]
  apply Adds.then (noteToolCalls_leads _ _ _) (noteToolCalls_quiet _)
  apply Adds.then (forM_leads_same _ _ _ (fun _ _ => publish_leads _ _ _) _) (Quiet.forM (fun _ => publish_quiet _ rfl) _)
  apply Adds.then (transition_leads _ .awaitingLLM .toolsRequired .toolExecuting rfl) (transition_quiet _)
  simp only [executeToolsParallel]
  apply Adds.only (forM_leads report _ .toolExecuting (fun result talk => reports result talk _) _ _)
  · exact Adds.forM _ report _ _ (fun result talk => reports result talk _) _
      (fun result member talk => adds result talk _ (known result member))
  · exact noteHistoryLen_quiet.bind (fun _ => (transition_quiet _).bind (fun _ => Quiet.pure _))

theorem receive_adds (request : Nat) (response : CompletionResponse) (talk : Talk) :
    Adds flags talk .awaitingLLM (receive loop request response)
      ((if GoesOn loop talk ⟨response.message,response.usage⟩ then
        executions loop request (response.message.toolCalls.getD []) else []).map Execution.flag) := by
  apply Adds.then (noteUsage_leads _ _ _) (noteUsage_quiet _)
  apply Adds.get
  rintro vars ⟨talked,-⟩
  have usage : vars.loopState.usage = (talk.spend response.usage).loopState.usage := by rw [← talked]; rfl
  rw [usage]
  by_cases spent : loop.config.spent (talk.spend response.usage).loopState.usage = true
  · rw [if_pos spent,if_neg (fun on => Bool.false_ne_true (on.1.symm.trans spent))]
    refine Quiet.adds ((append_quiet _).bind fun _ => ?_)
    exact (finishWith_quiet loop _ _ _).bind (fun _ => Quiet.pure _)
  · rw [if_neg spent]
    apply Adds.then (publish_leads _ _ _) (publish_quiet _ rfl)
    apply Adds.then (append_leads _ _ _) (append_quiet _)
    apply Adds.then (noteHistoryLen_leads _ _) noteHistoryLen_quiet
    dsimp only
    by_cases calls : response.message.toolCalls.getD [] ≠ [] ∧ loop.config.toolUseEnabled = true
    · have on : GoesOn loop talk ⟨response.message,response.usage⟩ := ⟨Bool.eq_false_iff.mpr spent,calls⟩
      rw [if_pos ((calls_test _ _).mpr calls),if_pos on]
      cases tools : loop.tools with
      | none =>
        rw [executions,tools]
        exact Quiet.adds ((refusal_quiet _ _ (fun _ => append_quiet _)).bind (fun _ => Quiet.pure _))
      | some registry =>
        exact Adds.only (tools_lead loop registry request _ _ tools _ (appendResult_leads loop _))
          (tools_add loop registry request _ _ tools _ (appendResult_leads loop _)
            (fun result talk current known => report_adds loop talk current _ result known)) (Quiet.pure _)
    · rw [if_neg (mt (calls_test _ _).mp calls),if_neg (fun on => calls on.2)]
      exact Quiet.adds ((finishWith_quiet loop _ _ _).bind (fun _ => Quiet.pure _))

theorem stream_receive_adds (request : Nat) (assembly : Streaming.Assembly) (talk : Talk) :
    Adds flags talk .awaitingLLM (Streaming.receive loop request assembly)
      ((if GoesOn loop talk (replyOf assembly) then
        executions loop request (replyOf assembly).calls else []).map Execution.flag) := by
  apply Adds.then (noteUsage_leads _ _ _) (noteUsage_quiet _)
  apply Adds.get
  rintro vars ⟨talked,-⟩
  change talkOf vars = talk.spend (replyOf assembly).usage at talked
  have usage : vars.loopState.usage = (talk.spend (replyOf assembly).usage).loopState.usage := by rw [← talked]; rfl
  rw [usage]
  by_cases spent : loop.config.spent (talk.spend (replyOf assembly).usage).loopState.usage = true
  · rw [if_pos spent,if_neg (fun on => Bool.false_ne_true (on.1.symm.trans spent))]
    refine Quiet.adds ((append_quiet _).bind fun _ => ?_)
    refine (transition_quiet _).bind fun _ => ?_
    refine (transition_quiet _).bind fun _ => ?_
    refine (publish_quiet _ rfl).bind fun _ => ?_
    exact (send_quiet _).bind (fun _ => Quiet.pure _)
  · rw [if_neg spent]
    apply Adds.then (publish_leads _ _ _) (publish_quiet _ rfl)
    apply Adds.then (append_leads _ _ _) (append_quiet _)
    apply Adds.then (noteHistoryLen_leads _ _) noteHistoryLen_quiet
    rw [← replyOf_calls]
    by_cases calls : (replyOf assembly).calls ≠ [] ∧ loop.config.toolUseEnabled = true
    · have on : GoesOn loop talk (replyOf assembly) := ⟨Bool.eq_false_iff.mpr spent,calls⟩
      rw [if_pos ((calls_test _ _).mpr calls),if_pos on]
      cases tools : loop.tools with
      | none =>
        rw [executions,tools]
        exact Quiet.adds ((refusal_quiet _ _ stream_refuse_quiet).bind (fun _ => Quiet.pure _))
      | some registry =>
        exact Adds.only (tools_lead loop registry request _ _ tools _ (stream_appendResult_leads loop _))
          (tools_add loop registry request _ _ tools _ (stream_appendResult_leads loop _)
            (fun result talk current known => Adds.then (send_leads _ _ _) (send_quiet _)
              (report_adds loop talk current _ result known))) (Quiet.pure _)
    · rw [if_neg (mt (calls_test _ _).mp calls),if_neg (fun on => calls on.2)]
      refine Quiet.adds ((transition_quiet _).bind fun _ => ?_)
      refine (transition_quiet _).bind fun _ => ?_
      refine (send_quiet _).bind fun _ => ?_
      refine (send_quiet _).bind fun _ => ?_
      refine (send_quiet _).bind fun _ => ?_
      exact (publish_quiet _ rfl).bind (fun _ => Quiet.pure _)

/-- The checks at the head of a turn. -/
theorem checks_add (ask : Ask) (finish : FinishReason → String → Effect AgentResult)
    (consult : Nat → Effect (Option AgentResult)) (talk : Talk)
    (finishes : ∀ reason label, Quiet flags (finish reason label))
    (consults : stopReason loop talk.loopState = none → Adds flags talk .running (consult talk.requests.length)
      ((executionsIn loop ask talk).map Execution.flag)) :
    Adds flags talk .running (do
      publish (.turnStarted loop.agentId (← get).loopState.turn)
      let vars ← get
      if loop.stopConditions.any (fun shouldStop => shouldStop vars.loopState) then
        return some (← finish .stopCondition "stop_condition")
      else if loop.config.maxTurns ≤ vars.loopState.turn then
        return some (← finish .maxTurns "max_turns")
      else if loop.config.spent vars.loopState.usage then
        return some (← finish .tokenBudget "token_budget")
      else
        consult vars.requests.length) ((executionsIn loop ask talk).map Execution.flag) := by
  have ended (reason : FinishReason) (label : String) (stopped : stopReason loop talk.loopState = some reason) :
      Adds flags talk .running (do return some (← finish reason label))
        ((executionsIn loop ask talk).map Execution.flag) := by
    rw [executionsIn,stopped]
    exact Quiet.adds ((finishes reason label).bind (fun _ => Quiet.pure _))
  apply Adds.get
  intro _ _
  apply Adds.then (publish_leads _ _ _) (publish_quiet _ rfl)
  apply Adds.get
  rintro vars ⟨rfl,-⟩
  have state : (talkOf vars).loopState = vars.loopState := rfl
  rw [stopReason,state] at ended consults
  split
  case isTrue stop => exact ended _ _ (if_pos stop)
  case isFalse free =>
    rw [if_neg free] at ended consults
    split
    case isTrue stop => exact ended _ _ (if_pos stop)
    case isFalse more =>
      rw [if_neg more] at ended consults
      split
      case isTrue stop => exact ended _ _ (if_pos stop)
      case isFalse within => exact consults (if_neg within)

theorem turn_adds (talk : Talk) : Adds flags talk .running (Run.turn loop)
    ((executionsIn loop (completeAsk loop) talk).map Execution.flag) := by
  refine checks_add loop (completeAsk loop) _ (fun request => do receive loop request (← Run.askComplete loop)) talk
    (finishEarly_quiet loop) ?_
  intro free
  unfold executionsIn completeAsk
  rw [free]
  dsimp only
  cases given : withRetry (fun attempt => loop.provider.complete talk.requests.length attempt talk.history loop.options) {} with
  | ok response =>
    exact Adds.then (askComplete_leads loop talk response given) (askComplete_quiet loop) (receive_adds loop _ response _)
  | error error => exact Adds.bind_fails (askComplete_fails loop talk error given) (askComplete_quiet loop).adds

theorem stream_turn_adds (talk : Talk) : Adds flags talk .running (Streaming.turn loop)
    ((executionsIn loop (streamAsk loop) talk).map Execution.flag) := by
  refine checks_add loop (streamAsk loop) _
    (fun request => do Streaming.receive loop request (← Streaming.askStream loop)) talk (stream_finishEarly_quiet loop) ?_
  intro free
  unfold executionsIn
  rw [free]
  dsimp only
  cases given : streamAsk loop talk.requests.length talk.history with
  | error error => exact Adds.bind_fails (askStream_fails loop talk error given) (askStream_quiet loop).adds
  | ok reply =>
    obtain ⟨items,assembly,opened,assembled,rfl⟩ := streamAsk_ok loop _ _ reply given
    exact Adds.then (askStream_items loop talk items assembly opened assembled) (askStream_quiet loop)
      (stream_receive_adds loop _ assembly _)

end Events

/-! Whole runs. -/

theorem flags_of_run (loop : AgentLoop) (mode : Mode) (message : String) (vars : Vars) (outcome : Outcome)
    (ran : mode.run loop message vars = some outcome) :
    flags outcome.2 = flags vars ++ (executionsOfRun loop mode message vars).map Execution.flag := by
  have turns (talk : Talk) : Adds flags talk .running (mode.turn loop)
      ((executionsIn loop (mode.ask loop) talk).map Execution.flag) := by
    cases mode with
    | complete => exact turn_adds loop talk
    | streaming => exact stream_turn_adds loop talk
  have begins (message : String) (vars started : Vars) (began : begin message vars = .ok () started) :
      flags started = flags vars := by
    cases began
    rfl
  rw [run_adds flags loop mode _ begins turns message vars outcome ran,along_map]
  rfl

theorem history_of_run (loop : AgentLoop) (mode : Mode) (message : String) (vars : Vars) (outcome : Outcome)
    (ran : mode.run loop message vars = some outcome) :
    ((executionsOfRun loop mode message vars).map Execution.message).Sublist
      (outcome.2.history.drop vars.history.length) := by
  let said (talk : Talk) : List Message := ((exchange loop (mode.ask loop) talk).elim Talk.history
    (fun ending => ending.2.history)).drop talk.history.length
  have grows (talk : Talk) : (exchange loop (mode.ask loop) talk).elim Talk.history (fun ending => ending.2.history) =
      talk.history ++ said talk ∧ ((executionsIn loop (mode.ask loop) talk).map Execution.message).Sublist (said talk) := by
    obtain ⟨added,all,some⟩ := exchange_tells loop (mode.ask loop) talk
    have same : said talk = added := by
      unfold said
      rw [all,List.drop_left]
    rw [same]
    exact ⟨all,some⟩
  obtain ⟨ending,ends⟩ := converse_ends loop (mode.ask loop) message (talkOf vars)
  have refines := runWith_refines loop (mode.turn loop) (mode.ask loop) (mode.turn_reaches loop) message vars
  rw [← mode.run_eq,ran,ends] at refines
  obtain ⟨_,same,_,talked⟩ := rel_some refines
  cases same
  have whole := iterate_grows _ (exchange loop (mode.ask loop)) Eq Eq Talk.history (fun ending => ending.2.history) said
    (fun talk _ same => same ▸ Sum.LiftRel.refl _ _ _) (fun talk _ same => same ▸ (grows talk).1) _ _ _ rfl ending ends
  have history : outcome.2.history = vars.history ++ .user message :: along (exchange loop (mode.ask loop)) said
      (loop.config.maxTurns + 1) (start message (talkOf vars)) := by
    rw [show outcome.2.history = ending.2.history from congrArg Talk.history talked,whole]
    exact List.append_assoc vars.history [.user message] _
  rw [history,List.drop_left,executionsOfRun,← along_map]
  exact (along_sublist _ _ said (fun talk => (grows talk).2) _ _).cons _

/-- Every run publishes the flag of each execution and gives the model its content, and both
are truthful exactly when the output of the tool says how it ended. -/
theorem outcomes_told_iff (loop : AgentLoop) (mode : Mode) (message : String) (vars : Vars) :
    ∃ outcome last, mode.run loop message vars = some (outcome,last) ∧
      flags last = flags vars ++ (executionsOfRun loop mode message vars).map Execution.flag ∧
      ((executionsOfRun loop mode message vars).map Execution.message).Sublist (last.history.drop vars.history.length) ∧
      ∀ execution ∈ executionsOfRun loop mode message vars, Truthful execution ↔ Meets execution := by
  obtain ⟨⟨outcome,last⟩,ran⟩ := mode_run_ends loop mode message vars
  exact ⟨outcome,last,ran,flags_of_run loop mode message vars _ ran,history_of_run loop mode message vars _ ran,
    fun execution _ => truthful_iff execution⟩

/-! A tool that fails without an output, and one whose output has a member named `error`. -/

def failed : ToolResult := ⟨false,none,some ⟨.executionFailed,"disk full"⟩⟩

def checked : ToolResult := ⟨true,some (.object [("error",.null)]),none⟩

def disguising : AgentLoop :=
  {twoCallLoop 2 with
    tools := some ⟨fun _ position _ _ => .ok (if position = 0 then failed else checked)⟩
    config := {maxTurns := 1}}

/-- The failure is published as a success and told as `null`, the success as a failure. -/
theorem outcomes_disguised :
    (∀ mode : Mode, (mode.run disguising "go" (created [])).map (fun ended => (flags ended.2,ended.2.history)) =
      some ([("a",true),("b",false)],
        [.user "go",twoCalls,.toolResult "a" "null",.toolResult "b" "\x7b\"error\":null\x7d"])) ∧
    ∀ mode : Mode, ∃ execution ∈ executionsOfRun disguising mode "go" (created []),
      execution.answer = .returned failed ∧ ¬Truthful execution := by
  constructor
  · rintro (_ | _)
    all_goals decide +kernel
  · rintro (_ | _)
    all_goals exact ⟨⟨⟨"a","f","1"⟩,.returned failed⟩,List.mem_cons_self,rfl,fun told => absurd told.1 (by decide +kernel)⟩

end ClawKernel.Loop.Outcomes
