import ClawKernel.Loop.Conversation

/-! Both loops refine the conversation. The rules follow one effect of a loop at a
time: where the conversation stands before it, and where after it.
-/
namespace ClawKernel.Loop.Refinement
open Lib.Json Lib.Loops Loop.States Loop.Types Loop.Run Loop.Conversation
open Provider.Types hiding FinishReason
open Provider.Retry

def talkOf (vars : Vars) : Talk :=
  ⟨vars.history,vars.broadcast,vars.requests,vars.loopState,vars.toolCalls⟩

/-- The record holds the conversation, with the state machine in a given state. -/
def Stands (vars : Vars) (talk : Talk) (current : AgentState) : Prop :=
  talkOf vars = talk ∧ vars.machine.current = current

/-- From wherever the conversation stands, the effect succeeds with the value. -/
def Leads {α : Type} (talk : Talk) (current : AgentState) (effect : Effect α) (value : α)
    (after : Talk) (now : AgentState) : Prop :=
  ∀ vars, Stands vars talk current → ∃ next, effect.run vars = .ok value next ∧ Stands next after now

def Fails {α : Type} (talk : Talk) (current : AgentState) (effect : Effect α) (error : AgentError)
    (after : Talk) (now : AgentState) : Prop :=
  ∀ vars, Stands vars talk current → ∃ next, effect.run vars = .error error next ∧ Stands next after now

section Rules

variable {α β : Type} {effect : Effect α} {rest : α → Effect β} {value : α} {last : β} {error : AgentError}
  {talk middle after : Talk} {current between now : AgentState}

theorem Leads.bind (first : Leads talk current effect value middle between)
    (second : Leads middle between (rest value) last after now) :
    Leads talk current (effect >>= rest) last after now := by
  intro vars stands
  obtain ⟨next,ran,met⟩ := first vars stands
  obtain ⟨final,continued,reached⟩ := second next met
  exact ⟨final,by rw [EStateM.run_bind,ran]; exact continued,reached⟩

theorem Leads.bind_fails (first : Leads talk current effect value middle between)
    (second : Fails middle between (rest value) error after now) :
    Fails talk current (effect >>= rest) error after now := by
  intro vars stands
  obtain ⟨next,ran,met⟩ := first vars stands
  obtain ⟨final,continued,reached⟩ := second next met
  exact ⟨final,by rw [EStateM.run_bind,ran]; exact continued,reached⟩

theorem Fails.bind (first : Fails talk current effect error after now) :
    Fails talk current (effect >>= rest) error after now := by
  intro vars stands
  obtain ⟨next,ran,met⟩ := first vars stands
  exact ⟨next,by rw [EStateM.run_bind,ran],met⟩

theorem Leads.get {rest : Vars → Effect β}
    (second : ∀ vars, Stands vars talk current → Leads talk current (rest vars) last after now) :
    Leads talk current (MonadState.get >>= rest) last after now := by
  intro vars stands
  exact second vars stands vars stands

theorem Fails.get {rest : Vars → Effect β}
    (second : ∀ vars, Stands vars talk current → Fails talk current (rest vars) error after now) :
    Fails talk current (MonadState.get >>= rest) error after now := by
  intro vars stands
  exact second vars stands vars stands

theorem Leads.pure (talk : Talk) (current : AgentState) (value : α) :
    Leads talk current (Pure.pure value) value talk current :=
  fun vars stands => ⟨vars,rfl,stands⟩

theorem Leads.pure_of {value : α} (same : talk = after) : Leads talk current (Pure.pure value) value after current :=
  same ▸ Leads.pure talk current value

theorem Fails.throw (talk : Talk) (current : AgentState) (error : AgentError) :
    Fails talk current (MonadExcept.throw error : Effect α) error talk current :=
  fun vars stands => ⟨vars,rfl,stands⟩

theorem Leads.change {change : Vars → Vars}
    (changes : ∀ vars, Stands vars talk current → Stands (change vars) after now) :
    Leads talk current (modify change) () after now :=
  fun vars stands => ⟨change vars,rfl,changes vars stands⟩

theorem forM_leads (effect : α → Effect Unit) (messages : α → List Message) (current : AgentState)
    (each : ∀ item talk, Leads talk current (effect item) () (talk.append (messages item)) current)
    (items : List α) (talk : Talk) :
    Leads talk current (forM items effect) () (talk.append (items.flatMap messages)) current := by
  induction items generalizing talk with
  | nil => simpa [Talk.append] using Leads.pure talk current ()
  | cons item rest ih =>
    rw [List.forM_cons]
    apply (each item talk).bind
    simpa [Talk.append] using ih (talk.append (messages item))

end Rules

section Effects

variable (talk : Talk) (current : AgentState)

theorem transition_leads (event : StateEvent) (new : AgentState)
    (allowed : buildTransitionTable.lookup (current,event) = some new) :
    Leads talk current (transition event) new (talk.say [new]) new := by
  rintro vars ⟨rfl,rfl⟩
  refine ⟨{vars with machine := ⟨new⟩, state := new, broadcast := vars.broadcast ++ [new]},?_,rfl,rfl⟩
  simp only [transition,EStateM.run_bind,EStateM.run_get,StateMachine.transition,allowed,EStateM.run_set,
    EStateM.run_pure]

theorem publish_leads (event : Published) : Leads talk current (publish event) () talk current :=
  Leads.change (fun _ stands => stands)

theorem send_leads (chunk : StreamChunk) : Leads talk current (Streaming.send chunk) () talk current :=
  Leads.change (fun _ stands => stands)

theorem append_leads (message : Message) :
    Leads talk current (append message) () (talk.append [message]) current :=
  Leads.change (by rintro vars ⟨rfl,rfl⟩; exact ⟨rfl,rfl⟩)

theorem noteRequest_leads (options : Options) :
    Leads talk current (noteRequest talk.history options) () (talk.request options) current :=
  Leads.change (by rintro vars ⟨rfl,rfl⟩; exact ⟨rfl,rfl⟩)

theorem noteUsage_leads (usage : TokenUsage) :
    Leads talk current (noteUsage usage) () (talk.spend usage) current :=
  Leads.change (by rintro vars ⟨rfl,rfl⟩; exact ⟨rfl,rfl⟩)

theorem noteHistoryLen_leads : Leads talk current noteHistoryLen () talk.measure current :=
  Leads.change (by rintro vars ⟨rfl,rfl⟩; exact ⟨rfl,rfl⟩)

theorem noteToolCalls_leads (calls : List ToolCall) :
    Leads talk current (noteToolCalls calls) () (talk.record calls) current :=
  Leads.change (by rintro vars ⟨rfl,rfl⟩; exact ⟨rfl,rfl⟩)

theorem forM_leads_same {α : Type} (effect : α → Effect Unit)
    (each : ∀ item talk, Leads talk current (effect item) () talk current) (items : List α) :
    Leads talk current (forM items effect) () talk current := by
  have all := forM_leads effect (fun _ => []) current
    (fun item talk => by simpa [Talk.append] using each item talk) items talk
  have silent : items.flatMap (fun _ => ([] : List Message)) = [] := by simp
  simpa [Talk.append,silent] using all

end Effects

/-! The steps of `run`. -/

theorem earlyResult_of {vars : Vars} {talk : Talk} {reason : FinishReason} {states : List AgentState}
    (talked : talkOf vars = talk.say states) : earlyResult reason vars = talk.early reason := by
  have fields : earlyResult reason vars = (talkOf vars).early reason := rfl
  rw [fields,talked]
  rfl

theorem finishEarly_leads (loop : AgentLoop) (reason : FinishReason) (label : String) (talk : Talk) :
    Leads talk .running (finishEarly loop reason label) (talk.early reason) (talk.say [.completed]) .completed := by
  apply (transition_leads talk .running .stopConditionMet .completed rfl).bind
  apply Leads.get
  rintro vars ⟨talked,-⟩
  rw [earlyResult_of talked]
  exact (publish_leads _ _ _).bind (Leads.pure _ _ _)

theorem finishWith_leads (loop : AgentLoop) (reason : FinishReason) (label : String) (message : Message)
    (talk : Talk) :
    Leads talk .awaitingLLM (finishWith loop reason label message) (talk.result reason message)
      (talk.say [.running,.completed]) .completed := by
  apply (transition_leads talk .awaitingLLM .llmResponseReceived .running rfl).bind
  apply (transition_leads _ .running .stopConditionMet .completed rfl).bind
  apply Leads.get
  rintro vars ⟨talked,-⟩
  have same : replyResult reason message vars = talk.result reason message := by
    have fields : replyResult reason message vars = (talkOf vars).result reason message := rfl
    rw [fields,talked]
    rfl
  have states : (talk.say [.running]).say [.completed] = talk.say [.running,.completed] := by
    simp [Talk.say]
  rw [same,states]
  exact (publish_leads _ _ _).bind (Leads.pure _ _ _)

theorem appendResult_leads (loop : AgentLoop) (calls : List ToolCall) (result : String × String) (talk : Talk)
    (current : AgentState) :
    Leads talk current (appendResult loop calls result) () (talk.append [.toolResult result.1 result.2]) current := by
  unfold appendResult
  cases calls.find? (fun call => call.id = result.1) with
  | none => exact (Leads.pure _ _ _).bind (append_leads _ _ _)
  | some call => exact (publish_leads _ _ _).bind (append_leads _ _ _)

theorem tools_lead (loop : AgentLoop) (registry : ToolRegistry) (request : Nat) (calls : List ToolCall) (talk : Talk)
    (present : loop.tools = some registry) (report : String × String → Effect Unit)
    (reports : ∀ result talk current,
      Leads talk current (report result) () (talk.append [.toolResult result.1 result.2]) current) :
    Leads talk .awaitingLLM (do
      noteToolCalls calls
      forM calls fun call => publish (.toolCalled loop.agentId call.name call.id)
      let _ ← transition .toolsRequired
      match executeToolsParallel loop registry request calls with
      | .error error =>
        tryCatch (do let _ ← transition .error) (fun _ => pure ())
        throw error
      | .ok results =>
        forM results report
        noteHistoryLen
        let _ ← transition .toolsCompleted) () (answered loop request calls talk) .running := by
  apply (noteToolCalls_leads _ _ _).bind
  apply (forM_leads_same _ _ _ (fun _ _ => publish_leads _ _ _) _).bind
  apply (transition_leads _ .awaitingLLM .toolsRequired .toolExecuting rfl).bind
  simp only [executeToolsParallel]
  apply (forM_leads report _ .toolExecuting (fun result talk => reports result talk _) _ _).bind
  apply (noteHistoryLen_leads _ _).bind
  apply (transition_leads _ .toolExecuting .toolsCompleted .running rfl).bind
  rw [← List.map_eq_flatMap]
  apply Leads.pure_of
  simp [answered,answers,recorded,present,Talk.append,Talk.say,Talk.measure,Talk.record]

theorem refusal_leads (loop : AgentLoop) (request : Nat) (calls : List ToolCall) (talk : Talk)
    (absent : loop.tools = none) (refuse : ToolCall → Effect Unit)
    (refuses : ∀ call talk current,
      Leads talk current (refuse call) () (talk.append [.toolResult call.id noRegistryJson]) current) :
    Leads talk .awaitingLLM (do
      let _ ← transition .toolsRequired
      forM calls refuse
      noteHistoryLen
      let _ ← transition .toolsCompleted) () (answered loop request calls talk) .running := by
  apply (transition_leads _ .awaitingLLM .toolsRequired .toolExecuting rfl).bind
  apply (forM_leads refuse _ .toolExecuting (fun call talk => refuses call talk _) _ _).bind
  apply (noteHistoryLen_leads _ _).bind
  apply (transition_leads _ .toolExecuting .toolsCompleted .running rfl).bind
  rw [← List.map_eq_flatMap]
  apply Leads.pure_of
  simp [answered,answers,recorded,absent,Talk.append,Talk.say,Talk.measure,Talk.record]

def Ends (outcome : Outcome) (ending : Ending) : Prop := outcome.1 = ending.1 ∧ talkOf outcome.2 = ending.2

def Reaches (talk : Talk) (current : AgentState) (effect : Effect (Option AgentResult)) (outcome : Talk ⊕ Ending) :
    Prop :=
  ∀ vars, Stands vars talk current →
    Sum.LiftRel (fun next after => Stands next after .running) Ends (iteration effect vars) outcome

section Reaching

variable {effect : Effect (Option AgentResult)} {talk middle after : Talk} {current between now : AgentState}
  {outcome : Talk ⊕ Ending}

theorem Leads.goes_on (leads : Leads talk current effect none after .running) :
    Reaches talk current effect (.inl after) := by
  intro vars stands
  obtain ⟨next,ran,met⟩ := leads vars stands
  rw [iteration,ran]
  exact .inl met

theorem Leads.returns {result : AgentResult} (leads : Leads talk current effect (some result) after now) :
    Reaches talk current effect (.inr (.ok result,after)) := by
  intro vars stands
  obtain ⟨next,ran,met⟩ := leads vars stands
  rw [iteration,ran]
  exact .inr ⟨rfl,met.1⟩

theorem Fails.returns {error : AgentError} (fails : Fails talk current effect error after now) :
    Reaches talk current effect (.inr (.error error,after)) := by
  intro vars stands
  obtain ⟨next,ran,met⟩ := fails vars stands
  rw [iteration,ran]
  exact .inr ⟨rfl,met.1⟩

theorem Leads.bind_reaches {α : Type} {first : Effect α} {rest : α → Effect (Option AgentResult)} {value : α}
    (leads : Leads talk current first value middle between)
    (reaches : Reaches middle between (rest value) outcome) : Reaches talk current (first >>= rest) outcome := by
  intro vars stands
  obtain ⟨next,ran,met⟩ := leads vars stands
  have same : iteration (first >>= rest) vars = iteration (rest value) next := by
    simp only [iteration,EStateM.run_bind,ran]
  rw [same]
  exact reaches next met

theorem Reaches.get {rest : Vars → Effect (Option AgentResult)}
    (reaches : ∀ vars, Stands vars talk current → Reaches talk current (rest vars) outcome) :
    Reaches talk current (MonadState.get >>= rest) outcome :=
  fun vars stands => reaches vars stands vars stands

end Reaching

theorem receive_reaches (loop : AgentLoop) (request : Nat) (response : CompletionResponse) (talk : Talk) :
    Reaches talk .awaitingLLM (receive loop request response)
      (hear loop request ⟨response.message,response.usage⟩ talk) := by
  apply (noteUsage_leads _ _ _).bind_reaches
  apply Reaches.get
  rintro vars ⟨talked,-⟩
  have usage : vars.loopState.usage = (talk.spend response.usage).loopState.usage := by rw [← talked]; rfl
  rw [usage]
  by_cases spent : loop.config.spent (talk.spend response.usage).loopState.usage = true
  · rw [if_pos spent,hear_spent loop request ⟨response.message,response.usage⟩ talk spent]
    apply (append_leads _ _ _).bind_reaches
    exact Leads.returns ((finishWith_leads _ _ _ _ _).bind (Leads.pure _ _ _))
  · rw [if_neg spent]
    apply (publish_leads _ _ _).bind_reaches
    apply (append_leads _ _ _).bind_reaches
    apply (noteHistoryLen_leads _ _).bind_reaches
    dsimp only
    by_cases calls : response.message.toolCalls.getD [] ≠ [] ∧ loop.config.toolUseEnabled = true
    · rw [if_pos ((calls_test _ _).mpr calls),
        hear_calls loop request ⟨response.message,response.usage⟩ talk spent calls,← answered_measure]
      apply Leads.goes_on
      cases tools : loop.tools with
      | none => exact (refusal_leads loop request _ _ tools _ (fun _ _ _ => append_leads _ _ _)).bind (Leads.pure _ _ _)
      | some registry =>
        exact (tools_lead loop registry request _ _ tools _ (appendResult_leads loop _)).bind (Leads.pure _ _ _)
    · rw [if_neg (mt (calls_test _ _).mp calls),hear_stop loop request ⟨response.message,response.usage⟩ talk spent calls]
      exact Leads.returns ((finishWith_leads _ _ _ _ _).bind (Leads.pure _ _ _))

theorem checks_reach (loop : AgentLoop) (ask : Ask) (finish : FinishReason → String → Effect AgentResult)
    (consult : Nat → Effect (Option AgentResult)) (talk : Talk)
    (finishes : ∀ reason label talk,
      Leads talk .running (finish reason label) (talk.early reason) (talk.say [.completed]) .completed)
    (consults : Reaches talk .running (consult talk.requests.length) (asked loop ask talk)) :
    Reaches talk .running (do
      publish (.turnStarted loop.agentId (← get).loopState.turn)
      let vars ← get
      if loop.stopConditions.any (fun shouldStop => shouldStop vars.loopState) then
        return some (← finish .stopCondition "stop_condition")
      else if loop.config.maxTurns ≤ vars.loopState.turn then
        return some (← finish .maxTurns "max_turns")
      else if loop.config.spent vars.loopState.usage then
        return some (← finish .tokenBudget "token_budget")
      else
        consult vars.requests.length) (exchange loop ask talk) := by
  have ended : ∀ reason label,
      Reaches talk .running (do return some (← finish reason label)) (.inr (.ok (talk.early reason),talk.say [.completed])) :=
    fun reason label => Leads.returns ((finishes reason label talk).bind (Leads.pure _ _ _))
  apply Reaches.get
  intro vars _
  apply (publish_leads _ _ _).bind_reaches
  apply Reaches.get
  rintro vars ⟨rfl,-⟩
  have state : (talkOf vars).loopState = vars.loopState := rfl
  rw [exchange,stopReason,state]
  split
  · exact ended _ _
  · split
    · exact ended _ _
    · split
      · exact ended _ _
      · exact consults

theorem askComplete_leads (loop : AgentLoop) (talk : Talk) (response : CompletionResponse)
    (given : withRetry (fun attempt => loop.provider.complete talk.requests.length attempt talk.history loop.options) {} =
      .ok response) :
    Leads talk .running (Run.askComplete loop) response ((talk.request loop.options).say [.awaitingLLM])
      .awaitingLLM := by
  apply Leads.get
  rintro vars ⟨rfl,-⟩
  apply (publish_leads _ _ _).bind
  apply (transition_leads _ .running .llmRequestSent .awaitingLLM rfl).bind
  apply (noteRequest_leads ((talkOf vars).say [.awaitingLLM]) _ _).bind
  have answer : withRetry (fun attempt => loop.provider.complete vars.requests.length attempt vars.history loop.options) {} =
      .ok response := given
  rw [answer]
  exact Leads.pure _ _ _

theorem askComplete_fails (loop : AgentLoop) (talk : Talk) (error : ProviderError)
    (given : withRetry (fun attempt => loop.provider.complete talk.requests.length attempt talk.history loop.options) {} =
      .error error) :
    Fails talk .running (Run.askComplete loop) (.provider error.display)
      (((talk.request loop.options).say [.awaitingLLM]).say [.error]) .error := by
  apply Fails.get
  rintro vars ⟨rfl,-⟩
  apply (publish_leads _ _ _).bind_fails
  apply (transition_leads _ .running .llmRequestSent .awaitingLLM rfl).bind_fails
  apply (noteRequest_leads ((talkOf vars).say [.awaitingLLM]) _ _).bind_fails
  have answer : withRetry (fun attempt => loop.provider.complete vars.requests.length attempt vars.history loop.options) {} =
      .error error := given
  rw [answer]
  exact (transition_leads _ .awaitingLLM .error .error rfl).bind_fails (Fails.throw _ _ _)

theorem run_turn_reaches (loop : AgentLoop) (talk : Talk) :
    Reaches talk .running (Run.turn loop) (exchange loop (completeAsk loop) talk) := by
  refine checks_reach loop (completeAsk loop) _ (fun request => do receive loop request (← Run.askComplete loop)) talk
    (finishEarly_leads loop) ?_
  unfold asked completeAsk
  cases given : withRetry (fun attempt => loop.provider.complete talk.requests.length attempt talk.history loop.options) {} with
  | ok response => exact (askComplete_leads loop talk response given).bind_reaches (receive_reaches loop _ response _)
  | error error => exact (askComplete_fails loop talk error given).bind.returns

/-! The steps of `run_streaming`. -/

theorem stream_finishEarly_leads (loop : AgentLoop) (reason : FinishReason) (label : String) (talk : Talk) :
    Leads talk .running (Streaming.finishEarly loop reason label) (talk.early reason) (talk.say [.completed])
      .completed := by
  apply (transition_leads talk .running .stopConditionMet .completed rfl).bind
  apply Leads.get
  rintro vars ⟨talked,-⟩
  rw [earlyResult_of talked]
  exact (publish_leads _ _ _).bind ((send_leads _ _ _).bind (Leads.pure _ _ _))

theorem sends_lead (talk : Talk) (current : AgentState) (chunks : List StreamChunk) :
    Leads talk current (forM chunks Streaming.send) () talk current :=
  forM_leads_same talk current Streaming.send (fun chunk talk => send_leads talk current chunk) chunks

theorem drain_leads (items : List (Except ProviderError Delta)) (start final : Streaming.Assembly) (talk : Talk)
    (current : AgentState) (given : assemble items start = .ok final) :
    Leads talk current (Streaming.drain items start) final talk current := by
  induction items generalizing start with
  | nil =>
    obtain rfl : (Streaming.flush start).1 = final := by simpa [assemble] using given
    exact (sends_lead _ _ _).bind (Leads.pure _ _ _)
  | cons item rest ih =>
    cases item with
    | error error => simp [assemble] at given
    | ok delta => exact (sends_lead _ _ _).bind (ih _ given)

theorem drain_fails (items : List (Except ProviderError Delta)) (start : Streaming.Assembly) (error : ProviderError)
    (talk : Talk) (given : assemble items start = .error error) :
    Fails talk .awaitingLLM (Streaming.drain items start) (.provider error.display) (talk.say [.error]) .error := by
  induction items generalizing start with
  | nil => simp [assemble] at given
  | cons item rest ih =>
    cases item with
    | error first =>
      obtain rfl : first = error := by simpa [assemble] using given
      apply (transition_leads _ .awaitingLLM .error .error rfl).bind_fails
      exact (send_leads _ _ _).bind_fails (Fails.throw _ _ _)
    | ok delta => exact (sends_lead _ _ _).bind_fails (ih _ given)

theorem stream_appendResult_leads (loop : AgentLoop) (calls : List ToolCall) (result : String × String) (talk : Talk)
    (current : AgentState) :
    Leads talk current (Streaming.appendResult loop calls result) () (talk.append [.toolResult result.1 result.2])
      current := by
  apply (send_leads _ _ _).bind
  cases calls.find? (fun call => call.id = result.1) with
  | none => exact (Leads.pure _ _ _).bind (append_leads _ _ _)
  | some call => exact (publish_leads _ _ _).bind (append_leads _ _ _)

theorem stream_refuse_leads (call : ToolCall) (talk : Talk) (current : AgentState) : Leads talk current
    (do Streaming.send (.toolError call.id "no_tool_registry"); append (.toolResult call.id noRegistryJson)) ()
    (talk.append [.toolResult call.id noRegistryJson]) current :=
  (send_leads _ _ _).bind (append_leads _ _ _)

theorem stream_receive_reaches (loop : AgentLoop) (request : Nat) (assembly : Streaming.Assembly) (talk : Talk) :
    Reaches talk .awaitingLLM (Streaming.receive loop request assembly)
      (hear loop request (replyOf assembly) talk) := by
  apply (noteUsage_leads _ _ _).bind_reaches
  apply Reaches.get
  rintro vars ⟨talked,-⟩
  change talkOf vars = talk.spend (replyOf assembly).usage at talked
  have usage : vars.loopState.usage = (talk.spend (replyOf assembly).usage).loopState.usage := by rw [← talked]; rfl
  have result : ∀ reason,
      {replyResult reason (Streaming.assistantMessage assembly) vars with content := assembly.content} =
        ((talk.spend (replyOf assembly).usage).append [(replyOf assembly).message]).result reason
          (replyOf assembly).message := by
    intro reason
    rw [← replyOf_content,← talked]
    rfl
  simp only [result]
  rw [usage]
  by_cases spent : loop.config.spent (talk.spend (replyOf assembly).usage).loopState.usage = true
  · rw [if_pos spent,hear_spent loop request (replyOf assembly) talk spent]
    apply (append_leads _ _ _).bind_reaches
    apply (transition_leads _ .awaitingLLM .llmResponseReceived .running rfl).bind_reaches
    apply (transition_leads _ .running .stopConditionMet .completed rfl).bind_reaches
    apply (publish_leads _ _ _).bind_reaches
    apply (send_leads _ _ _).bind_reaches
    refine Leads.returns (Leads.pure_of ?_)
    simp [Talk.say,Talk.append,replyOf]
  · rw [if_neg spent]
    apply (publish_leads _ _ _).bind_reaches
    apply (append_leads _ _ _).bind_reaches
    apply (noteHistoryLen_leads _ _).bind_reaches
    rw [← replyOf_calls]
    by_cases calls : (replyOf assembly).calls ≠ [] ∧ loop.config.toolUseEnabled = true
    · rw [if_pos ((calls_test _ _).mpr calls),hear_calls loop request (replyOf assembly) talk spent calls,← answered_measure]
      apply Leads.goes_on
      cases tools : loop.tools with
      | none =>
        exact (refusal_leads loop request _ _ tools _ stream_refuse_leads).bind (Leads.pure _ _ _)
      | some registry =>
        exact (tools_lead loop registry request _ _ tools _ (stream_appendResult_leads loop _)).bind (Leads.pure _ _ _)
    · rw [if_neg (mt (calls_test _ _).mp calls),hear_stop loop request (replyOf assembly) talk spent calls]
      apply (transition_leads _ .awaitingLLM .llmResponseReceived .running rfl).bind_reaches
      apply (transition_leads _ .running .stopConditionMet .completed rfl).bind_reaches
      apply (send_leads _ _ _).bind_reaches
      apply (send_leads _ _ _).bind_reaches
      apply (send_leads _ _ _).bind_reaches
      apply (publish_leads _ _ _).bind_reaches
      refine Leads.returns (Leads.pure_of ?_)
      simp [Talk.say,Talk.append,Talk.measure,replyOf]

theorem askStream_items (loop : AgentLoop) (talk : Talk) (items : List (Except ProviderError Delta))
    (assembly : Streaming.Assembly)
    (opened : loop.provider.completeStream talk.requests.length talk.history loop.options = .ok items)
    (given : assemble items .empty = .ok assembly) :
    Leads talk .running (Streaming.askStream loop) assembly ((talk.request loop.options).say [.awaitingLLM])
      .awaitingLLM := by
  apply Leads.get
  rintro vars ⟨rfl,-⟩
  apply (publish_leads _ _ _).bind
  apply (transition_leads _ .running .llmRequestSent .awaitingLLM rfl).bind
  apply (noteRequest_leads ((talkOf vars).say [.awaitingLLM]) _ _).bind
  have answer : loop.provider.completeStream vars.requests.length vars.history loop.options = .ok items := opened
  rw [answer]
  exact drain_leads items .empty assembly _ _ given

theorem askStream_fails (loop : AgentLoop) (talk : Talk) (error : ProviderError)
    (given : streamAsk loop talk.requests.length talk.history = .error error) :
    Fails talk .running (Streaming.askStream loop) (.provider error.display)
      (((talk.request loop.options).say [.awaitingLLM]).say [.error]) .error := by
  apply Fails.get
  rintro vars ⟨rfl,-⟩
  apply (publish_leads _ _ _).bind_fails
  apply (transition_leads _ .running .llmRequestSent .awaitingLLM rfl).bind_fails
  apply (noteRequest_leads ((talkOf vars).say [.awaitingLLM]) _ _).bind_fails
  change streamAsk loop vars.requests.length vars.history = .error error at given
  unfold streamAsk at given
  cases opened : loop.provider.completeStream vars.requests.length vars.history loop.options with
  | error refused =>
    obtain rfl : refused = error := by simpa [opened] using given
    apply (transition_leads _ .awaitingLLM .error .error rfl).bind_fails
    exact (send_leads _ _ _).bind_fails (Fails.throw _ _ _)
  | ok items =>
    cases broken : assemble items .empty with
    | ok assembly => simp [opened,broken,Except.map] at given
    | error first =>
      obtain rfl : first = error := by simpa [opened,broken,Except.map] using given
      exact drain_fails items .empty first _ broken

theorem stream_turn_reaches (loop : AgentLoop) (talk : Talk) :
    Reaches talk .running (Streaming.turn loop) (exchange loop (streamAsk loop) talk) := by
  refine checks_reach loop (streamAsk loop) _
    (fun request => do Streaming.receive loop request (← Streaming.askStream loop)) talk
    (stream_finishEarly_leads loop) ?_
  unfold asked
  cases given : streamAsk loop talk.requests.length talk.history with
  | error error => exact (askStream_fails loop talk error given).bind.returns
  | ok reply =>
    obtain ⟨items,assembly,opened,assembled,rfl⟩ := streamAsk_ok loop _ _ reply given
    exact (askStream_items loop talk items assembly opened assembled).bind_reaches
      (stream_receive_reaches loop _ assembly _)

/-! Whole runs. -/

theorem begin_stands (message : String) (vars : Vars) :
    ∃ started, begin message vars = .ok () started ∧ Stands started (start message (talkOf vars)) .running :=
  ⟨_,rfl,rfl,rfl⟩

theorem runWith_refines (loop : AgentLoop) (body : Effect (Option AgentResult)) (ask : Ask)
    (turns : ∀ talk, Reaches talk .running body (exchange loop ask talk)) (message : String) (vars : Vars) :
    Option.Rel Ends (runWith loop body message vars) (converse loop ask message (talkOf vars)) := by
  obtain ⟨started,began,stands⟩ := begin_stands message vars
  rw [runWith,began]
  exact iterate_related (iteration body) (exchange loop ask) (fun vars talk => Stands vars talk .running) Ends
    (fun _ => True) (fun vars talk stands _ => turns talk vars stands) _ started _ stands
    (throughout_of_all _ _ (fun _ => trivial) _ _)

theorem begin_starts (message : String) (vars started : Vars) (began : begin message vars = .ok () started) :
    Stands started (start message (talkOf vars)) .running := by
  obtain ⟨first,first_began,stands⟩ := begin_stands message vars
  rw [first_began] at began
  cases began
  exact stands

theorem rel_some {outcome : Option Outcome} {ending : Ending} (related : Option.Rel Ends outcome (some ending)) :
    ∃ ended, outcome = some ended ∧ Ends ended ending := by
  cases related with
  | some ends => exact ⟨_,rfl,ends⟩

/-- Such a loop returns: it never runs out of turns. -/
theorem runWith_ends (loop : AgentLoop) (body : Effect (Option AgentResult)) (ask : Ask)
    (turns : ∀ talk, Reaches talk .running body (exchange loop ask talk)) (message : String) (vars : Vars) :
    ∃ outcome, runWith loop body message vars = some outcome := by
  obtain ⟨ending,ends⟩ := converse_ends loop ask message (talkOf vars)
  have refines := runWith_refines loop body ask turns message vars
  rw [ends] at refines
  obtain ⟨outcome,ran,-⟩ := rel_some refines
  exact ⟨outcome,ran⟩

theorem run_refines (loop : AgentLoop) (message : String) (vars : Vars) :
    Option.Rel Ends (run loop message vars) (converse loop (completeAsk loop) message (talkOf vars)) :=
  runWith_refines loop _ _ (run_turn_reaches loop) message vars

theorem runStreaming_refines (loop : AgentLoop) (message : String) (vars : Vars) :
    Option.Rel Ends (Streaming.runStreaming loop message vars)
      (converse loop (streamAsk loop) message (talkOf vars)) :=
  runWith_refines loop _ _ (stream_turn_reaches loop) message vars

end ClawKernel.Loop.Refinement
