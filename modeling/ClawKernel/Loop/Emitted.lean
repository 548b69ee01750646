import ClawKernel.Loop.Traces

/-! The chunks a streaming run sends, turn by turn. They are read off the conversation: what
the provider streams in each turn, and how the turn ends.
-/
namespace ClawKernel.Loop.Emitted
open Lib.Json Lib.Effects Lib.Loops Loop.States Loop.Types Loop.Run Loop.Conversation Loop.Refinement
open Loop.Traces
open Loop.Streaming (Assembly flush takeDelta send drain)
open Provider.Types hiding FinishReason

def drained : List (Except ProviderError Delta) → Assembly → List StreamChunk
  | [], assembly => (flush assembly).2
  | .error error :: _, _ => [.error error.display]
  | .ok delta :: rest, assembly => (takeDelta delta assembly).2 ++ drained rest (takeDelta delta assembly).1

def completion (loop : AgentLoop) (result : String × String) : StreamChunk :=
  .toolComplete result.1 (match loop.fromStr result.2 with | .ok value => value | .error _ => .string result.2)

def refusal (call : ToolCall) : StreamChunk := .toolError call.id "no_tool_registry"

/-- Chunks that answer the calls of a turn. -/
def callChunks (loop : AgentLoop) (request : Nat) (calls : List ToolCall) : List StreamChunk :=
  match loop.tools with
  | some registry =>
    ((calls.take loop.config.maxToolCallsPerTurn).mapIdx (executeCall loop registry request)).map (completion loop)
  | none => calls.map refusal

/-- The end of a turn: its reply spends the budget, has calls to answer, or ends the run. -/
def closingChunks (loop : AgentLoop) (request : Nat) (reply : Reply) (talk : Talk) : List StreamChunk :=
  let usage := (talk.spend reply.usage).loopState.usage
  if loop.config.spent usage then [.finish .tokenBudget]
  else if reply.calls ≠ [] ∧ loop.config.toolUseEnabled then callChunks loop request reply.calls
  else [.text "" true,.usageUpdate usage,.finish .stop]

def streamed (loop : AgentLoop) (talk : Talk) (items : List (Except ProviderError Delta)) : List StreamChunk :=
  drained items .empty ++
    match assemble items .empty with
    | .error _ => []
    | .ok assembly => closingChunks loop talk.requests.length (replyOf assembly) talk

def emitted (loop : AgentLoop) (talk : Talk) : List StreamChunk :=
  match stopReason loop talk.loopState with
  | some reason => [.finish reason]
  | none =>
    match loop.provider.completeStream talk.requests.length talk.history loop.options with
    | .error error => [.error error.display]
    | .ok items => streamed loop talk items

def emittedFrom (loop : AgentLoop) : Nat → Talk → List (List StreamChunk)
  | 0, _ => []
  | fuel+1, talk =>
    emitted loop talk :: (exchange loop (streamAsk loop) talk).elim (emittedFrom loop fuel) (fun _ => [])

/-- From wherever the conversation stands, the effect sends these chunks. -/
def Emits {α : Type} (talk : Talk) (current : AgentState) (effect : Effect α) (chunks : List StreamChunk) : Prop :=
  ∀ vars, Stands vars talk current → (leaves (effect.run vars)).chunks = vars.chunks ++ chunks

section Rules
variable {α β : Type} {effect : Effect α} {rest : α → Effect β} {value : α} {error : AgentError}
  {talk middle : Talk} {current between : AgentState} {chunks more : List StreamChunk}

theorem Emits.bind (leads : Leads talk current effect value middle between) (first : Emits talk current effect chunks)
    (second : Emits middle between (rest value) more) : Emits talk current (effect >>= rest) (chunks ++ more) :=
  Adds.bind leads first second

theorem Emits.bind_fails (fails : Fails talk current effect error middle between)
    (first : Emits talk current effect chunks) : Emits talk current (effect >>= rest) chunks :=
  Adds.bind_fails fails first

theorem Emits.get {rest : Vars → Effect β}
    (second : ∀ vars, Stands vars talk current → Emits talk current (rest vars) chunks) :
    Emits talk current (MonadState.get >>= rest) chunks := by
  intro vars stands
  exact second vars stands vars stands

/-- Effects that send nothing. -/
theorem Emits.silent (quiet : ∀ vars, (leaves (effect.run vars)).chunks = vars.chunks) : Emits talk current effect [] :=
  Quiet.adds quiet

theorem Emits.then (leads : Leads talk current effect value middle between)
    (quiet : ∀ vars, (leaves (effect.run vars)).chunks = vars.chunks) (second : Emits middle between (rest value) more) :
    Emits talk current (effect >>= rest) more :=
  Emits.bind leads (Emits.silent quiet) second

/-- What follows sends nothing. -/
theorem Emits.only (leads : Leads talk current effect value middle between) (first : Emits talk current effect chunks)
    (quiet : Emits middle between (rest value) []) : Emits talk current (effect >>= rest) chunks := by
  have both := Emits.bind leads first quiet
  rwa [List.append_nil] at both

theorem send_emits (chunk : StreamChunk) : Emits talk current (send chunk) [chunk] := fun _ _ => rfl

theorem forM_emits (talk : Talk) (current : AgentState) (effect : α → Effect Unit) (messages : α → List Message)
    (each : α → List StreamChunk)
    (leads : ∀ item talk, Leads talk current (effect item) () (talk.append (messages item)) current)
    (emits : ∀ item talk, Emits talk current (effect item) (each item)) (items : List α) :
    Emits talk current (forM items effect) (items.flatMap each) :=
  Adds.forM talk effect messages each leads items (fun item _ talk => emits item talk)

end Rules

theorem transition_quiet (event : StateEvent) (vars : Vars) :
    (leaves ((transition event).run vars)).chunks = vars.chunks :=
  Quiet.transition (fun _ _ _ => rfl) event vars

theorem publish_quiet (event : Published) (vars : Vars) : (leaves ((publish event).run vars)).chunks = vars.chunks := rfl

theorem append_quiet (message : Message) (vars : Vars) : (leaves ((append message).run vars)).chunks = vars.chunks := rfl

theorem emits_send (talk : Talk) (current : AgentState) (chunks : List StreamChunk) :
    Emits talk current (forM chunks send) chunks := by
  have all := forM_emits talk current send (fun _ => []) (fun chunk => [chunk])
    (fun chunk talk => by simpa [Talk.append] using send_leads talk current chunk) (fun chunk _ => send_emits chunk) chunks
  simpa using all

/-! The steps of `run_streaming`. -/

theorem drain_emits (items : List (Except ProviderError Delta)) (start : Assembly) (talk : Talk) :
    Emits talk .awaitingLLM (drain items start) (drained items start) := by
  induction items generalizing start with
  | nil => exact Emits.only (sends_lead _ _ _) (emits_send _ _ _) (Emits.silent (fun _ => rfl))
  | cons item rest ih =>
    cases item with
    | error error =>
      apply Emits.then (transition_leads _ .awaitingLLM .error .error rfl) (transition_quiet _)
      exact Emits.bind (send_leads _ _ _) (send_emits _) (Emits.silent (fun _ => rfl))
    | ok delta => exact Emits.bind (sends_lead _ _ _) (emits_send _ _ _) (ih _)

theorem finishEarly_emits (loop : AgentLoop) (reason : FinishReason) (label : String) (talk : Talk) :
    Emits talk .running (Streaming.finishEarly loop reason label) [.finish reason] := by
  apply Emits.then (transition_leads talk .running .stopConditionMet .completed rfl) (transition_quiet _)
  apply Emits.get
  intro vars _
  apply Emits.then (publish_leads _ _ _) (publish_quiet _)
  exact Emits.bind (send_leads _ _ _) (send_emits _) (Emits.silent (fun _ => rfl))

theorem appendResult_emits (loop : AgentLoop) (calls : List ToolCall) (result : String × String) (talk : Talk)
    (current : AgentState) : Emits talk current (Streaming.appendResult loop calls result) [completion loop result] := by
  apply Emits.only (send_leads _ _ _) (send_emits _)
  cases calls.find? (fun call => call.id = result.1) with
  | none => exact Emits.silent (fun _ => rfl)
  | some call => exact Emits.silent (fun _ => rfl)

theorem runTools_emits (loop : AgentLoop) (registry : ToolRegistry) (request : Nat) (calls : List ToolCall)
    (talk : Talk) :
    Emits talk .awaitingLLM (Streaming.runTools loop registry request calls)
      (((calls.take loop.config.maxToolCallsPerTurn).mapIdx (executeCall loop registry request)).map (completion loop)) := by
  apply Emits.then (noteToolCalls_leads _ _ _) (fun _ => rfl)
  apply Emits.then (forM_leads_same _ _ _ (fun _ _ => publish_leads _ _ _) _) (Quiet.forM (fun _ => publish_quiet _) _)
  apply Emits.then (transition_leads _ .awaitingLLM .toolsRequired .toolExecuting rfl) (transition_quiet _)
  simp only [executeToolsParallel]
  have results := forM_emits ((talk.record calls).say [.toolExecuting]) .toolExecuting
    (Streaming.appendResult loop calls) _ _ (fun result talk => stream_appendResult_leads loop calls result talk _)
    (fun result talk => appendResult_emits loop calls result talk _)
    ((calls.take loop.config.maxToolCallsPerTurn).mapIdx (executeCall loop registry request))
  rw [← List.map_eq_flatMap] at results
  apply Emits.only (forM_leads _ _ _ (fun result talk => stream_appendResult_leads loop calls result talk _) _ _) results
  apply Emits.then (noteHistoryLen_leads _ _) (fun _ => rfl)
  apply Emits.then (transition_leads _ .toolExecuting .toolsCompleted .running rfl) (transition_quiet _)
  exact Emits.silent (fun _ => rfl)

theorem refuseTools_emits (calls : List ToolCall) (talk : Talk) :
    Emits talk .awaitingLLM (Streaming.refuseTools calls) (calls.map refusal) := by
  have each (call : ToolCall) (talk : Talk) (current : AgentState) : Emits talk current
      (do send (.toolError call.id "no_tool_registry"); append (.toolResult call.id noRegistryJson)) [refusal call] :=
    Emits.bind (send_leads _ _ _) (send_emits _) (Emits.silent (append_quiet _))
  apply Emits.then (transition_leads _ .awaitingLLM .toolsRequired .toolExecuting rfl) (transition_quiet _)
  have all := forM_emits (talk.say [.toolExecuting]) .toolExecuting _ _ _
    (fun call talk => stream_refuse_leads call talk _) (fun call talk => each call talk _) calls
  rw [← List.map_eq_flatMap] at all
  apply Emits.only (forM_leads _ _ _ (fun call talk => stream_refuse_leads call talk _) _ _) all
  apply Emits.then (noteHistoryLen_leads _ _) (fun _ => rfl)
  apply Emits.then (transition_leads _ .toolExecuting .toolsCompleted .running rfl) (transition_quiet _)
  exact Emits.silent (fun _ => rfl)

theorem receive_emits (loop : AgentLoop) (request : Nat) (assembly : Assembly) (talk : Talk) :
    Emits talk .awaitingLLM (Streaming.receive loop request assembly)
      (closingChunks loop request (replyOf assembly) talk) := by
  apply Emits.then (noteUsage_leads _ _ _) (fun _ => rfl)
  apply Emits.get
  intro vars stands
  have talked : talkOf vars = talk.spend (replyOf assembly).usage := stands.1
  have usage : vars.loopState.usage = (talk.spend (replyOf assembly).usage).loopState.usage := by
    rw [← talked]
    rfl
  rw [closingChunks,usage]
  by_cases spent : loop.config.spent (talk.spend (replyOf assembly).usage).loopState.usage = true
  · rw [if_pos spent,if_pos spent]
    apply Emits.then (append_leads _ _ _) (append_quiet _)
    apply Emits.then (transition_leads _ .awaitingLLM .llmResponseReceived .running rfl) (transition_quiet _)
    apply Emits.then (transition_leads _ .running .stopConditionMet .completed rfl) (transition_quiet _)
    apply Emits.then (publish_leads _ _ _) (publish_quiet _)
    exact Emits.bind (send_leads _ _ _) (send_emits _) (Emits.silent (fun _ => rfl))
  · rw [if_neg spent,if_neg spent]
    apply Emits.then (publish_leads _ _ _) (publish_quiet _)
    apply Emits.then (append_leads _ _ _) (append_quiet _)
    apply Emits.then (noteHistoryLen_leads _ _) (fun _ => rfl)
    rw [← replyOf_calls]
    by_cases calls : (replyOf assembly).calls ≠ [] ∧ loop.config.toolUseEnabled = true
    · rw [if_pos ((calls_test _ _).mpr calls),if_pos calls,callChunks]
      cases tools : loop.tools with
      | none =>
        exact Emits.only (refusal_leads loop request _ _ tools _ stream_refuse_leads) (refuseTools_emits _ _)
          (Emits.silent (fun _ => rfl))
      | some registry =>
        exact Emits.only (tools_lead loop registry request _ _ tools _ (stream_appendResult_leads loop _))
          (runTools_emits loop registry request _ _) (Emits.silent (fun _ => rfl))
    · rw [if_neg (mt (calls_test _ _).mp calls),if_neg calls]
      apply Emits.then (transition_leads _ .awaitingLLM .llmResponseReceived .running rfl) (transition_quiet _)
      apply Emits.then (transition_leads _ .running .stopConditionMet .completed rfl) (transition_quiet _)
      change Emits _ _ _ ([_] ++ ([_] ++ ([_] ++ [])))
      apply Emits.bind (send_leads _ _ _) (send_emits _)
      apply Emits.bind (send_leads _ _ _) (send_emits _)
      apply Emits.bind (send_leads _ _ _) (send_emits _)
      exact Emits.silent (fun _ => rfl)

theorem askStream_emits (loop : AgentLoop) (talk : Talk) :
    Emits talk .running (Streaming.askStream loop)
      (match loop.provider.completeStream talk.requests.length talk.history loop.options with
      | .error error => [.error error.display]
      | .ok items => drained items .empty) := by
  apply Emits.get
  rintro vars ⟨rfl,-⟩
  apply Emits.then (publish_leads _ _ _) (publish_quiet _)
  apply Emits.then (transition_leads _ .running .llmRequestSent .awaitingLLM rfl) (transition_quiet _)
  apply Emits.then (noteRequest_leads ((talkOf vars).say [.awaitingLLM]) _ _) (fun _ => rfl)
  change Emits _ _ (match loop.provider.completeStream vars.requests.length vars.history loop.options with
    | .error error => _
    | .ok items => _) (match loop.provider.completeStream vars.requests.length vars.history loop.options with
    | .error error => _
    | .ok items => drained items .empty)
  cases loop.provider.completeStream vars.requests.length vars.history loop.options with
  | error error =>
    apply Emits.then (transition_leads _ .awaitingLLM .error .error rfl) (transition_quiet _)
    exact Emits.only (send_leads _ _ _) (send_emits _) (Emits.silent (fun _ => rfl))
  | ok items => exact drain_emits items .empty _

theorem exchange_emits (loop : AgentLoop) (talk : Talk) :
    Emits talk .running (do Streaming.receive loop talk.requests.length (← Streaming.askStream loop))
      (match loop.provider.completeStream talk.requests.length talk.history loop.options with
      | .error error => [.error error.display]
      | .ok items => streamed loop talk items) := by
  have asks := askStream_emits loop talk
  cases opened : loop.provider.completeStream talk.requests.length talk.history loop.options with
  | error refused =>
    rw [opened] at asks
    have given : streamAsk loop talk.requests.length talk.history = .error refused := by rw [streamAsk,opened]
    exact Emits.bind_fails (askStream_fails loop talk refused given) asks
  | ok items =>
    rw [opened] at asks
    have given := streamAsk_opened loop _ _ items opened
    dsimp only at asks ⊢
    unfold streamed
    cases assembled : assemble items .empty with
    | error first =>
      rw [assembled] at given
      rw [List.append_nil]
      exact Emits.bind_fails (askStream_fails loop talk first given) asks
    | ok assembly =>
      exact Emits.bind (askStream_items loop talk items assembly opened assembled) asks
        (receive_emits loop _ assembly _)

theorem turn_emits (loop : AgentLoop) (talk : Talk) :
    Emits talk .running (Streaming.turn loop) (emitted loop talk) := by
  have ended (reason : FinishReason) (label : String) :
      Emits talk .running (do return some (← Streaming.finishEarly loop reason label)) [.finish reason] :=
    Emits.only (stream_finishEarly_leads loop reason label talk) (finishEarly_emits loop reason label talk)
      (Emits.silent (fun _ => rfl))
  apply Emits.get
  intro _ _
  apply Emits.then (publish_leads _ _ _) (publish_quiet _)
  apply Emits.get
  rintro vars ⟨rfl,-⟩
  have state : (talkOf vars).loopState = vars.loopState := rfl
  rw [emitted,stopReason,state]
  split
  · exact ended _ _
  · split
    · exact ended _ _
    · split
      · exact ended _ _
      · exact exchange_emits loop (talkOf vars)

/-! Whole runs. -/

/-- The chunks that each turn of a loop adds. -/
def sentByTurn (body : Effect (Option AgentResult)) : Nat → Vars → List (List StreamChunk)
  | 0, _ => []
  | fuel+1, vars =>
    (leaves (body.run vars)).chunks.drop vars.chunks.length ::
      (iteration body vars).elim (sentByTurn body fuel) (fun _ => [])

theorem iterate_emits (loop : AgentLoop) (fuel : Nat) (vars : Vars) (talk : Talk) (stands : Stands vars talk .running) :
    sentByTurn (Streaming.turn loop) fuel vars = emittedFrom loop fuel talk ∧
      ∀ outcome, iterate (iteration (Streaming.turn loop)) fuel vars = some outcome →
        outcome.2.chunks = vars.chunks ++ (emittedFrom loop fuel talk).flatten := by
  induction fuel generalizing vars talk with
  | zero =>
    refine ⟨rfl,fun outcome ended => ?_⟩
    cases ended
  | succ fuel ih =>
    have reached := stream_turn_reaches loop talk vars stands
    have sent := turn_emits loop talk vars stands
    have left := iteration_leaves (Streaming.turn loop) vars
    rw [sentByTurn,emittedFrom,iterate,sent,List.drop_left,List.flatten_cons,← List.append_assoc,← sent]
    cases went : iteration (Streaming.turn loop) vars with
    | inl next =>
      rw [went] at reached left
      cases talked : exchange loop (streamAsk loop) talk with
      | inr ending => simp [talked] at reached
      | inl after =>
        rw [talked,Sum.liftRel_inl_inl] at reached
        obtain ⟨turns,chunks⟩ := ih next after reached
        refine ⟨congrArg (List.cons _) turns,fun outcome ended => ?_⟩
        rw [← left]
        exact chunks outcome ended
    | inr outcome =>
      rw [went] at reached left
      cases talked : exchange loop (streamAsk loop) talk with
      | inl after => simp [talked] at reached
      | inr ending =>
        refine ⟨rfl,fun ended same => ?_⟩
        cases same
        rw [← left]
        exact (List.append_nil _).symm

end ClawKernel.Loop.Emitted
