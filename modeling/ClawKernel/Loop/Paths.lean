import ClawKernel.Loop.Traces
import Mathlib.Data.List.Chain

/-! The states a run broadcasts. A conversation says them one after another along the
transition table; the shared state is always the last one said.
-/
namespace ClawKernel.Loop.Paths
open Lib.Effects Lib.Loops Loop.States Loop.Types Loop.Run Loop.Conversation Loop.Refinement Loop.Pairing Loop.Traces
open Provider.Types hiding FinishReason

/-- The table has an entry from one state to the other. -/
def Allowed (source target : AgentState) : Prop := ∃ event, buildTransitionTable.lookup (source,event) = some target

def finalState : Except AgentError AgentResult → AgentState
  | .ok _ => .completed
  | .error _ => .error

structure PathTo (final : AgentState) (states : List AgentState) : Prop where
  allowed : states.IsChain Allowed
  first : states.head? = some .running
  last : states.getLast? = some final

/-- After the states broadcast before the run, a path to the current one. -/
def Follows (old : List AgentState) (current : AgentState) (talk : Talk) : Prop :=
  ∃ states, talk.broadcast = old ++ states ∧ PathTo current states

theorem pathTo_append {current next : AgentState} {states : List AgentState} (path : PathTo current states)
    (allowed : Allowed current next) : PathTo next (states ++ [next]) where
  allowed := by
    refine path.allowed.append (List.isChain_singleton next) ?_
    intro source last target first
    obtain rfl : current = source := by simpa [path.last] using last
    obtain rfl : next = target := by simpa using first
    exact allowed
  first := by simp [path.first]
  last := by simp

theorem follows_say {old : List AgentState} {current next : AgentState} {talk : Talk}
    (follows : Follows old current talk) (event : StateEvent)
    (entry : buildTransitionTable.lookup (current,event) = some next) : Follows old next (talk.say [next]) := by
  obtain ⟨states,said,path⟩ := follows
  exact ⟨states ++ [next],by simp [Talk.say,said],pathTo_append path ⟨event,entry⟩⟩

/-- Two states said at once. -/
theorem follows_say_two {old : List AgentState} {current middle next : AgentState} {talk : Talk}
    (follows : Follows old current talk) (event later : StateEvent)
    (entry : buildTransitionTable.lookup (current,event) = some middle)
    (onward : buildTransitionTable.lookup (middle,later) = some next) :
    Follows old next (talk.say [middle,next]) := by
  have both := follows_say (follows_say follows event entry) later onward
  simpa [Follows,Talk.say] using both

/-- What a run returns, and the conversation it leaves. -/
structure EndsWell (old : List AgentState) (ending : Ending) : Prop where
  follows : Follows old (finalState ending.1) ending.2
  legal : ∀ source event allowed, ending.1 ≠ .error (.invalidStateTransition source event allowed)

theorem endsWell_ok {old : List AgentState} {talk : Talk} (follows : Follows old .completed talk)
    (result : AgentResult) : EndsWell old (.ok result,talk) where
  follows := follows
  legal := by simp

theorem endsWell_provider {old : List AgentState} {talk : Talk} (follows : Follows old .error talk)
    (message : String) : EndsWell old (.error (.provider message),talk) where
  follows := follows
  legal := by simp

theorem hear_follows (loop : AgentLoop) (request : Nat) (reply : Reply) (old : List AgentState) (talk : Talk)
    (follows : Follows old .awaitingLLM talk) :
    (hear loop request reply talk).elim (Follows old .running) (EndsWell old) := by
  have heard : Follows old .awaitingLLM ((talk.spend reply.usage).append [reply.message]) := follows
  by_cases spent : loop.config.spent (talk.spend reply.usage).loopState.usage = true
  · rw [hear_spent loop request reply talk spent]
    exact endsWell_ok (follows_say_two heard .llmResponseReceived .stopConditionMet rfl rfl) _
  · by_cases calls : reply.calls ≠ [] ∧ loop.config.toolUseEnabled = true
    · rw [hear_calls loop request reply talk spent calls]
      have answered : Follows old .awaitingLLM (((((talk.spend reply.usage).append [reply.message]).record
        (recorded loop reply.calls)).append (answers loop request reply.calls)).measure) := heard
      exact follows_say_two answered .toolsRequired .toolsCompleted rfl rfl
    · rw [hear_stop loop request reply talk spent calls]
      have measured : Follows old .awaitingLLM ((talk.spend reply.usage).append [reply.message]).measure := heard
      exact endsWell_ok (follows_say_two measured .llmResponseReceived .stopConditionMet rfl rfl) _

theorem exchange_follows (loop : AgentLoop) (ask : Ask) (old : List AgentState) (talk : Talk)
    (follows : Follows old .running talk) :
    (exchange loop ask talk).elim (Follows old .running) (EndsWell old) := by
  have requested : Follows old .running (talk.request loop.options) := follows
  have waiting := follows_say requested .llmRequestSent rfl
  rcases exchange_cases loop ask talk with ⟨reason,_,ended⟩ | ⟨_,⟨error,_,failed⟩ | ⟨reply,_,heard⟩⟩
  · rw [ended]
    exact endsWell_ok (follows_say follows .stopConditionMet rfl) _
  · rw [failed]
    exact endsWell_provider (follows_say waiting .error rfl) _
  · rw [heard]
    exact hear_follows loop _ reply old _ waiting

/-! The shared state. -/

/-- The shared state is the last one broadcast. -/
def Shown (vars : Vars) : Prop := vars.broadcast.getLast? = some vars.state

theorem transition_shown (event : StateEvent) : Keeps Shown (transition event) :=
  transition_keeps Shown (fun _ _ _ _ => List.getLast?_concat) event

/-- Effects that leave the states alone. -/
theorem quiet_shown {change : Vars → Vars} (state : ∀ vars, (change vars).state = vars.state)
    (broadcast : ∀ vars, (change vars).broadcast = vars.broadcast) : Keeps Shown (modify change : Effect Unit) := by
  intro vars shown
  change (change vars).broadcast.getLast? = some (change vars).state
  rw [state,broadcast]
  exact shown

theorem publish_shown (event : Published) : Keeps Shown (publish event) := quiet_shown (fun _ => rfl) (fun _ => rfl)

theorem append_shown (message : Message) : Keeps Shown (append message) := quiet_shown (fun _ => rfl) (fun _ => rfl)

theorem send_shown (chunk : StreamChunk) : Keeps Shown (Streaming.send chunk) :=
  quiet_shown (fun _ => rfl) (fun _ => rfl)

theorem noteHistoryLen_shown : Keeps Shown noteHistoryLen := quiet_shown (fun _ => rfl) (fun _ => rfl)

theorem noteToolCalls_shown (calls : List ToolCall) : Keeps Shown (noteToolCalls calls) :=
  quiet_shown (fun _ => rfl) (fun _ => rfl)

theorem noteUsage_shown (usage : TokenUsage) : Keeps Shown (noteUsage usage) :=
  quiet_shown (fun _ => rfl) (fun _ => rfl)

theorem noteRequest_shown (messages : List Message) (options : Options) : Keeps Shown (noteRequest messages options) :=
  quiet_shown (fun _ => rfl) (fun _ => rfl)

section Turns

variable (loop : AgentLoop)

theorem finishEarly_shown (reason : FinishReason) (label : String) : Keeps Shown (finishEarly loop reason label) := by
  refine (transition_shown _).bind fun _ => ?_
  apply Keeps.get
  intro vars _
  exact (publish_shown _).bind (fun _ => Keeps.pure _)

theorem finishWith_shown (reason : FinishReason) (label : String) (message : Message) :
    Keeps Shown (finishWith loop reason label message) := by
  refine (transition_shown _).bind fun _ => ?_
  refine (transition_shown _).bind fun _ => ?_
  apply Keeps.get
  intro vars _
  exact (publish_shown _).bind (fun _ => Keeps.pure _)

/-- Both ways of running the tools of a turn. -/
theorem runTools_shown (registry : ToolRegistry) (request : Nat) (calls : List ToolCall)
    (report : String × String → Effect Unit) (reports : ∀ result, Keeps Shown (report result)) :
    Keeps Shown (do
      noteToolCalls calls
      forM calls fun call => publish (.toolCalled loop.agentId call.name call.id)
      let _ ← transition .toolsRequired
      match executeToolsParallel loop registry request calls with
      | .error error =>
        tryCatch (do let _ ← transition .error) (fun _ => pure ())
        throw error
      | .ok results =>
        forM results report
        noteHistoryLen
        let _ ← transition .toolsCompleted) := by
  refine (noteToolCalls_shown calls).bind fun _ => ?_
  refine (Keeps.forM (fun _ => publish_shown _) _).bind fun _ => ?_
  refine (transition_shown _).bind fun _ => ?_
  simp only [executeToolsParallel]
  refine (Keeps.forM reports _).bind fun _ => ?_
  refine noteHistoryLen_shown.bind fun _ => ?_
  exact (transition_shown _).bind (fun _ => Keeps.pure _)

theorem refuseTools_shown (calls : List ToolCall) (refuse : ToolCall → Effect Unit)
    (refuses : ∀ call, Keeps Shown (refuse call)) :
    Keeps Shown (do
      let _ ← transition .toolsRequired
      forM calls refuse
      noteHistoryLen
      let _ ← transition .toolsCompleted) := by
  refine (transition_shown _).bind fun _ => ?_
  refine (Keeps.forM refuses _).bind fun _ => ?_
  refine noteHistoryLen_shown.bind fun _ => ?_
  exact (transition_shown _).bind (fun _ => Keeps.pure _)

theorem appendResult_shown (calls : List ToolCall) (result : String × String) :
    Keeps Shown (appendResult loop calls result) := by
  unfold appendResult
  cases calls.find? (fun call => call.id = result.1) with
  | none => exact append_shown _
  | some call => exact (publish_shown _).bind (fun _ => append_shown _)

theorem askComplete_shown : Keeps Shown (Run.askComplete loop) := by
  apply Keeps.get
  intro vars _
  refine (publish_shown _).bind fun _ => ?_
  refine (transition_shown _).bind fun _ => ?_
  refine (noteRequest_shown _ _).bind fun _ => ?_
  split
  · exact Keeps.pure _
  · exact (transition_shown _).bind (fun _ => Keeps.throw _)

theorem receive_shown (request : Nat) (response : CompletionResponse) : Keeps Shown (receive loop request response) := by
  refine (noteUsage_shown _).bind fun _ => ?_
  apply Keeps.get
  intro vars _
  split
  · refine (append_shown _).bind fun _ => ?_
    exact (finishWith_shown loop _ _ _).bind (fun _ => Keeps.pure _)
  · refine (publish_shown _).bind fun _ => ?_
    refine (append_shown _).bind fun _ => ?_
    refine noteHistoryLen_shown.bind fun _ => ?_
    dsimp only
    split
    · cases loop.tools with
      | none => exact (refuseTools_shown _ _ (fun _ => append_shown _)).bind (fun _ => Keeps.pure _)
      | some registry =>
        exact (runTools_shown loop registry request _ _ (appendResult_shown loop _)).bind (fun _ => Keeps.pure _)
    · exact (finishWith_shown loop _ _ _).bind (fun _ => Keeps.pure _)

/-- The checks at the head of a turn. -/
theorem checks_shown (finish : FinishReason → String → Effect AgentResult)
    (consult : Nat → Effect (Option AgentResult)) (finishes : ∀ reason label, Keeps Shown (finish reason label))
    (consults : ∀ request, Keeps Shown (consult request)) :
    Keeps Shown (do
      publish (.turnStarted loop.agentId (← get).loopState.turn)
      let vars ← get
      if loop.stopConditions.any (fun shouldStop => shouldStop vars.loopState) then
        return some (← finish .stopCondition "stop_condition")
      else if loop.config.maxTurns ≤ vars.loopState.turn then
        return some (← finish .maxTurns "max_turns")
      else if loop.config.spent vars.loopState.usage then
        return some (← finish .tokenBudget "token_budget")
      else
        consult vars.requests.length) := by
  have ended (reason : FinishReason) (label : String) : Keeps Shown (do return some (← finish reason label)) :=
    (finishes reason label).bind (fun _ => Keeps.pure _)
  apply Keeps.get
  intro vars _
  refine (publish_shown _).bind fun _ => ?_
  apply Keeps.get
  intro vars _
  split
  · exact ended _ _
  · split
    · exact ended _ _
    · split
      · exact ended _ _
      · exact consults _

theorem turn_shown : Keeps Shown (Run.turn loop) :=
  checks_shown loop _ (fun request => do receive loop request (← Run.askComplete loop)) (finishEarly_shown loop)
    (fun request => (askComplete_shown loop).bind (receive_shown loop request))

end Turns

section StreamTurns

variable (loop : AgentLoop)

theorem stream_finishEarly_shown (reason : FinishReason) (label : String) :
    Keeps Shown (Streaming.finishEarly loop reason label) := by
  refine (transition_shown _).bind fun _ => ?_
  apply Keeps.get
  intro vars _
  refine (publish_shown _).bind fun _ => ?_
  exact (send_shown _).bind (fun _ => Keeps.pure _)

theorem stream_appendResult_shown (calls : List ToolCall) (result : String × String) :
    Keeps Shown (Streaming.appendResult loop calls result) := by
  refine (send_shown _).bind fun _ => ?_
  cases calls.find? (fun call => call.id = result.1) with
  | none => exact append_shown _
  | some call => exact (publish_shown _).bind (fun _ => append_shown _)

theorem drain_shown (items : List (Except ProviderError Delta)) (start : Streaming.Assembly) :
    Keeps Shown (Streaming.drain items start) := by
  induction items generalizing start with
  | nil => exact (Keeps.forM send_shown _).bind (fun _ => Keeps.pure _)
  | cons item rest ih =>
    cases item with
    | error error =>
      refine (transition_shown _).bind fun _ => ?_
      exact (send_shown _).bind (fun _ => Keeps.throw _)
    | ok delta => exact (Keeps.forM send_shown _).bind (fun _ => ih _)

theorem askStream_shown : Keeps Shown (Streaming.askStream loop) := by
  apply Keeps.get
  intro vars _
  refine (publish_shown _).bind fun _ => ?_
  refine (transition_shown _).bind fun _ => ?_
  refine (noteRequest_shown _ _).bind fun _ => ?_
  split
  · refine (transition_shown _).bind fun _ => ?_
    exact (send_shown _).bind (fun _ => Keeps.throw _)
  · exact drain_shown _ _

theorem stream_receive_shown (request : Nat) (assembly : Streaming.Assembly) :
    Keeps Shown (Streaming.receive loop request assembly) := by
  refine (noteUsage_shown _).bind fun _ => ?_
  apply Keeps.get
  intro vars _
  split
  · refine (append_shown _).bind fun _ => ?_
    refine (transition_shown _).bind fun _ => ?_
    refine (transition_shown _).bind fun _ => ?_
    refine (publish_shown _).bind fun _ => ?_
    exact (send_shown _).bind (fun _ => Keeps.pure _)
  · refine (publish_shown _).bind fun _ => ?_
    refine (append_shown _).bind fun _ => ?_
    refine noteHistoryLen_shown.bind fun _ => ?_
    split
    · cases loop.tools with
      | none =>
        have refuses (call : ToolCall) : Keeps Shown (do
            Streaming.send (.toolError call.id "no_tool_registry"); append (.toolResult call.id noRegistryJson)) :=
          (send_shown _).bind (fun _ => append_shown _)
        exact (refuseTools_shown _ _ refuses).bind (fun _ => Keeps.pure _)
      | some registry =>
        exact (runTools_shown loop registry request _ _ (stream_appendResult_shown loop _)).bind (fun _ => Keeps.pure _)
    · refine (transition_shown _).bind fun _ => ?_
      refine (transition_shown _).bind fun _ => ?_
      refine (send_shown _).bind fun _ => ?_
      refine (send_shown _).bind fun _ => ?_
      refine (send_shown _).bind fun _ => ?_
      exact (publish_shown _).bind (fun _ => Keeps.pure _)

theorem stream_turn_shown : Keeps Shown (Streaming.turn loop) :=
  checks_shown loop _ (fun request => do Streaming.receive loop request (← Streaming.askStream loop))
    (stream_finishEarly_shown loop) (fun request => (askStream_shown loop).bind (stream_receive_shown loop request))

theorem mode_turn_shown (mode : Mode) : Keeps Shown (mode.turn loop) := by
  cases mode with
  | complete => exact turn_shown loop
  | streaming => exact stream_turn_shown loop

end StreamTurns

/-! Whole runs. -/

theorem begin_shown (message : String) (vars started : Vars) (began : begin message vars = .ok () started) :
    Shown started := by
  cases began
  exact List.getLast?_concat

theorem iteration_shown (body : Effect (Option AgentResult)) (keeps : Keeps Shown body) (vars : Vars)
    (shown : Shown vars) : (iteration body vars).elim Shown (fun outcome => Shown outcome.2) := by
  have kept := keeps vars shown
  unfold iteration
  cases ran : body.run vars with
  | ok result next =>
    rw [ran] at kept
    cases result with
    | none => exact kept
    | some result => exact kept
  | error error next =>
    rw [ran] at kept
    exact kept

theorem run_shown (loop : AgentLoop) (mode : Mode) (message : String) (vars : Vars) (outcome : Outcome)
    (ran : mode.run loop message vars = some outcome) : Shown outcome.2 := by
  obtain ⟨started,began,-⟩ := begin_stands message vars
  rw [mode.run_eq,runWith,began] at ran
  refine iterate_invariant _ Shown (fun _ => True) (fun outcome => Shown outcome.2) ?_ ?_ _ started
    (begin_shown message vars started began) (throughout_of_all _ _ (fun _ => trivial) _ _) outcome ran
  · intro vars next shown _ went
    simpa [went] using iteration_shown _ (mode_turn_shown loop mode) vars shown
  · intro vars outcome shown _ ended
    simpa [ended] using iteration_shown _ (mode_turn_shown loop mode) vars shown

/-- Every run broadcasts a path of the table from `running`, which ends in `completed`
or `error` as the run returns; that state is the shared one afterwards. -/
theorem run_follows_table (loop : AgentLoop) (mode : Mode) (message : String) (vars : Vars) :
    ∃ result last states, mode.run loop message vars = some (result,last) ∧
      (∀ source event allowed, result ≠ .error (.invalidStateTransition source event allowed)) ∧
      last.broadcast = vars.broadcast ++ states ∧ PathTo (finalState result) states ∧
      states.getLast? = some last.state := by
  have starts : Follows vars.broadcast .running (start message (talkOf vars)) :=
    ⟨[.running],rfl,List.isChain_singleton _,rfl,rfl⟩
  obtain ⟨result,last,ran,⟨states,said,path⟩,legal⟩ := mode_run_meets loop mode message vars _ _ starts
    (exchange_follows loop (mode.ask loop) vars.broadcast)
  have shown : last.broadcast.getLast? = some last.state := run_shown loop mode message vars _ ran
  have same : last.broadcast = vars.broadcast ++ states := said
  refine ⟨result,last,states,ran,legal,same,path,?_⟩
  rw [same,List.getLast?_append,path.last] at shown
  rw [path.last]
  exact shown

end ClawKernel.Loop.Paths
