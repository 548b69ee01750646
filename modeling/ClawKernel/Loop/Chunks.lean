import ClawKernel.Loop.Emitted

/-! How many chunks a streaming run sends. The count is read off the conversation: what the
provider streams in each turn, and how the turn ends.
-/
namespace ClawKernel.Loop.Chunks
open Lib.Json Lib.Effects Lib.Loops Loop.States Loop.Types Loop.Run Loop.Conversation Loop.Refinement Loop.Emitted Loop.Traces
open Loop.Streaming (Assembly flush takeDelta takeText takeToolCall send drain)
open Provider.Types hiding FinishReason

/-- Text deltas that are not empty, up to an error. -/
def textChunks : List (Except ProviderError Delta) → Nat
  | [] => 0
  | .error _ :: _ => 0
  | .ok delta :: rest => (if delta.content.getD "" = "" then 0 else 1) + textChunks rest

/-- The calls that are whole when the stream ends or breaks. -/
def wholeCalls : List (Except ProviderError Delta) → Assembly → List ToolCall
  | [], assembly => (flush assembly).1.calls
  | .error _ :: _, assembly => assembly.calls
  | .ok delta :: rest, assembly => wholeCalls rest (takeDelta delta assembly).1

/-- The end of a turn: its reply spends the budget, has calls to answer, or ends the run. -/
def closing (loop : AgentLoop) (reply : Reply) (talk : Talk) : Nat :=
  if loop.config.spent (talk.spend reply.usage).loopState.usage then 1
  else if reply.calls ≠ [] ∧ loop.config.toolUseEnabled then
    if loop.tools.isSome then min loop.config.maxToolCallsPerTurn reply.calls.length else reply.calls.length
  else 3

def responseChunks (loop : AgentLoop) (talk : Talk) (items : List (Except ProviderError Delta)) : Nat :=
  textChunks items + (wholeCalls items .empty).length +
    match assemble items .empty with
    | .error _ => 1
    | .ok assembly => closing loop (replyOf assembly) talk

def turnChunks (loop : AgentLoop) (talk : Talk) : Nat :=
  match stopReason loop talk.loopState with
  | some _ => 1
  | none =>
    match loop.provider.completeStream talk.requests.length talk.history loop.options with
    | .error _ => 1
    | .ok items => responseChunks loop talk items

def chunksFrom (loop : AgentLoop) : Nat → Talk → Nat
  | 0, _ => 0
  | fuel+1, talk =>
    turnChunks loop talk +
      match exchange loop (streamAsk loop) talk with
      | .inl next => chunksFrom loop fuel next
      | .inr _ => 0

/-- All chunks of a run that starts with a message. -/
def runChunks (loop : AgentLoop) (message : String) (talk : Talk) : Nat :=
  chunksFrom loop (loop.config.maxTurns + 1) (start message talk)

def left {α : Type} : EStateM.Result AgentError Vars α → Vars
  | .ok _ vars => vars
  | .error _ vars => vars

/-- From wherever the conversation stands, the effect sends so many chunks. -/
def Sends {α : Type} (talk : Talk) (current : AgentState) (effect : Effect α) (count : Nat) : Prop :=
  ∀ vars, Stands vars talk current → (left (effect.run vars)).chunks.length = vars.chunks.length + count

theorem left_leaves {α : Type} (result : EStateM.Result AgentError Vars α) : left result = leaves result := by
  cases result with
  | ok value vars => rfl
  | error error vars => rfl

theorem sends_emits {α : Type} {talk : Talk} {current : AgentState} {effect : Effect α} {chunks : List StreamChunk}
    (emits : Emits talk current effect chunks) : Sends talk current effect chunks.length := by
  intro vars stands
  rw [left_leaves,emits vars stands,List.length_append]

/-! The steps of `run_streaming`. -/

def drainChunks : List (Except ProviderError Delta) → Assembly → Nat
  | [], assembly => (flush assembly).2.length
  | .error _ :: _, _ => 1
  | .ok delta :: rest, assembly => (takeDelta delta assembly).2.length + drainChunks rest (takeDelta delta assembly).1

theorem drained_length (items : List (Except ProviderError Delta)) (start : Assembly) :
    (drained items start).length = drainChunks items start := by
  induction items generalizing start with
  | nil => rfl
  | cons item rest ih =>
    cases item with
    | error error => rfl
    | ok delta =>
      rw [drained,List.length_append,ih]
      rfl

theorem flush_chunks (assembly : Assembly) :
    (flush assembly).2.length + assembly.calls.length = (flush assembly).1.calls.length := by
  unfold flush
  cases assembly.partialId with
  | none => exact Nat.zero_add _
  | some id => simp [Nat.add_comm]

theorem takeToolCall_chunks (piece : ToolCall) (assembly : Assembly) :
    (takeToolCall piece assembly).2.length + assembly.calls.length = (takeToolCall piece assembly).1.calls.length := by
  have flushed := flush_chunks assembly
  unfold takeToolCall
  by_cases new : piece.id ≠ assembly.partialId.getD ""
  · simp only [if_pos new]
    split
    · exact flushed
    · exact flushed
  · simp only [if_neg new]
    split
    · exact Nat.zero_add _
    · exact Nat.zero_add _

theorem takeText_chunks (content : Option String) (assembly : Assembly) :
    (takeText content assembly).2.length = (if content.getD "" = "" then 0 else 1) ∧
      (takeText content assembly).1.calls = assembly.calls := by
  unfold takeText
  cases content with
  | none => exact ⟨rfl,rfl⟩
  | some text =>
    by_cases empty : text = ""
    · simp [empty]
    · simp [empty]

theorem takeDelta_chunks (delta : Delta) (assembly : Assembly) :
    (takeDelta delta assembly).2.length + assembly.calls.length =
      (if delta.content.getD "" = "" then 0 else 1) + (takeDelta delta assembly).1.calls.length := by
  obtain ⟨texts,same⟩ := takeText_chunks delta.content
    {assembly with usage := delta.usage.or assembly.usage, finishReason := delta.finishReason.or assembly.finishReason}
  unfold takeDelta
  cases delta.toolCall with
  | none =>
    dsimp only
    rw [texts,same]
  | some piece =>
    dsimp only
    have starts := takeToolCall_chunks piece (takeText delta.content
      {assembly with usage := delta.usage.or assembly.usage, finishReason := delta.finishReason.or assembly.finishReason}).1
    rw [same] at starts
    rw [List.length_append,texts]
    dsimp only at starts
    omega

theorem drainChunks_eq (items : List (Except ProviderError Delta)) (start : Assembly) :
    drainChunks items start + start.calls.length = textChunks items + (wholeCalls items start).length +
      match assemble items start with
      | .error _ => 1
      | .ok _ => 0 := by
  induction items generalizing start with
  | nil => exact (flush_chunks start).trans (Nat.zero_add _).symm
  | cons item rest ih =>
    cases item with
    | error error =>
      simp only [drainChunks,textChunks,wholeCalls,assemble]
      omega
    | ok delta =>
      have first := takeDelta_chunks delta start
      have later := ih (takeDelta delta start).1
      simp only [drainChunks,textChunks,wholeCalls,assemble]
      omega

theorem closingChunks_length (loop : AgentLoop) (request : Nat) (reply : Reply) (talk : Talk) :
    (closingChunks loop request reply talk).length = closing loop reply talk := by
  unfold closingChunks closing
  dsimp only
  split
  · rfl
  · split
    · unfold callChunks
      cases loop.tools with
      | none => exact List.length_map _
      | some registry => simp
    · rfl

theorem streamed_length (loop : AgentLoop) (talk : Talk) (items : List (Except ProviderError Delta)) :
    (streamed loop talk items).length = responseChunks loop talk items := by
  have count := drainChunks_eq items .empty
  unfold streamed responseChunks
  rw [List.length_append,drained_length]
  cases assembled : assemble items .empty with
  | error first =>
    rw [assembled] at count
    exact count
  | ok assembly =>
    rw [assembled] at count
    rw [closingChunks_length]
    exact congrArg (· + _) count

theorem emitted_length (loop : AgentLoop) (talk : Talk) : (emitted loop talk).length = turnChunks loop talk := by
  unfold emitted turnChunks
  cases stopReason loop talk.loopState with
  | some reason => rfl
  | none =>
    dsimp only
    cases loop.provider.completeStream talk.requests.length talk.history loop.options with
    | error error => rfl
    | ok items => exact streamed_length loop talk items

theorem turn_sends (loop : AgentLoop) (talk : Talk) :
    Sends talk .running (Streaming.turn loop) (turnChunks loop talk) := by
  rw [← emitted_length]
  exact sends_emits (turn_emits loop talk)

/-! Whole runs. -/

theorem iterate_sends (loop : AgentLoop) (fuel : Nat) (vars : Vars) (talk : Talk) (stands : Stands vars talk .running)
    (outcome : Outcome) (ended : iterate (iteration (Streaming.turn loop)) fuel vars = some outcome) :
    outcome.2.chunks.length = vars.chunks.length + chunksFrom loop fuel talk := by
  induction fuel generalizing vars talk with
  | zero => cases ended
  | succ fuel ih =>
    have reached := stream_turn_reaches loop talk vars stands
    have sent := turn_sends loop talk vars stands
    rw [left_leaves,← iteration_leaves] at sent
    rw [iterate] at ended
    rw [chunksFrom]
    cases went : iteration (Streaming.turn loop) vars with
    | inl next =>
      rw [went] at reached sent ended
      cases talked : exchange loop (streamAsk loop) talk with
      | inr ending => simp [talked] at reached
      | inl after =>
        rw [talked,Sum.liftRel_inl_inl] at reached
        have later := ih next after reached ended
        rw [later,show next.chunks.length = _ from sent]
        exact Nat.add_assoc _ _ _
    | inr returned =>
      rw [went] at reached sent ended
      cases talked : exchange loop (streamAsk loop) talk with
      | inl after => simp [talked] at reached
      | inr ending =>
        rw [← Option.some_inj.mp ended]
        exact sent

theorem runStreaming_sends (loop : AgentLoop) (message : String) (vars : Vars) (outcome : Outcome)
    (ran : Streaming.runStreaming loop message vars = some outcome) :
    outcome.2.chunks.length = runChunks loop message (talkOf vars) := by
  obtain ⟨started,began,stands⟩ := begin_stands message vars
  rw [Streaming.runStreaming,runWith,began] at ran
  have sent := iterate_sends loop _ started _ stands outcome ran
  have fresh : started.chunks = [] := by
    cases began
    rfl
  rw [fresh] at sent
  rw [sent]
  exact Nat.zero_add _

end ClawKernel.Loop.Chunks
