import ClawKernel.Loop.Assembly
import ClawKernel.Loop.Refinement

/-! `run` and `run_streaming` over one provider. The stream of a turn stands for the
response of `complete`; the loops agree as long as each turn's stream keeps the
ids of its tool calls.
-/
namespace ClawKernel.Loop.Agreement
open Lib.Loops Loop.States Loop.Types Loop.Run Loop.Conversation Loop.Refinement Loop.Assembly
open Provider.Types hiding FinishReason
open Provider.Retry

def completed (loop : AgentLoop) (vars : Vars) : Except ProviderError CompletionResponse :=
  withRetry (fun attempt => loop.provider.complete vars.requests.length attempt vars.history loop.options) {}

def streamed (loop : AgentLoop) (vars : Vars) : Except ProviderError (List (Except ProviderError Delta)) :=
  loop.provider.completeStream vars.requests.length vars.history loop.options

/-- A turn that asks is answered, and its stream stands for the response. -/
def TurnAssembles (loop : AgentLoop) (vars : Vars) : Prop :=
  stopReason loop vars.loopState = none →
    ∃ response deltas, completed loop vars = .ok response ∧ streamed loop vars = .ok (deltas.map .ok) ∧
      Assembles deltas response

/-- The stream of a turn that asks keeps its ids, and a response without tool
calls has none rather than an empty list. -/
def TurnKeepsIds (loop : AgentLoop) (vars : Vars) : Prop :=
  stopReason loop vars.loopState = none →
    (∀ deltas : List Delta, streamed loop vars = .ok (deltas.map .ok) →
      keepsIds (deltas.filterMap Delta.toolCall) = true) ∧
      ∀ response, completed loop vars = .ok response → response.message.toolCalls ≠ some []

theorem asks_agree (loop : AgentLoop) (vars : Vars) (assembles : TurnAssembles loop vars)
    (keeps : TurnKeepsIds loop vars) :
    exchange loop (completeAsk loop) (talkOf vars) = exchange loop (streamAsk loop) (talkOf vars) := by
  unfold exchange
  cases stopped : stopReason loop (talkOf vars).loopState with
  | some reason => rfl
  | none =>
    obtain ⟨response,deltas,complete,stream,stands⟩ := assembles stopped
    obtain ⟨ids,plain⟩ := keeps stopped
    have same := assembles_reply deltas response stands (ids deltas stream) (plain response complete)
    have left : completeAsk loop (talkOf vars).requests.length (talkOf vars).history =
        .ok ⟨response.message,response.usage⟩ := by
      change (completed loop vars).map _ = _
      rw [complete]
      rfl
    have right : streamAsk loop (talkOf vars).requests.length (talkOf vars).history =
        .ok ⟨response.message,response.usage⟩ :=
      (streamAsk_opened loop _ _ _ stream).trans same
    simp only [asked,left,right]

/-- In every run whose turns keep the ids of their tool calls, the two loops end
with one result, one history and one sequence of states. -/
theorem loops_agree (loop : AgentLoop) (message : String) (vars started : Vars)
    (began : begin message vars = .ok () started)
    (assembles : Throughout (iteration (Run.turn loop)) (TurnAssembles loop) (loop.config.maxTurns + 1) started)
    (keeps : Throughout (iteration (Run.turn loop)) (TurnKeepsIds loop) (loop.config.maxTurns + 1) started) :
    ∃ result ran stream, run loop message vars = some (result,ran) ∧
      Streaming.runStreaming loop message vars = some (result,stream) ∧
      ran.history = stream.history ∧ ran.broadcast = stream.broadcast ∧
      ran.requests = stream.requests ∧ ran.loopState = stream.loopState := by
  obtain ⟨ending,ends⟩ := converse_ends loop (streamAsk loop) message (talkOf vars)
  have streamed := runStreaming_refines loop message vars
  have both := throughout_and _ _ _ _ _ assembles keeps
  have stands := begin_starts message vars started began
  have ran : Option.Rel Ends (run loop message vars) (converse loop (streamAsk loop) message (talkOf vars)) := by
    rw [run,runWith,began]
    refine iterate_related (iteration (Run.turn loop)) (exchange loop (streamAsk loop))
      (fun vars talk => Stands vars talk .running) Ends _ ?_ _ started _ stands both
    rintro vars talk ⟨rfl,running⟩ ⟨stream,ids⟩
    rw [← asks_agree loop vars stream ids]
    exact run_turn_reaches loop (talkOf vars) vars ⟨rfl,running⟩
  rw [ends] at ran streamed
  obtain ⟨⟨result,left⟩,first,sameResult,leftTalk⟩ := rel_some ran
  obtain ⟨⟨other,right⟩,second,otherResult,rightTalk⟩ := rel_some streamed
  obtain rfl : result = other := sameResult.trans otherResult.symm
  have same : talkOf left = talkOf right := leftTalk.trans rightTalk.symm
  exact ⟨result,left,right,first,second,congrArg Talk.history same,congrArg Talk.broadcast same,
    congrArg Talk.requests same,congrArg Talk.loopState same⟩

/-! A provider that calls one tool, and its stream in two pieces. -/

def oneCall : CompletionResponse :=
  ⟨"r","m",⟨.assistant,"",some [⟨"a","f","[1]"⟩],none⟩,.toolCalls,⟨1,1,2⟩⟩

def twoPieces (id : String) : List Delta :=
  [⟨none,some ⟨"a","f","["⟩,none,none⟩,⟨none,some ⟨id,"","1]"⟩,some .toolCalls,some ⟨1,1,2⟩⟩]

def oneCallLoop (id : String) : AgentLoop where
  provider := ⟨"p","m",fun _ _ _ _ => .ok oneCall,fun _ _ _ => .ok ((twoPieces id).map .ok)⟩
  tools := none
  stopConditions := []
  config := {maxTurns := 1}
  agentId := "agent"
  fromStr := fun _ => .error "expected value at line 1 column 1"

def fresh : Vars := ⟨[],.new,.idle,[],[],[],[],.new,[]⟩

theorem twoPieces_assembles (id : String) (own : id = "a" ∨ id = "") : Assembles (twoPieces id) oneCall where
  role := rfl
  noCallId := rfl
  content := rfl
  identified := by unfold Identified; decide
  pieces := ⟨[[⟨"a","f","["⟩,⟨id,"","1]"⟩]],
    .cons ⟨_,_,rfl,rfl,rfl,by simpa [oneCall] using own,by rfl⟩ .nil,rfl⟩
  finishReason := rfl
  usage := rfl

theorem oneCallLoop_assembles (id : String) (own : id = "a" ∨ id = "") (vars : Vars) :
    TurnAssembles (oneCallLoop id) vars :=
  fun _ => ⟨oneCall,twoPieces id,rfl,rfl,twoPieces_assembles id own⟩

theorem oneCallLoop_keepsIds (vars : Vars) : TurnKeepsIds (oneCallLoop "a") vars := by
  refine fun _ => ⟨?_,?_⟩
  · intro deltas stream
    have same : (twoPieces "a").map Except.ok = deltas.map Except.ok := Except.ok.inj stream
    rw [← List.map_injective_iff.mpr (fun _ _ => Except.ok.inj) same]
    decide
  · intro response complete
    rw [← Except.ok.inj complete]
    decide

theorem loops_agree_oneCall :
    ∃ result ran stream, run (oneCallLoop "a") "go" fresh = some (result,ran) ∧
      Streaming.runStreaming (oneCallLoop "a") "go" fresh = some (result,stream) ∧
      ran.history = stream.history ∧ ran.broadcast = stream.broadcast ∧
      ran.requests = stream.requests ∧ ran.loopState = stream.loopState :=
  loops_agree (oneCallLoop "a") "go" fresh _ rfl
    (throughout_of_all _ _ (oneCallLoop_assembles "a" (.inl rfl)) _ _)
    (throughout_of_all _ _ oneCallLoop_keepsIds _ _)

/-- The second piece leaves the id empty: `run_streaming` appends the call without
the piece's arguments. -/
theorem idless_piece_lost :
    (∀ vars, TurnAssembles (oneCallLoop "") vars) ∧
    (run (oneCallLoop "") "go" fresh).map (fun outcome => outcome.2.history) =
      some [.user "go",⟨.assistant,"",some [⟨"a","f","[1]"⟩],none⟩,.toolResult "a" noRegistryJson] ∧
    (Streaming.runStreaming (oneCallLoop "") "go" fresh).map (fun outcome => outcome.2.history) =
      some [.user "go",⟨.assistant,"",some [⟨"a","f","["⟩],none⟩,.toolResult "a" noRegistryJson] :=
  ⟨oneCallLoop_assembles "" (.inr rfl),by decide,by decide⟩

end ClawKernel.Loop.Agreement
