import ClawKernel.Loop.Emitted
import ClawKernel.Loop.Pairing

/-! The protocol of the chunks: a run sends one chunk that ends it, and sends it last; its
texts are those of the replies it heard; what becomes of a tool call is told in the
turn that announced the call.
-/
namespace ClawKernel.Loop.Protocol
open Lib.Json Lib.Loops Loop.States Loop.Types Loop.Run Loop.Conversation Loop.Refinement Loop.Emitted
open Loop.Pairing (split_append executeCall_id)
open Loop.Streaming (Assembly flush takeDelta takeText takeToolCall)
open Provider.Types hiding FinishReason

def isTerminal : StreamChunk → Bool
  | .finish _ => true
  | .error _ => true
  | _ => false

def textOf : StreamChunk → Option String
  | .text content _ => some content
  | _ => none

/-- The tool call whose outcome a chunk tells. -/
def outcomeOf : StreamChunk → Option String
  | .toolComplete id _ => some id
  | .toolError id _ => some id
  | _ => none

def texts (chunks : List StreamChunk) : String := String.join (chunks.filterMap textOf)

def spoken (messages : List Message) : String :=
  String.join ((messages.filter (fun message => message.role = .assistant)).map Message.content)

/-- The chunk that ends a run with a result. -/
def closes : Except AgentError AgentResult → StreamChunk → Prop
  | .ok result, chunk => chunk = .finish result.finishReason
  | .error error, chunk => ∃ message, error = .provider message ∧ chunk = .error message

/-- Outcomes come after the start of their call. -/
def Announced (chunks : List StreamChunk) : Prop :=
  ∀ before chunk after id, chunks = before ++ chunk :: after → outcomeOf chunk = some id →
    ∃ name, StreamChunk.toolStart id name ∈ before

theorem texts_append (first second : List StreamChunk) : texts (first ++ second) = texts first ++ texts second := by
  simp [texts]

theorem spoken_append (first second : List Message) : spoken (first ++ second) = spoken first ++ spoken second := by
  simp [spoken]

theorem announced_append (first second : List StreamChunk) (plain : ∀ chunk ∈ first, outcomeOf chunk = none)
    (known : ∀ chunk ∈ second, ∀ id, outcomeOf chunk = some id → ∃ name, StreamChunk.toolStart id name ∈ first) :
    Announced (first ++ second) := by
  intro before chunk after id parts outcome
  rcases split_append _ _ _ _ _ parts with ⟨middle,inside,-⟩ | ⟨middle,rfl,inside⟩
  · have none := plain chunk (inside ▸ by simp)
    rw [none] at outcome
    cases outcome
  · obtain ⟨name,member⟩ := known chunk (inside ▸ by simp) id outcome
    exact ⟨name,List.mem_append_left _ member⟩

/-! What a stream sends. -/

def announce (call : ToolCall) : StreamChunk := .toolStart call.id call.name

/-- From one assembly to another the chunks carry the text and announce the calls. -/
structure Carries (start final : Assembly) (chunks : List StreamChunk) : Prop where
  plain : ∀ chunk ∈ chunks, isTerminal chunk = false ∧ outcomeOf chunk = none
  content : final.content = start.content ++ texts chunks
  calls : ∀ call ∈ final.calls, call ∈ start.calls ∨ announce call ∈ chunks

theorem Carries.trans {start middle final : Assembly} {first second : List StreamChunk}
    (one : Carries start middle first) (other : Carries middle final second) :
    Carries start final (first ++ second) where
  plain := by
    intro chunk member
    rcases List.mem_append.mp member with left | right
    · exact one.plain chunk left
    · exact other.plain chunk right
  content := by rw [other.content,one.content,texts_append,String.append_assoc]
  calls := by
    intro call member
    rcases other.calls call member with earlier | announced
    · exact (one.calls call earlier).imp_right (List.mem_append_left _)
    · exact .inr (List.mem_append_right _ announced)

/-- Fields besides the text and the calls do not matter. -/
theorem carries_none {start final : Assembly} (content : final.content = start.content)
    (calls : final.calls = start.calls) : Carries start final [] where
  plain := nofun
  content := content.trans String.append_empty.symm
  calls := fun _ member => .inl (calls ▸ member)

theorem flush_carries (assembly : Assembly) : Carries assembly (flush assembly).1 (flush assembly).2 := by
  unfold flush
  cases assembly.partialId with
  | none => exact carries_none rfl rfl
  | some id =>
    constructor
    · simp [isTerminal,outcomeOf]
    · exact String.append_empty.symm
    · intro call member
      rcases List.mem_append.mp member with earlier | last
      · exact .inl earlier
      · obtain rfl := List.mem_singleton.mp last
        exact .inr (List.mem_singleton.mpr rfl)

theorem takeToolCall_carries (piece : ToolCall) (assembly : Assembly) :
    Carries assembly (takeToolCall piece assembly).1 (takeToolCall piece assembly).2 := by
  have flushed := flush_carries assembly
  have later {final : Assembly} (content : final.content = (flush assembly).1.content)
      (calls : final.calls = (flush assembly).1.calls) : Carries assembly final (flush assembly).2 := by
    have both := flushed.trans (carries_none content calls)
    rwa [List.append_nil] at both
  unfold takeToolCall
  by_cases new : piece.id ≠ assembly.partialId.getD ""
  · simp only [if_pos new]
    split
    · exact later rfl rfl
    · exact later rfl rfl
  · simp only [if_neg new]
    split
    · exact carries_none rfl rfl
    · exact carries_none rfl rfl

theorem takeText_carries (content : Option String) (assembly : Assembly) :
    Carries assembly (takeText content assembly).1 (takeText content assembly).2 := by
  unfold takeText
  cases content with
  | none => exact carries_none rfl rfl
  | some text =>
    dsimp only
    split
    · constructor
      · simp [isTerminal,outcomeOf]
      · simp [texts,textOf]
      · exact fun _ => .inl
    · exact carries_none rfl rfl

theorem takeDelta_carries (delta : Delta) (assembly : Assembly) :
    Carries assembly (takeDelta delta assembly).1 (takeDelta delta assembly).2 := by
  have noted (usage : Option TokenUsage) (finishReason : Option Provider.Types.FinishReason) {final : Assembly}
      {chunks : List StreamChunk} (rest : Carries {assembly with usage, finishReason} final chunks) :
      Carries assembly final chunks :=
    (carries_none rfl rfl : Carries assembly {assembly with usage, finishReason} []).trans rest
  unfold takeDelta
  apply noted (delta.usage.or assembly.usage) (delta.finishReason.or assembly.finishReason)
  cases delta.toolCall with
  | none => exact takeText_carries delta.content _
  | some piece => exact (takeText_carries delta.content _).trans (takeToolCall_carries piece _)

theorem drained_carries (items : List (Except ProviderError Delta)) (start final : Assembly)
    (given : assemble items start = .ok final) : Carries start final (drained items start) := by
  induction items generalizing start with
  | nil =>
    obtain rfl : (flush start).1 = final := by simpa [assemble] using given
    exact flush_carries start
  | cons item rest ih =>
    cases item with
    | error error => simp [assemble] at given
    | ok delta => exact (takeDelta_carries delta start).trans (ih _ given)

/-- A stream that breaks ends with the error. -/
theorem drained_breaks (items : List (Except ProviderError Delta)) (start : Assembly) (error : ProviderError)
    (given : assemble items start = .error error) :
    ∃ sent, drained items start = sent ++ [.error error.display] ∧
      ∀ chunk ∈ sent, isTerminal chunk = false ∧ outcomeOf chunk = none := by
  induction items generalizing start with
  | nil => simp [assemble] at given
  | cons item rest ih =>
    cases item with
    | error first =>
      obtain rfl : first = error := by simpa [assemble] using given
      exact ⟨[],rfl,fun chunk member => absurd member List.not_mem_nil⟩
    | ok delta =>
      obtain ⟨sent,same,plain⟩ := ih _ given
      refine ⟨(takeDelta delta start).2 ++ sent,?_,?_⟩
      · rw [drained,same,List.append_assoc]
      · intro chunk member
        rcases List.mem_append.mp member with left | right
        · exact (takeDelta_carries delta start).plain chunk left
        · exact plain chunk right

/-! One turn. -/

/-- What a turn says and sends before the next one. -/
structure GoesOn (talk next : Talk) (chunks : List StreamChunk) : Prop where
  going : ∀ chunk ∈ chunks, isTerminal chunk = false
  said : ∃ replies, next.history = talk.history ++ replies ∧ texts chunks = spoken replies

/-- What is said and sent until a run returns. -/
structure Finishes (talk : Talk) (ending : Ending) (chunks : List StreamChunk) : Prop where
  closed : ∃ sent last, chunks = sent ++ [last] ∧ (∀ chunk ∈ sent, isTerminal chunk = false) ∧ closes ending.1 last
  said : ∀ result, ending.1 = .ok result →
    ∃ replies, ending.2.history = talk.history ++ replies ∧ texts chunks = spoken replies

theorem GoesOn.finishes {talk next : Talk} {ending : Ending} {first second : List StreamChunk}
    (turn : GoesOn talk next first) (rest : Finishes next ending second) : Finishes talk ending (first ++ second) where
  closed := by
    obtain ⟨sent,last,rfl,open_,closing⟩ := rest.closed
    refine ⟨first ++ sent,last,(List.append_assoc _ _ _).symm,?_,closing⟩
    intro chunk member
    rcases List.mem_append.mp member with left | right
    · exact turn.going chunk left
    · exact open_ chunk right
  said := by
    intro result returned
    obtain ⟨replies,history,text⟩ := turn.said
    obtain ⟨later,onward,more⟩ := rest.said result returned
    refine ⟨replies ++ later,?_,?_⟩
    · rw [onward,history,List.append_assoc]
    · rw [texts_append,text,more,spoken_append]

/-- The calls of a turn are answered by chunks with their ids. -/
theorem callChunks_outcomes (loop : AgentLoop) (request : Nat) (calls : List ToolCall) (chunk : StreamChunk)
    (member : chunk ∈ callChunks loop request calls) :
    isTerminal chunk = false ∧ textOf chunk = none ∧ ∃ call ∈ calls, outcomeOf chunk = some call.id := by
  unfold callChunks at member
  cases tools : loop.tools with
  | none =>
    rw [tools] at member
    obtain ⟨call,inside,rfl⟩ := List.mem_map.mp member
    exact ⟨rfl,rfl,call,inside,rfl⟩
  | some registry =>
    rw [tools] at member
    obtain ⟨result,inside,rfl⟩ := List.mem_map.mp member
    obtain ⟨position,bound,rfl⟩ := List.mem_mapIdx.mp inside
    exact ⟨rfl,rfl,_,List.mem_of_mem_take (List.getElem_mem bound),
      congrArg some (executeCall_id loop registry request position _)⟩

theorem answers_silent (loop : AgentLoop) (request : Nat) (calls : List ToolCall) :
    spoken (answers loop request calls) = "" := by
  have tool : ∀ message ∈ answers loop request calls, ¬message.role = .assistant := by
    unfold answers
    cases loop.tools with
    | none =>
      intro message member
      obtain ⟨call,-,rfl⟩ := List.mem_map.mp member
      exact nofun
    | some registry =>
      intro message member
      obtain ⟨result,-,rfl⟩ := List.mem_map.mp member
      exact nofun
  unfold spoken
  rw [List.filter_eq_nil_iff.mpr (by simpa using tool)]
  rfl

/-- The chunks of a turn whose stream was whole, and what its reply brings about. -/
theorem streamed_whole (loop : AgentLoop) (talk : Talk) (items : List (Except ProviderError Delta)) (assembly : Assembly)
    (assembled : assemble items .empty = .ok assembly) (request : Nat) (states : List AgentState) :
    Announced (drained items .empty ++ closingChunks loop request (replyOf assembly) talk) ∧
      (hear loop request (replyOf assembly) ((talk.request loop.options).say states)).elim
        (fun next => GoesOn talk next (drained items .empty ++ closingChunks loop request (replyOf assembly) talk))
        (fun ending => Finishes talk ending (drained items .empty ++ closingChunks loop request (replyOf assembly) talk)) := by
  have carries := drained_carries items .empty assembly assembled
  have text : texts (drained items .empty) = assembly.content :=
    String.empty_append.symm.trans carries.content.symm
  have said : spoken [(replyOf assembly).message] = assembly.content := by
    rw [← replyOf_content]
    simp [spoken,replyOf_role]
  by_cases spent : loop.config.spent (talk.spend (replyOf assembly).usage).loopState.usage = true
  · rw [hear_spent loop request _ ((talk.request loop.options).say states) spent,closingChunks,if_pos spent]
    refine ⟨announced_append _ _ (fun chunk member => (carries.plain chunk member).2) (by simp [outcomeOf]),?_,?_⟩
    · exact ⟨_,_,rfl,fun chunk member => (carries.plain chunk member).1,rfl⟩
    · rintro result -
      refine ⟨_,rfl,?_⟩
      rw [texts_append,text,said]
      exact String.append_empty
  · by_cases calls : (replyOf assembly).calls ≠ [] ∧ loop.config.toolUseEnabled = true
    · rw [hear_calls loop request _ ((talk.request loop.options).say states) spent calls,closingChunks,if_neg spent,if_pos calls]
      have outcomes := callChunks_outcomes loop request (replyOf assembly).calls
      refine ⟨announced_append _ _ (fun chunk member => (carries.plain chunk member).2) ?_,?_,?_⟩
      · intro chunk member id outcome
        obtain ⟨-,-,call,inside,same⟩ := outcomes chunk member
        obtain rfl := Option.some_inj.mp (same.symm.trans outcome)
        rw [replyOf_calls] at inside
        rcases carries.calls call inside with earlier | announced
        · cases earlier
        · exact ⟨_,announced⟩
      · intro chunk member
        rcases List.mem_append.mp member with left | right
        · exact (carries.plain chunk left).1
        · exact (outcomes chunk right).1
      · have silent : texts (callChunks loop request (replyOf assembly).calls) = "" := by
          unfold texts
          rw [List.filterMap_eq_nil_iff.mpr (fun chunk member => (outcomes chunk member).2.1)]
          rfl
        refine ⟨[(replyOf assembly).message] ++ answers loop request (replyOf assembly).calls,?_,?_⟩
        · exact List.append_assoc _ _ _
        · rw [texts_append,text,silent,spoken_append,said,answers_silent]
    · rw [hear_stop loop request _ ((talk.request loop.options).say states) spent calls,closingChunks,if_neg spent,if_neg calls]
      refine ⟨announced_append _ _ (fun chunk member => (carries.plain chunk member).2) (by simp [outcomeOf]),?_,?_⟩
      · refine ⟨drained items .empty ++ [.text "" true,.usageUpdate (talk.spend (replyOf assembly).usage).loopState.usage],_,
          List.append_assoc _ [_,_] [_] |>.symm,?_,rfl⟩
        intro chunk member
        rcases List.mem_append.mp member with left | right
        · exact (carries.plain chunk left).1
        · rcases List.mem_pair.mp right with rfl | rfl <;> rfl
      · rintro result -
        refine ⟨_,rfl,?_⟩
        rw [texts_append,text,said]
        exact String.append_empty

theorem announced_plain (chunks : List StreamChunk) (plain : ∀ chunk ∈ chunks, outcomeOf chunk = none) :
    Announced chunks := by
  rw [← List.append_nil chunks]
  exact announced_append chunks [] plain (fun _ member => absurd member List.not_mem_nil)

/-- A run that fails sends the error last. -/
theorem finishes_error (talk last : Talk) (sent : List StreamChunk) (error : ProviderError)
    (going : ∀ chunk ∈ sent, isTerminal chunk = false) :
    Finishes talk (.error (.provider error.display),last) (sent ++ [.error error.display]) where
  closed := ⟨sent,_,rfl,going,_,rfl,rfl⟩
  said := by simp

theorem emitted_protocol (loop : AgentLoop) (talk : Talk) :
    Announced (emitted loop talk) ∧
      (exchange loop (streamAsk loop) talk).elim (fun next => GoesOn talk next (emitted loop talk))
        (fun ending => Finishes talk ending (emitted loop talk)) := by
  rcases exchange_cases loop (streamAsk loop) talk with
    ⟨reason,stopped,ended⟩ | ⟨free,⟨error,given,failed⟩ | ⟨reply,given,heard⟩⟩
  · rw [ended,emitted,stopped]
    refine ⟨announced_plain _ (by simp [outcomeOf]),⟨[],_,rfl,fun chunk member => absurd member List.not_mem_nil,rfl⟩,?_⟩
    rintro result -
    exact ⟨[],(List.append_nil _).symm,rfl⟩
  · rw [failed,emitted,free]
    unfold streamAsk at given
    cases opened : loop.provider.completeStream talk.requests.length talk.history loop.options with
    | error refused =>
      obtain rfl : refused = error := by simpa [opened] using given
      exact ⟨announced_plain _ (by simp [outcomeOf]),finishes_error talk _ [] refused (by simp)⟩
    | ok items =>
      cases broken : assemble items .empty with
      | ok assembly => simp [opened,broken,Except.map] at given
      | error first =>
        obtain rfl : first = error := by simpa [opened,broken,Except.map] using given
        obtain ⟨sent,same,plain⟩ := drained_breaks items .empty first broken
        simp only [streamed,broken,List.append_nil,same]
        refine ⟨announced_plain _ ?_,finishes_error talk _ sent first (fun chunk member => (plain chunk member).1)⟩
        intro chunk member
        rcases List.mem_append.mp member with left | right
        · exact (plain chunk left).2
        · rw [List.mem_singleton.mp right]
          rfl
  · obtain ⟨items,assembly,opened,assembled,rfl⟩ := streamAsk_ok loop _ _ reply given
    rw [heard,emitted,free]
    simp only [opened,streamed,assembled]
    exact streamed_whole loop talk items assembly assembled _ _

/-! Whole runs. -/

theorem emittedFrom_protocol (loop : AgentLoop) (fuel : Nat) (talk : Talk) :
    (∀ turn ∈ emittedFrom loop fuel talk, Announced turn) ∧
      ∀ ending, iterate (exchange loop (streamAsk loop)) fuel talk = some ending →
        Finishes talk ending (emittedFrom loop fuel talk).flatten := by
  induction fuel generalizing talk with
  | zero => exact ⟨by simp [emittedFrom],by simp [iterate]⟩
  | succ fuel ih =>
    obtain ⟨announced,protocol⟩ := emitted_protocol loop talk
    cases went : exchange loop (streamAsk loop) talk with
    | inl next =>
      rw [went] at protocol
      obtain ⟨later,finishes⟩ := ih next
      simp only [emittedFrom,went,iterate,Sum.elim_inl,List.flatten_cons,List.forall_mem_cons]
      exact ⟨⟨announced,later⟩,fun ending ended => GoesOn.finishes protocol (finishes ending ended)⟩
    | inr ending =>
      rw [went] at protocol
      simp only [emittedFrom,went,iterate,Sum.elim_inr,List.flatten_cons,List.flatten_nil,List.append_nil,
        List.forall_mem_singleton,Option.some.injEq]
      exact ⟨announced,fun _ same => same ▸ protocol⟩

/-- The chunks of a run, turn by turn. The last is the only one that ends it and tells
how it ended, the texts are those of the replies in the history, and an outcome comes
after the start of its call in the same turn. -/
theorem streaming_protocol (loop : AgentLoop) (message : String) (vars : Vars) :
    ∃ started result last sent closing, begin message vars = .ok () started ∧
      Streaming.runStreaming loop message vars = some (result,last) ∧
      last.chunks = (sentByTurn (Streaming.turn loop) (loop.config.maxTurns + 1) started).flatten ∧
      last.chunks = sent ++ [closing] ∧ (∀ chunk ∈ sent, isTerminal chunk = false) ∧ closes result closing ∧
      (∀ returned, result = .ok returned →
        ∃ appended, last.history = vars.history ++ appended ∧ texts last.chunks = spoken appended) ∧
      ∀ turn ∈ sentByTurn (Streaming.turn loop) (loop.config.maxTurns + 1) started, Announced turn := by
  obtain ⟨started,began,stands⟩ := begin_stands message vars
  obtain ⟨ending,ends⟩ := converse_ends loop (streamAsk loop) message (talkOf vars)
  have refines := runStreaming_refines loop message vars
  rw [ends] at refines
  obtain ⟨⟨result,last⟩,ran,same,talked⟩ := rel_some refines
  obtain ⟨announced,finishes⟩ := emittedFrom_protocol loop (loop.config.maxTurns + 1) (start message (talkOf vars))
  obtain ⟨⟨sent,closing,parts,going,closed⟩,said⟩ := finishes ending ends
  obtain ⟨turns,chunks⟩ := iterate_emits loop (loop.config.maxTurns + 1) started _ stands
  have fresh : started.chunks = [] := by
    cases began
    rfl
  have all : last.chunks = (emittedFrom loop (loop.config.maxTurns + 1) (start message (talkOf vars))).flatten := by
    have run := ran
    rw [Streaming.runStreaming,runWith,began] at run
    have total := chunks _ run
    rw [fresh] at total
    exact total
  obtain rfl : result = ending.1 := same
  have history : last.history = ending.2.history := congrArg Talk.history talked
  refine ⟨started,_,last,sent,closing,began,ran,turns ▸ all,all.trans parts,going,closed,?_,turns ▸ announced⟩
  intro returned finished
  obtain ⟨replies,onward,text⟩ := said returned finished
  refine ⟨.user message :: replies,?_,?_⟩
  · exact history.trans (onward.trans (List.append_assoc _ _ _))
  · rw [all,text]
    simp [spoken,Message.user]

end ClawKernel.Loop.Protocol
