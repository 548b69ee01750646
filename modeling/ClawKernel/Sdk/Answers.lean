import ClawKernel.Loop.Protocol
import ClawKernel.Sdk.MessageStream
import ClawKernel.Server.Streams

/-! What the consumer of a TypeScript client is shown of a run: the run's chunks as the
server forwards them, then `agent/finish`, through the generator of `sendMessage`.
-/
namespace ClawKernel.Sdk.Answers
open Lib.Json Lib.Loops Loop.States Loop.Types Loop.Run Loop.Conversation Loop.Refinement Loop.Emitted Loop.Protocol
open Loop.Streaming (Assembly flush takeDelta takeText takeToolCall)
open Provider.Types hiding FinishReason
open Sdk.MessageStream Server
open Server.Streams (forwardable)

/-- How the spawned task of `sendMessage` tells a run's result. -/
def outcome (display : AgentError → String) : Except AgentError AgentResult → Streams.Outcome
  | .ok result => .ok result.content result.finishReason
  | .error error => .error (display error)

def heardOf (push : Outbound.Push) : Heard := ⟨push.notification.method,push.notification.params.getD .null⟩

/-- The notifications of a run whose forwarder is done when the run ends. -/
def notifications (sessionId : String) (chunks : List StreamChunk) (outcome : Streams.Outcome) : List Heard :=
  (chunks.filterMap forwardable).map (fun delta => heardOf (Streams.Entry.push sessionId (.chunk 0 delta))) ++
    [heardOf (Streams.Entry.push sessionId (.finish 0 outcome.finish))]

/-- The tokens of these notifications, one after another. -/
def shown (sessionId : String) (chunks : List StreamChunk) (outcome : Streams.Outcome) : String :=
  String.join ((tokens (pushed (notifications sessionId chunks outcome))).filterMap Value.asStr)

/-- The generator takes every one of these notifications as its own session's. -/
theorem notifications_concern (sessionId : String) (chunks : List StreamChunk) (outcome : Streams.Outcome)
    (heard : Heard) (member : heard ∈ notifications sessionId chunks outcome) : concerns sessionId heard = true := by
  rcases List.mem_append.mp member with chunk | finish
  · obtain ⟨delta,-,rfl⟩ := List.mem_map.mp chunk
    simp [concerns,heardOf,Streams.Entry.push,Outbound.Push.notification,Protocol.Notification.new,Value.get,List.lookup_cons]
  · rw [List.mem_singleton.mp finish]
    cases outcome with
    | ok content reason =>
      simp [concerns,heardOf,Streams.Entry.push,Streams.Outcome.finish,Outbound.Push.notification,
        Protocol.Notification.new,Protocol.member,Value.get,List.lookup_cons]
    | error message =>
      simp [concerns,heardOf,Streams.Entry.push,Streams.Outcome.finish,Outbound.Push.notification,
        Protocol.Notification.new,Protocol.member,Value.get,List.lookup_cons]

def textItem (text : String) : List Item := if text = "" then [] else [some (.string text)]

theorem chunk_pushes (sessionId : String) (delta : Streams.Delta) :
    pushes (heardOf (Streams.Entry.push sessionId (.chunk 0 delta))) =
      textItem delta.content ++ if delta.isFinal = true then [none] else [] := by
  by_cases empty : delta.content = ""
  · simp [pushes,heardOf,Streams.Entry.push,Outbound.Push.notification,Protocol.Notification.new,Value.get,List.lookup_cons,
      token,truthy,KernelClient.falsy,textItem,empty]
  · simp [pushes,heardOf,Streams.Entry.push,Outbound.Push.notification,Protocol.Notification.new,Value.get,List.lookup_cons,
      token,truthy,KernelClient.falsy,textItem,empty]

/-- The text of `agent/finish`, nothing for an error. -/
def closingText : Streams.Outcome → String
  | .ok content _ => content
  | .error _ => ""

theorem finish_pushes (sessionId : String) (outcome : Streams.Outcome) :
    pushes (heardOf (Streams.Entry.push sessionId (.finish 0 outcome.finish))) = textItem (closingText outcome) ++ [none] := by
  cases outcome with
  | ok content reason =>
    by_cases empty : content = ""
    · simp [pushes,heardOf,Streams.Entry.push,Streams.Outcome.finish,Outbound.Push.notification,Protocol.Notification.new,
        Protocol.member,Value.get,token,truthy,KernelClient.falsy,textItem,closingText,empty]
    · simp [pushes,heardOf,Streams.Entry.push,Streams.Outcome.finish,Outbound.Push.notification,Protocol.Notification.new,
        Protocol.member,Value.get,token,truthy,KernelClient.falsy,textItem,closingText,empty]
  | error message =>
    simp [pushes,heardOf,Streams.Entry.push,Streams.Outcome.finish,Outbound.Push.notification,Protocol.Notification.new,
      Protocol.member,Value.get,List.lookup_cons,token,truthy,textItem,closingText]

/-- No chunk of them is the one that marks the last text. -/
def Unmarked (chunks : List StreamChunk) : Prop := ∀ content, StreamChunk.text content true ∉ chunks

def itemsOf (chunks : List StreamChunk) : List Item := chunks.flatMap (fun chunk => (textOf chunk).elim [] textItem)

theorem textItem_plain (text : String) : none ∉ textItem text := by
  unfold textItem
  split_ifs <;> simp

theorem itemsOf_plain (chunks : List StreamChunk) : none ∉ itemsOf chunks := by
  intro member
  obtain ⟨chunk,-,item⟩ := List.mem_flatMap.mp member
  cases text : textOf chunk with
  | none => simp [text] at item
  | some text' => exact textItem_plain text' (by simpa [text] using item)

theorem join_textItem (text : String) : String.join (((textItem text).filterMap id).filterMap Value.asStr) = text := by
  unfold textItem
  split_ifs with empty
  · rw [empty]; rfl
  · simp [Value.asStr,String.join]

theorem join_itemsOf (chunks : List StreamChunk) :
    String.join (((itemsOf chunks).filterMap id).filterMap Value.asStr) = texts chunks := by
  induction chunks with
  | nil => rfl
  | cons chunk rest ih =>
    have split : itemsOf (chunk :: rest) = itemsOf [chunk] ++ itemsOf rest := by simp [itemsOf]
    have whole : texts (chunk :: rest) = texts [chunk] ++ texts rest := texts_append [chunk] rest
    rw [split,List.filterMap_append,List.filterMap_append,String.join_append,ih,whole]
    congr 1
    cases text : textOf chunk with
    | none => simp [itemsOf,texts,text,String.join]
    | some content =>
      have one : itemsOf [chunk] = textItem content := by simp [itemsOf,text]
      rw [one,join_textItem]
      simp [texts,text,String.join]

/-- Unmarked chunks fill the queue with their texts. -/
theorem pushed_unmarked (sessionId : String) (chunks : List StreamChunk) (unmarked : Unmarked chunks) :
    pushed ((chunks.filterMap forwardable).map (fun delta => heardOf (Streams.Entry.push sessionId (.chunk 0 delta)))) =
      itemsOf chunks := by
  induction chunks with
  | nil => rfl
  | cons chunk rest ih =>
    have later := ih (fun content member => unmarked content (List.mem_cons_of_mem chunk member))
    have split : itemsOf (chunk :: rest) = (textOf chunk).elim [] textItem ++ itemsOf rest := by simp [itemsOf]
    rw [split,← later]
    cases chunk with
    | text content isFinal =>
      obtain rfl : isFinal = false := by
        cases isFinal with
        | false => rfl
        | true => exact absurd List.mem_cons_self (unmarked content)
      by_cases empty : content = ""
      · simp [forwardable,empty,textOf,textItem]
      · rw [List.filterMap_cons_some (b := ⟨content,false⟩) (by simp [forwardable,empty]),List.map_cons,pushed,
          List.flatMap_cons,chunk_pushes]
        simp [textOf,pushed]
    | _ => rfl

theorem shown_unmarked (sessionId : String) (chunks : List StreamChunk) (outcome : Streams.Outcome)
    (unmarked : Unmarked chunks) : shown sessionId chunks outcome = texts chunks ++ closingText outcome := by
  rw [shown,notifications,pushed,List.flatMap_append,← pushed,pushed_unmarked sessionId chunks unmarked,
    tokens_append _ _ (itemsOf_plain chunks),List.flatMap_singleton,finish_pushes,tokens_append _ _ (textItem_plain _),
    List.filterMap_append,List.filterMap_append,String.join_append,String.join_append,join_itemsOf,join_textItem]
  simp [tokens,String.join]

/-- After the marked chunk nothing is shown. -/
theorem shown_marked (sessionId : String) (front rest : List StreamChunk) (outcome : Streams.Outcome)
    (unmarked : Unmarked front) : shown sessionId (front ++ .text "" true :: rest) outcome = texts front := by
  have marked : (StreamChunk.text "" true :: rest).filterMap forwardable = ⟨"",true⟩ :: rest.filterMap forwardable :=
    List.filterMap_cons_some (by simp [forwardable])
  rw [shown,notifications,pushed,List.filterMap_append,marked,List.map_append,List.map_cons,List.append_assoc,
    List.flatMap_append,← pushed,pushed_unmarked sessionId front unmarked,tokens_append _ _ (itemsOf_plain front),
    List.cons_append,List.flatMap_cons,chunk_pushes,List.filterMap_append,String.join_append,join_itemsOf]
  simp [tokens,textItem,String.join]

/-- Where the marked chunk stands in the chunks of a run with this result: next to the end of
one that stopped by itself, nowhere in any other. -/
def Marked (result : Except AgentError AgentResult) (chunks : List StreamChunk) : Prop :=
  (Unmarked chunks ∧ ∀ returned, result = .ok returned → returned.finishReason ≠ .stop) ∨
    ∃ front rest returned, chunks = front ++ .text "" true :: rest ∧ Unmarked front ∧ texts rest = "" ∧
      result = .ok returned ∧ returned.finishReason = .stop

theorem unmarked_append (first second : List StreamChunk) (one : Unmarked first) (other : Unmarked second) :
    Unmarked (first ++ second) := by
  intro content member
  rcases List.mem_append.mp member with left | right
  · exact one content left
  · exact other content right

theorem marked_append (result : Except AgentError AgentResult) (first second : List StreamChunk)
    (unmarked : Unmarked first) (marked : Marked result second) : Marked result (first ++ second) := by
  rcases marked with ⟨plain,other⟩ | ⟨front,rest,returned,rfl,plain,silent,same,stopped⟩
  · exact .inl ⟨unmarked_append first second unmarked plain,other⟩
  · exact .inr ⟨first ++ front,rest,returned,(List.append_assoc _ _ _).symm,unmarked_append first front unmarked plain,
      silent,same,stopped⟩

theorem flush_unmarked (assembly : Assembly) : Unmarked (flush assembly).2 := by
  intro content
  unfold flush
  cases assembly.partialId with
  | none => simp
  | some id => simp

theorem takeToolCall_unmarked (piece : ToolCall) (assembly : Assembly) : Unmarked (takeToolCall piece assembly).2 := by
  intro content
  unfold takeToolCall
  have flushed := flush_unmarked assembly content
  by_cases new : piece.id ≠ assembly.partialId.getD ""
  · by_cases named : piece.id ≠ ""
    · simpa [new,named] using flushed
    · simpa [new,named] using flushed
  · simp [new]

theorem takeText_unmarked (content : Option String) (assembly : Assembly) : Unmarked (takeText content assembly).2 := by
  intro other
  unfold takeText
  cases content with
  | none => simp
  | some text =>
    by_cases empty : text = ""
    · simp [empty]
    · simp [empty]

theorem takeDelta_unmarked (delta : Delta) (assembly : Assembly) : Unmarked (takeDelta delta assembly).2 := by
  unfold takeDelta
  cases delta.toolCall with
  | none => exact takeText_unmarked _ _
  | some piece => exact unmarked_append _ _ (takeText_unmarked _ _) (takeToolCall_unmarked _ _)

theorem drained_unmarked (items : List (Except ProviderError Delta)) (start : Assembly) : Unmarked (drained items start) := by
  induction items generalizing start with
  | nil => exact flush_unmarked start
  | cons item rest ih =>
    cases item with
    | error error => intro content; simp [drained]
    | ok delta => exact unmarked_append _ _ (takeDelta_unmarked delta start) (ih _)

theorem callChunks_unmarked (loop : AgentLoop) (request : Nat) (calls : List ToolCall) :
    Unmarked (callChunks loop request calls) := by
  intro content member
  have silent := (callChunks_outcomes loop request calls _ member).2.1
  simp [textOf] at silent

theorem finish_marked (reason : FinishReason) (returned : AgentResult) (same : returned.finishReason = reason)
    (other : reason ≠ .stop) (front : List StreamChunk) (unmarked : Unmarked front) :
    Marked (.ok returned) (front ++ [.finish reason]) := by
  refine .inl ⟨unmarked_append front _ unmarked (fun content => by simp),?_⟩
  rintro result equal
  obtain rfl := Except.ok.inj equal
  exact same ▸ other

theorem stopReason_other (loop : AgentLoop) (state : LoopState) (reason : FinishReason)
    (stopped : stopReason loop state = some reason) : reason ≠ .stop := by
  unfold stopReason at stopped
  split_ifs at stopped
  · rw [← Option.some.inj stopped]; simp
  · rw [← Option.some.inj stopped]; simp
  · rw [← Option.some.inj stopped]; simp

/-- A turn that goes on sends no marked chunk; one that ends the run sends it as the run's result says. -/
theorem emitted_marked (loop : AgentLoop) (talk : Talk) :
    (exchange loop (streamAsk loop) talk).elim (fun _ => Unmarked (emitted loop talk))
      (fun ending => Marked ending.1 (emitted loop talk)) := by
  rcases exchange_cases loop (streamAsk loop) talk with
    ⟨reason,stopped,ended⟩ | ⟨free,⟨error,given,failed⟩ | ⟨reply,given,heard⟩⟩
  · rw [ended,emitted,stopped]
    exact finish_marked reason _ rfl (stopReason_other loop _ reason stopped) [] (fun content => List.not_mem_nil)
  · rw [failed,emitted,free]
    have plain : ∀ message, Unmarked [StreamChunk.error message] := fun message content => by simp
    unfold streamAsk at given
    cases opened : loop.provider.completeStream talk.requests.length talk.history loop.options with
    | error refused => exact .inl ⟨plain _,by simp⟩
    | ok items =>
      refine .inl ⟨unmarked_append _ _ (drained_unmarked items .empty) ?_,by simp⟩
      cases broken : assemble items .empty with
      | error first => exact fun content => List.not_mem_nil
      | ok assembly => simp [opened,broken,Except.map] at given
  · obtain ⟨items,assembly,opened,assembled,rfl⟩ := streamAsk_ok loop _ _ reply given
    rw [heard,emitted,free]
    simp only [opened,streamed,assembled]
    have front := drained_unmarked items .empty
    by_cases spent : loop.config.spent (talk.spend (replyOf assembly).usage).loopState.usage = true
    · rw [hear_spent loop _ _ ((talk.request loop.options).say [.awaitingLLM]) spent,closingChunks,if_pos spent]
      exact finish_marked .tokenBudget _ rfl (by simp) _ front
    · by_cases calls : (replyOf assembly).calls ≠ [] ∧ loop.config.toolUseEnabled = true
      · rw [hear_calls loop _ _ ((talk.request loop.options).say [.awaitingLLM]) spent calls,closingChunks,if_neg spent,
          if_pos calls]
        exact unmarked_append _ _ front (callChunks_unmarked loop _ _)
      · rw [hear_stop loop _ _ ((talk.request loop.options).say [.awaitingLLM]) spent calls,closingChunks,if_neg spent,
          if_neg calls]
        exact .inr ⟨_,_,_,rfl,front,rfl,rfl,rfl⟩

theorem emittedFrom_marked (loop : AgentLoop) (fuel : Nat) (talk : Talk) (ending : Ending)
    (ended : iterate (exchange loop (streamAsk loop)) fuel talk = some ending) :
    Marked ending.1 (emittedFrom loop fuel talk).flatten := by
  induction fuel generalizing talk with
  | zero => simp [iterate] at ended
  | succ fuel ih =>
    have marked := emitted_marked loop talk
    cases went : exchange loop (streamAsk loop) talk with
    | inl next =>
      rw [went] at marked
      simp only [iterate,went] at ended
      simp only [emittedFrom,went,Sum.elim_inl,List.flatten_cons]
      exact marked_append ending.1 _ _ marked (ih next ended)
    | inr last =>
      rw [went] at marked
      simp only [iterate,went,Option.some.injEq] at ended
      subst ended
      simpa only [emittedFrom,went,Sum.elim_inr,List.flatten_cons,List.flatten_nil,List.append_nil] using marked

/-- What follows the texts of the replies: the text of a returned run's last message, unless
the run stopped by itself. -/
def repeated : Except AgentError AgentResult → String
  | .ok returned => if returned.finishReason = .stop then "" else returned.content
  | .error _ => ""

/-- Of every streamed run the consumer is shown the texts of the replies, once; where the run
returned without stopping by itself, the text of the last message follows once more. -/
theorem shown_of_run (display : AgentError → String) (sessionId : String) (loop : AgentLoop) (message : String) (vars : Vars) :
    ∃ result last, Loop.Streaming.runStreaming loop message vars = some (result,last) ∧
      shown sessionId last.chunks (outcome display result) = texts last.chunks ++ repeated result ∧
      ∀ returned, result = .ok returned →
        ∃ appended, last.history = vars.history ++ appended ∧ texts last.chunks = spoken appended := by
  obtain ⟨started,began,stands⟩ := begin_stands message vars
  obtain ⟨ending,ends⟩ := converse_ends loop (streamAsk loop) message (talkOf vars)
  have refines := runStreaming_refines loop message vars
  rw [ends] at refines
  obtain ⟨⟨result,last⟩,ran,same,talked⟩ := rel_some refines
  obtain rfl : result = ending.1 := same
  have chunks : last.chunks = (emittedFrom loop (loop.config.maxTurns + 1) (start message (talkOf vars))).flatten := by
    have run := ran
    rw [Loop.Streaming.runStreaming,runWith,began] at run
    have total := (iterate_emits loop (loop.config.maxTurns + 1) started _ stands).2 _ run
    have fresh : started.chunks = [] := by
      cases began
      rfl
    rw [fresh] at total
    exact total
  have marked := emittedFrom_marked loop _ _ ending ends
  obtain ⟨-,said⟩ := (emittedFrom_protocol loop (loop.config.maxTurns + 1) (start message (talkOf vars))).2 ending ends
  rw [← chunks] at marked said
  refine ⟨ending.1,last,ran,?_,?_⟩
  · rcases marked with ⟨plain,other⟩ | ⟨front,rest,returned,parts,plain,silent,finished,stopped⟩
    · rw [shown_unmarked sessionId _ _ plain]
      cases result : ending.1 with
      | error error => rfl
      | ok returned =>
        rw [repeated,if_neg (other returned result)]
        rfl
    · rw [parts,shown_marked sessionId front rest _ plain,finished,repeated,if_pos stopped]
      have whole : texts (front ++ .text "" true :: rest) = texts front ++ texts (.text "" true :: rest) := texts_append _ _
      have marker : texts (.text "" true :: rest) = texts [.text "" true] ++ texts rest := texts_append [_] rest
      rw [whole,marker,silent]
      simp [texts,textOf,String.join]
  · intro returned finished
    obtain ⟨replies,onward,text⟩ := said returned finished
    have history : last.history = ending.2.history := congrArg Talk.history talked
    refine ⟨.user message :: replies,?_,?_⟩
    · exact history.trans (onward.trans (List.append_assoc _ _ _))
    · rw [text]
      simp [spoken,Message.user]

end ClawKernel.Sdk.Answers
