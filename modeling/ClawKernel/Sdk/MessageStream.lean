import ClawKernel.Lib.Runs
import ClawKernel.Sdk.KernelClient

/-! The generator of the TypeScript client's `sendMessage`: a listener that fills a queue
with what the session's notifications bring, and a consumer that is asked for one token
after another and sleeps where the queue is empty.
-/
namespace ClawKernel.Sdk.MessageStream
open Lib.Json Lib.Runs
open Sdk.KernelClient (falsy)

/-- A notification as the listeners get it. -/
structure Heard where
  method : String
  params : Value

/-- An item of the queue; `none` is the end of the stream. -/
abbrev Item := Option Value

def truthy (value : Option Value) : Bool :=
  match value with
  | some value => !falsy value
  | none => false

def token (value : Option Value) : List Item := if truthy value then value.toList.map some else []

/-- What the listener pushes for a notification of its own session. -/
def pushes (heard : Heard) : List Item :=
  if heard.method = "agent/streamChunk" then
    token (heard.params.get "delta") ++ if truthy (heard.params.get "done") then [none] else []
  else if heard.method = "agent/finish" then token (heard.params.get "content") ++ [none]
  else []

/-- `p?.session_id !== sessionId`. -/
def concerns (sessionId : String) (heard : Heard) : Bool :=
  match heard.params.get "session_id" with
  | some (.string id) => id = sessionId
  | _ => false

/-- Where the generator is: before its first `next`, at the call, at the head of its loop,
asleep, woken, at a `yield`, at its end, or left by an error or by its consumer. -/
inductive Phase where
  | created
  | calling
  | resumed
  | asleep
  | woken
  | yielded
  | ended
  | threw
  | returned
  deriving DecidableEq, Repr

/-- A token `none` is the `undefined` that an empty queue would give; `heard` are the
notifications of the session that the listener got. -/
structure Generator where
  phase : Phase
  queue : List Item
  yields : List (Option Value)
  heard : List Heard

def sendMessage : Generator := ⟨.created,[],[],[]⟩

def Generator.listening (g : Generator) : Bool :=
  match g.phase with
  | .created => false
  | .ended => false
  | .threw => false
  | .returned => false
  | _ => true

/-- From `queue.shift()` on. -/
def shift (g : Generator) : Generator :=
  match g.queue with
  | [] => {g with phase := .yielded, yields := g.yields ++ [none]}
  | none :: rest => {g with phase := .ended, queue := rest}
  | some value :: rest => {g with phase := .yielded, queue := rest, yields := g.yields ++ [some value]}

/-- The head of the loop. -/
def head (g : Generator) : Generator := if g.queue.isEmpty then {g with phase := .asleep} else shift g

/-- The consumer asks for a token or leaves, the call is answered or fails, a notification
comes, a continuation gets its turn, and the connection ends. -/
inductive Act where
  | next
  | leave
  | accepted
  | refused
  | notify (heard : Heard)
  | turn
  | disconnected

def step (sessionId : String) (g : Generator) : Act → Generator
  | .next =>
    match g.phase with
    | .created => {g with phase := .calling}
    | .yielded => {g with phase := .resumed}
    | _ => g
  | .leave => if g.phase = .created ∨ g.phase = .yielded then {g with phase := .returned} else g
  | .accepted => if g.phase = .calling then {g with phase := .resumed} else g
  | .refused => if g.phase = .calling then {g with phase := .threw} else g
  | .notify heard =>
    if g.listening ∧ concerns sessionId heard then
      {g with
        queue := g.queue ++ pushes heard
        heard := g.heard ++ [heard]
        phase := if g.phase = .asleep ∧ pushes heard ≠ [] then .woken else g.phase}
    else g
  | .turn =>
    match g.phase with
    | .resumed => head g
    | .woken => shift g
    | _ => g
  -- the promises of the connection are rejected, that of the call among them
  | .disconnected => if g.phase = .calling then {g with phase := .threw} else g

/-- All that was pushed, and of it what comes before the first end. -/
def pushed (heard : List Heard) : List Item := heard.flatMap pushes

def tokens (items : List Item) : List Value := (items.takeWhile Option.isSome).filterMap id

theorem tokens_append (first second : List Item) (unended : none ∉ first) :
    tokens (first ++ second) = first.filterMap id ++ tokens second := by
  have all : ∀ item ∈ first, item.isSome = true := fun item member =>
    Option.isSome_iff_ne_none.mpr (fun same => unended (same ▸ member))
  rw [tokens,List.takeWhile_append_of_pos all,List.filterMap_append]
  rfl

/-- The tokens yielded are those shifted from the queue, of which none was the end before the
generator's own; a generator sleeps only on an empty queue and is woken only on a full one. -/
structure Fair (g : Generator) : Prop where
  taken : ∃ shifted, pushed g.heard = shifted ++ (if g.phase = .ended then [none] else []) ++ g.queue ∧
    none ∉ shifted ∧ g.yields = (shifted.filterMap id).map some
  asleep : g.phase = .asleep → g.queue = []
  woken : g.phase = .woken → g.queue ≠ []

theorem fair_phase (g : Generator) (phase : Phase) (fair : Fair g) (before : g.phase ≠ .ended) (after : phase ≠ .ended)
    (asleep : phase = .asleep → g.queue = []) (woken : phase = .woken → g.queue ≠ []) : Fair {g with phase := phase} := by
  obtain ⟨shifted,parts,plain,yields⟩ := fair.taken
  rw [if_neg before] at parts
  exact ⟨⟨shifted,by rw [if_neg after]; exact parts,plain,yields⟩,asleep,woken⟩

theorem shift_fair (g : Generator) (fair : Fair g) (before : g.phase ≠ .ended) (items : g.queue ≠ []) : Fair (shift g) := by
  obtain ⟨shifted,parts,plain,yields⟩ := fair.taken
  rw [if_neg before,List.append_nil] at parts
  unfold shift
  split
  · next empty => exact absurd empty items
  · next rest same =>
    refine ⟨⟨shifted,?_,plain,yields⟩,by simp,by simp⟩
    rw [if_pos rfl,List.append_assoc]
    exact parts.trans (congrArg (shifted ++ ·) same)
  · next value rest same =>
    refine ⟨⟨shifted ++ [some value],?_,?_,?_⟩,by simp,by simp⟩
    · rw [if_neg (by simp),List.append_nil,List.append_assoc]
      exact parts.trans (congrArg (shifted ++ ·) same)
    · simpa using plain
    · simp [yields]

theorem head_fair (g : Generator) (fair : Fair g) (before : g.phase ≠ .ended) : Fair (head g) := by
  unfold head
  split_ifs with empty
  · exact fair_phase g .asleep fair before (by simp) (fun _ => List.isEmpty_iff.mp empty) (by simp)
  · exact shift_fair g fair before (fun none => empty (List.isEmpty_iff.mpr none))

theorem notify_fair (g : Generator) (heard : Heard) (fair : Fair g) (before : g.phase ≠ .ended) :
    Fair {g with
      queue := g.queue ++ pushes heard
      heard := g.heard ++ [heard]
      phase := if g.phase = .asleep ∧ pushes heard ≠ [] then .woken else g.phase} := by
  obtain ⟨shifted,parts,plain,yields⟩ := fair.taken
  rw [if_neg before,List.append_nil] at parts
  have unended : (if g.phase = .asleep ∧ pushes heard ≠ [] then Phase.woken else g.phase) ≠ .ended := by
    split_ifs
    · simp
    · exact before
  refine ⟨⟨shifted,?_,plain,yields⟩,?_,?_⟩
  · rw [if_neg unended,List.append_nil,pushed,List.flatMap_append,← pushed,parts]
    simp
  · intro sleeps
    simp only at sleeps
    split_ifs at sleeps with wakes
    · have silent : pushes heard = [] := by
        by_contra some
        exact wakes ⟨sleeps,some⟩
      rw [fair.asleep sleeps,silent]
      rfl
  · intro wakes empty
    obtain ⟨old,new⟩ := List.append_eq_nil_iff.mp empty
    simp only [new,ne_eq,not_true_eq_false,and_false,if_false] at wakes
    exact fair.woken wakes old

theorem step_fair (sessionId : String) (g : Generator) (act : Act) (fair : Fair g) : Fair (step sessionId g act) := by
  cases act with
  | next =>
    simp only [step]
    split
    · next at_ => exact fair_phase g .calling fair (by simp [at_]) (by simp) (by simp) (by simp)
    · next at_ => exact fair_phase g .resumed fair (by simp [at_]) (by simp) (by simp) (by simp)
    · exact fair
  | leave =>
    simp only [step]
    split_ifs with at_
    · exact fair_phase g .returned fair (by rcases at_ with at_ | at_ <;> simp [at_]) (by simp) (by simp) (by simp)
    · exact fair
  | accepted =>
    simp only [step]
    split_ifs with at_
    · exact fair_phase g .resumed fair (by simp [at_]) (by simp) (by simp) (by simp)
    · exact fair
  | refused =>
    simp only [step]
    split_ifs with at_
    · exact fair_phase g .threw fair (by simp [at_]) (by simp) (by simp) (by simp)
    · exact fair
  | notify heard =>
    simp only [step]
    by_cases own : g.listening = true ∧ concerns sessionId heard = true
    · rw [if_pos own]
      refine notify_fair g heard fair ?_
      intro ended
      simp [Generator.listening,ended] at own
    · rw [if_neg own]
      exact fair
  | turn =>
    simp only [step]
    split
    · next at_ => exact head_fair g fair (by simp [at_])
    · next at_ => exact shift_fair g fair (by simp [at_]) (fair.woken at_)
    · exact fair
  | disconnected =>
    simp only [step]
    split_ifs with at_
    · exact fair_phase g .threw fair (by simp [at_]) (by simp) (by simp) (by simp)
    · exact fair

/-- In every run the consumer is given the tokens pushed before the first end and no others, in
order: some of them so far, all that have come while the generator sleeps, and all of them
where it has ended, which it does only at an end. -/
theorem yields_tokens (sessionId : String) (acts : List Act) :
    ∃ rest, (tokens (pushed (run (step sessionId) sendMessage acts).heard)).map some =
        (run (step sessionId) sendMessage acts).yields ++ rest ∧
      ((run (step sessionId) sendMessage acts).phase = .asleep →
        rest = [] ∧ none ∉ pushed (run (step sessionId) sendMessage acts).heard) ∧
      ((run (step sessionId) sendMessage acts).phase = .ended →
        rest = [] ∧ none ∈ pushed (run (step sessionId) sendMessage acts).heard) := by
  have fair : Fair (run (step sessionId) sendMessage acts) :=
    run_always (step sessionId) Fair (step_fair sessionId) sendMessage acts ⟨⟨[],rfl,by simp,rfl⟩,by simp [sendMessage],by simp [sendMessage]⟩
  generalize run (step sessionId) sendMessage acts = g at fair
  obtain ⟨shifted,parts,plain,yields⟩ := fair.taken
  rw [List.append_assoc] at parts
  refine ⟨(tokens ((if g.phase = .ended then [none] else []) ++ g.queue)).map some,?_,?_,?_⟩
  · rw [parts,tokens_append _ _ plain,yields,List.map_append]
  · intro sleeps
    rw [fair.asleep sleeps,if_neg (by simp [sleeps])] at parts ⊢
    refine ⟨rfl,?_⟩
    rw [parts]
    simpa using plain
  · intro ended
    rw [if_pos ended] at parts ⊢
    refine ⟨rfl,?_⟩
    rw [parts]
    simp

/-- A generator asleep when its connection is lost sleeps for good: it neither ends nor throws. -/
theorem asleep_for_good (sessionId : String) (g : Generator) (sleeps : g.phase = .asleep) (acts : List Act)
    (silent : ∀ heard, .notify heard ∉ acts) : run (step sessionId) g acts = g := by
  induction acts with
  | nil => rfl
  | cons act rest ih =>
    have stays : step sessionId g act = g := by
      cases act with
      | notify heard => exact absurd List.mem_cons_self (silent heard)
      | _ => simp [step,sleeps]
    rw [run,List.foldl_cons,stays]
    exact ih (fun heard member => silent heard (List.mem_cons_of_mem act member))

end ClawKernel.Sdk.MessageStream
