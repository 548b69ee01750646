import ClawKernel.Lib.Broadcast
import ClawKernel.Server.EventTrigger
import Mathlib.Data.List.Count

/-! The events bridge of a script: the callbacks it registers, the events it emits, and the
poll that hands the events of the bus to the callbacks. A callback may do all of this itself
while the poll that called it waits, so that the polls under way form a stack.
-/
namespace ClawKernel.Script.Events
open Lib Lib.Runs
open Lib.Broadcast (Channel recv send)
open Server.EventTrigger (Event)

def eventToParts : Event → String × Json.Value
  | .agentStarted agentId => ("agent_started",.object [("agent_id",.string agentId)])
  | .agentStopped agentId reason => ("agent_stopped",.object [("agent_id",.string agentId),("reason",.string reason)])
  | .llmRequestStarted agentId provider =>
    ("llm_request_started",.object [("agent_id",.string agentId),("provider",.string provider)])
  | .llmRequestCompleted agentId prompt completion =>
    ("llm_request_completed",.object [("agent_id",.string agentId),("completion_tokens",.integer completion),
      ("prompt_tokens",.integer prompt)])
  | .messageReceived agentId channel messageType =>
    ("message_received",.object [("agent_id",.string agentId),("channel",.string channel),
      ("message_type",.string messageType)])
  | .toolCalled agentId toolName callId =>
    ("tool_called",.object [("agent_id",.string agentId),("call_id",.string callId),("tool_name",.string toolName)])
  | .toolResult agentId toolName callId success =>
    ("tool_result",.object [("agent_id",.string agentId),("call_id",.string callId),("success",.bool success),
      ("tool_name",.string toolName)])
  | .contextWindowApproachingLimit agentId count limit =>
    ("context_window_approaching_limit",.object [("agent_id",.string agentId),("token_count",.integer count),
      ("token_limit",.integer limit)])
  | .memoryArchiveComplete agentId count =>
    ("memory_archive_complete",.object [("agent_id",.string agentId),("archived_count",.integer count)])
  | .modeChanged agentId toPowerMode =>
    ("mode_changed",.object [("agent_id",.string agentId),("to_power_mode",.bool toPowerMode)])
  | .shutdown => ("shutdown",.object [])
  | .extension _ => ("extension",.object [])
  | .custom eventType data => (eventType,data)
  | _ => ("unknown",.object [])

def wildcard : String := "*"

/-- The lists `poll` looks for callbacks in. -/
def matchKeys (event : Event) : List String := [(eventToParts event).1,wildcard]

/-- The function is nil once a one-shot callback is spent. -/
structure Entry (φ : Type) where
  fn : Option φ
  once : Bool

/-- The call of the callback at an index of a list for the event with a number. -/
structure Call where
  delivery : Nat
  key : String
  index : Nat
deriving DecidableEq

/-- What the loops of a poll have still to come to. -/
inductive Task where
  | receive
  | event (delivery : Nat) (taken : Event)
  | key (delivery : Nat) (key : String)
  | entry (call : Call)

/-- A poll under way: how many callbacks each list had when it began, what it has to do, and
the callback it has called, with the mark it read before the call. -/
structure Frame where
  registered : String → Nat
  todo : List Task
  running : Option (Call × Bool)

/-- An event a poll has taken from the bus. -/
structure Polled where
  event : Event
  registered : String → Nat

/-- The polled events, which count from 0, and the calls are kept for good. -/
structure State (φ : Type) where
  channel : Channel Event
  next : Nat
  callbacks : String → List (Entry φ)
  stack : List Frame
  polled : List Polled
  calls : List Call

/-- An event published elsewhere, what the script does, at top level or in the callback
that runs, the return of this callback, by an error too, and a step of the poll on top. -/
inductive Act (φ : Type) where
  | publish (event : Event)
  | on (eventType : String) (callback : φ)
  | once (eventType : String) (callback : φ)
  | emit (eventType : String) (data : Option Json.Value)
  | poll
  | ret
  | turn

section Bridge
variable {φ : Type}

def new (channel : Channel Event) : State φ := ⟨channel,channel.sent.length,fun _ => [],[],[],[]⟩

/-- The script is at work, and not the bridge. -/
def State.scripted (s : State φ) : Bool :=
  match s.stack with
  | [] => true
  | frame :: _ => frame.running.isSome

def push (callbacks : String → List (Entry φ)) (eventType : String) (entry : Entry φ) : String → List (Entry φ) :=
  fun key => if key = eventType then callbacks key ++ [entry] else callbacks key

def spend (callbacks : String → List (Entry φ)) (call : Call) : String → List (Entry φ) :=
  fun key => if key = call.key then (callbacks key).modify call.index (fun entry => {entry with fn := none})
    else callbacks key

def State.register (s : State φ) (eventType : String) (callback : φ) (once : Bool) : State φ :=
  if s.scripted then {s with callbacks := push s.callbacks eventType ⟨some callback,once⟩} else s

/-- The poll on top goes on with these tasks. -/
def State.goOn (s : State φ) (frame : Frame) (below : List Frame) (todo : List Task) : State φ :=
  {s with stack := {frame with todo := todo} :: below}

variable (slots : Nat)

/-- One task of the poll on top. `receive` ends with the first error `try_recv` gives, and
the events it has taken are then gone through. -/
def work (s : State φ) (frame : Frame) (below : List Frame) (rest : List Task) : Task → State φ
  | .receive =>
    match recv slots s.channel s.next with
    | some (.event event,next) =>
      {s with
        next := next
        polled := s.polled ++ [⟨event,frame.registered⟩]
        stack := {frame with todo := .receive :: rest ++ [.event s.polled.length event]} :: below}
    | some (_,next) => {s with next := next, stack := {frame with todo := rest} :: below}
    | none => s.goOn frame below rest
  | .event delivery event => s.goOn frame below ((matchKeys event).map (.key delivery) ++ rest)
  | .key delivery key =>
    -- the length is read once, when the poll comes to the list
    s.goOn frame below ((List.range (s.callbacks key).length).map (fun i => .entry ⟨delivery,key,i⟩) ++ rest)
  | .entry call =>
    match (s.callbacks call.key)[call.index]? with
    | some ⟨some _,once⟩ =>
      {s with
        calls := s.calls ++ [call]
        stack := {frame with todo := rest, running := some (call,once)} :: below}
    | _ => s.goOn frame below rest

def turn (s : State φ) : State φ :=
  match s.stack with
  | [] => s
  | frame :: below =>
    match frame.running, frame.todo with
    | some _, _ => s
    | none, [] => {s with stack := below}
    | none, task :: rest => work slots s frame below rest task

def ret (s : State φ) : State φ :=
  match s.stack with
  | [] => s
  | frame :: below =>
    match frame.running with
    | none => s
    | some (call,once) =>
      {s with
        callbacks := if once then spend s.callbacks call else s.callbacks
        stack := {frame with running := none} :: below}

def poll (s : State φ) : State φ :=
  if s.scripted then {s with stack := ⟨fun key => (s.callbacks key).length,[.receive],none⟩ :: s.stack} else s

def emit (s : State φ) (eventType : String) (data : Option Json.Value) : State φ :=
  if s.scripted then {s with channel := send s.channel [.custom eventType (data.getD (.object []))]} else s

def step (s : State φ) : Act φ → State φ
  | .publish event => {s with channel := send s.channel [event]}
  | .on eventType callback => s.register eventType callback false
  | .once eventType callback => s.register eventType callback true
  | .emit eventType data => emit s eventType data
  | .poll => poll s
  | .ret => ret s
  | .turn => turn slots s

def State.total (s : State φ) (key : String) (index : Nat) : Nat :=
  s.calls.countP (fun call => call.key = key ∧ call.index = index)

def Task.delivery : Task → Option Nat
  | .receive => none
  | .event delivery _ => some delivery
  | .key delivery _ => some delivery
  | .entry call => some call.delivery

/-- A poll has still to go through some list for the event. -/
def State.Waits (s : State φ) (delivery : Nat) : Prop :=
  ∃ frame ∈ s.stack, ∃ task ∈ frame.todo, task.delivery = some delivery

/-- No one-shot callback has been called twice. Each event that a poll is done with has
called each callback that was registered for its type or the wildcard before the poll once;
of a one-shot callback there is one call, by this event or by one it was spent on. -/
structure ExactlyOnce (s : State φ) : Prop where
  once : ∀ key index entry, (s.callbacks key)[index]? = some entry → entry.once = true → s.total key index ≤ 1
  lasting : ∀ delivery p, s.polled[delivery]? = some p → ∀ key ∈ matchKeys p.event, ∀ index < p.registered key,
    ∀ entry, (s.callbacks key)[index]? = some entry → entry.once = false →
      s.calls.count ⟨delivery,key,index⟩ ≤ 1 ∧ (¬s.Waits delivery → s.calls.count ⟨delivery,key,index⟩ = 1)
  live : ∀ delivery p, s.polled[delivery]? = some p → ∀ key ∈ matchKeys p.event, ∀ index < p.registered key,
    ∀ entry, (s.callbacks key)[index]? = some entry → entry.once = true → ¬s.Waits delivery → s.total key index = 1

/-- The event the poll on top is about to take, and that poll. -/
def State.arriving (s : State φ) : Option (Event × Frame × List Frame) :=
  match s.stack with
  | [] => none
  | frame :: below =>
    match frame.running, frame.todo with
    | none, .receive :: _ =>
      match recv slots s.channel s.next with
      | some (.event event,_) => some (event,frame,below)
      | _ => none
    | _, _ => none

/-- The condition on a step: the event that a poll takes is none that a one-shot callback
running below this poll is registered for, and if its type is the wildcard itself then no
lasting callback was registered for the wildcard before the poll. -/
def Single (s : State φ) : Act φ → Prop
  | .turn => ∀ event frame below, s.arriving slots = some (event,frame,below) →
      (∀ other ∈ below, ∀ call, other.running = some (call,true) → call.key ∉ matchKeys event) ∧
      ((eventToParts event).1 = wildcard → ∀ index < frame.registered wildcard, ∀ entry,
        (s.callbacks wildcard)[index]? = some entry → entry.once = true)
  | _ => True

/-- Whether the callback at an index is a one-shot one. -/
def onceAt (callbacks : String → List (Entry φ)) (key : String) (index : Nat) : Option Bool :=
  (callbacks key)[index]?.map Entry.once

/-- What is kept whatever the steps are. -/
structure Sound (s : State φ) : Prop where
  frames : ∀ frame ∈ s.stack, ∀ key, frame.registered key ≤ (s.callbacks key).length
  polled : ∀ p ∈ s.polled, ∀ key, p.registered key ≤ (s.callbacks key).length
  calls : ∀ call ∈ s.calls, call.delivery < s.polled.length ∧ call.index < (s.callbacks call.key).length
  tasks : ∀ frame ∈ s.stack, ∀ task ∈ frame.todo, ∀ d, task.delivery = some d → d < s.polled.length
  running : ∀ frame ∈ s.stack, ∀ call once, frame.running = some (call,once) →
    call ∈ s.calls ∧ onceAt s.callbacks call.key call.index = some once
  alive : ∀ key, ∀ entry ∈ s.callbacks key, entry.once = false → entry.fn.isSome = true

theorem sound_table (s : State φ) (callbacks : String → List (Entry φ)) (sound : Sound s)
    (longer : ∀ key, (s.callbacks key).length ≤ (callbacks key).length)
    (kept : ∀ key index once, onceAt s.callbacks key index = some once → onceAt callbacks key index = some once)
    (alive : ∀ key, ∀ entry ∈ callbacks key, entry.once = false → entry.fn.isSome = true) :
    Sound {s with callbacks := callbacks} where
  frames frame member key := (sound.frames frame member key).trans (longer key)
  polled p member key := (sound.polled p member key).trans (longer key)
  calls call member := ⟨(sound.calls call member).1,(sound.calls call member).2.trans_le (longer call.key)⟩
  tasks := sound.tasks
  running frame member call once runs :=
    ⟨(sound.running frame member call once runs).1,kept _ _ _ (sound.running frame member call once runs).2⟩
  alive := alive

/-- The stack after a step of the poll on top, or of the callback it runs. -/
theorem sound_top (s : State φ) (frame after : Frame) (below : List Frame) (sound : Sound s)
    (stack : s.stack = frame :: below) (same : after.registered = frame.registered)
    (known : ∀ task ∈ after.todo, ∀ d, task.delivery = some d → d < s.polled.length)
    (runs : ∀ call once, after.running = some (call,once) →
      call ∈ s.calls ∧ onceAt s.callbacks call.key call.index = some once) :
    Sound {s with stack := after :: below} where
  frames other member key := by
    rcases List.mem_cons.mp member with rfl | within
    · rw [same]
      exact sound.frames frame (stack ▸ List.mem_cons_self) key
    · exact sound.frames other (stack ▸ List.mem_cons_of_mem _ within) key
  polled := sound.polled
  calls := sound.calls
  tasks other member := by
    rcases List.mem_cons.mp member with rfl | within
    · exact known
    · exact sound.tasks other (stack ▸ List.mem_cons_of_mem _ within)
  running other member := by
    rcases List.mem_cons.mp member with rfl | within
    · exact runs
    · exact sound.running other (stack ▸ List.mem_cons_of_mem _ within)
  alive := sound.alive

theorem sound_bus (s : State φ) (channel : Channel Event) (next : Nat) (sound : Sound s) :
    Sound {s with channel := channel, next := next} :=
  ⟨sound.frames,sound.polled,sound.calls,sound.tasks,sound.running,sound.alive⟩

theorem sound_goOn (s : State φ) (frame : Frame) (below : List Frame) (todo : List Task) (sound : Sound s)
    (stack : s.stack = frame :: below)
    (known : ∀ task ∈ todo, ∀ d, task.delivery = some d → d < s.polled.length) : Sound (s.goOn frame below todo) :=
  sound_top s frame {frame with todo := todo} below sound stack rfl known
    (sound.running frame (stack ▸ List.mem_cons_self))

theorem getElem?_push (callbacks : String → List (Entry φ)) (eventType : String) (new : Entry φ) (key : String)
    (index : Nat) : (push callbacks eventType new key)[index]? =
      if key = eventType ∧ index = (callbacks key).length then some new else (callbacks key)[index]? := by
  unfold push
  by_cases same : key = eventType
  · simp only [same,if_true,true_and,List.getElem?_append,List.getElem?_singleton]
    grind
  · simp [same]

theorem getElem?_spend (callbacks : String → List (Entry φ)) (call : Call) (key : String) (index : Nat) :
    (spend callbacks call key)[index]? = (callbacks key)[index]?.map (fun entry =>
      if key = call.key ∧ index = call.index then {entry with fn := none} else entry) := by
  unfold spend
  by_cases same : key = call.key
  · simp only [same,if_true,true_and,List.getElem?_modify]
    by_cases at_ : index = call.index
    · simp [at_]
    · simp [at_,Ne.symm at_]
  · simp [same]

theorem onceAt_spend (callbacks : String → List (Entry φ)) (call : Call) (key : String) (index : Nat) :
    onceAt (spend callbacks call) key index = onceAt callbacks key index := by
  unfold onceAt
  rw [getElem?_spend,Option.map_map]
  congr 1
  funext entry
  simp only [Function.comp_apply]
  split <;> rfl

theorem length_spend (callbacks : String → List (Entry φ)) (call : Call) (key : String) :
    (spend callbacks call key).length = (callbacks key).length := by
  unfold spend
  split
  · exact List.length_modify ..
  · rfl

theorem length_push (callbacks : String → List (Entry φ)) (eventType : String) (new : Entry φ) (key : String) :
    (callbacks key).length ≤ (push callbacks eventType new key).length := by
  unfold push
  split
  · simp
  · exact le_rfl

theorem onceAt_push (callbacks : String → List (Entry φ)) (eventType : String) (new : Entry φ) (key : String)
    (index : Nat) (once : Bool) (found : onceAt callbacks key index = some once) :
    onceAt (push callbacks eventType new) key index = some once := by
  unfold onceAt at found ⊢
  obtain ⟨entry,there,rfl⟩ := Option.map_eq_some_iff.mp found
  have within := (List.getElem?_eq_some_iff.mp there).1
  rw [getElem?_push,if_neg (fun same => Nat.ne_of_lt within same.2),there]
  rfl

theorem sound_push (s : State φ) (eventType : String) (callback : φ) (once : Bool) (sound : Sound s) :
    Sound {s with callbacks := push s.callbacks eventType ⟨some callback,once⟩} := by
  refine sound_table s _ sound (length_push _ _ _) (onceAt_push _ _ _) ?_
  intro key entry member lasting
  unfold push at member
  split at member
  · rcases List.mem_append.mp member with earlier | last
    · exact sound.alive key entry earlier lasting
    · rw [List.mem_singleton.mp last]
      rfl
  · exact sound.alive key entry member lasting

theorem sound_spend (s : State φ) (call : Call) (sound : Sound s)
    (spent : onceAt s.callbacks call.key call.index = some true) :
    Sound {s with callbacks := spend s.callbacks call} := by
  refine sound_table s _ sound (fun key => (length_spend s.callbacks call key).ge)
    (fun key index once found => (onceAt_spend s.callbacks call key index).trans found) ?_
  intro key entry member lasting
  obtain ⟨index,there⟩ := List.mem_iff_getElem?.mp member
  rw [getElem?_spend] at there
  obtain ⟨before,found,rfl⟩ := Option.map_eq_some_iff.mp there
  split at lasting
  · rename_i same
    have clash : onceAt s.callbacks call.key call.index = some false := by
      rw [onceAt,← same.1,← same.2,found]
      exact congrArg some lasting
    rw [spent] at clash
    cases clash
  · rename_i other
    rw [if_neg other]
    exact sound.alive key before (List.mem_of_getElem? found) lasting

theorem sound_taken (s : State φ) (p : Polled) (sound : Sound s)
    (fits : ∀ key, p.registered key ≤ (s.callbacks key).length) : Sound {s with polled := s.polled ++ [p]} where
  frames := sound.frames
  polled other member := by
    rcases List.mem_append.mp member with earlier | last
    · exact sound.polled other earlier
    · rw [List.mem_singleton.mp last]
      exact fits
  calls call member := by
    refine ⟨(sound.calls call member).1.trans ?_,(sound.calls call member).2⟩
    simp
  tasks frame member task within d found := by
    refine (sound.tasks frame member task within d found).trans ?_
    simp
  running := sound.running
  alive := sound.alive

theorem sound_called (s : State φ) (call : Call) (sound : Sound s) (known : call.delivery < s.polled.length)
    (within : call.index < (s.callbacks call.key).length) : Sound {s with calls := s.calls ++ [call]} where
  frames := sound.frames
  polled := sound.polled
  calls other member := by
    rcases List.mem_append.mp member with earlier | last
    · exact sound.calls other earlier
    · rw [List.mem_singleton.mp last]
      exact ⟨known,within⟩
  tasks := sound.tasks
  running frame member other once runs :=
    (sound.running frame member other once runs).imp_left (List.mem_append_left _)
  alive := sound.alive

theorem sound_work (s : State φ) (frame : Frame) (below : List Frame) (task : Task) (rest : List Task) (sound : Sound s)
    (stack : s.stack = frame :: below) (todo : frame.todo = task :: rest) :
    Sound (work slots s frame below rest task) := by
  have member : frame ∈ s.stack := stack ▸ List.mem_cons_self
  have first : ∀ d, task.delivery = some d → d < s.polled.length :=
    sound.tasks frame member task (todo ▸ List.mem_cons_self)
  have others : ∀ other ∈ rest, ∀ d, other.delivery = some d → d < s.polled.length :=
    fun other within => sound.tasks frame member other (todo ▸ List.mem_cons_of_mem _ within)
  have goesOn := sound_goOn s frame below rest sound stack others
  unfold work
  cases task with
  | receive =>
    simp only
    split
    · rename_i event next _
      have taken := sound_taken _ ⟨event,frame.registered⟩ (sound_bus s s.channel next sound) (sound.frames frame member)
      refine sound_goOn _ frame below _ taken stack ?_
      intro other within d found
      simp only [List.cons_append,List.mem_cons,List.mem_append,List.not_mem_nil,or_false] at within
      simp only [List.length_append,List.length_singleton]
      rcases within with rfl | within | rfl
      · cases found
      · exact (others other within d found).trans (Nat.lt_succ_self _)
      · cases found
        exact Nat.lt_succ_self _
    · rename_i next _ _
      exact sound_goOn _ frame below rest (sound_bus s s.channel next sound) stack others
    · exact goesOn
  | event delivery event =>
    refine sound_goOn s frame below _ sound stack ?_
    intro other within d found
    rcases List.mem_append.mp within with listed | later
    · obtain ⟨key,_,rfl⟩ := List.mem_map.mp listed
      exact first d found
    · exact others other later d found
  | key delivery key =>
    refine sound_goOn s frame below _ sound stack ?_
    intro other within d found
    rcases List.mem_append.mp within with listed | later
    · obtain ⟨index,_,rfl⟩ := List.mem_map.mp listed
      exact first d found
    · exact others other later d found
  | entry call =>
    simp only
    split
    · rename_i callback once found
      have within := (List.getElem?_eq_some_iff.mp found).1
      refine sound_top {s with calls := s.calls ++ [call]} frame _ below
        (sound_called s call sound (first _ rfl) within) stack rfl others ?_
      intro other mark same
      cases same
      refine ⟨List.mem_append_right _ List.mem_cons_self,?_⟩
      rw [onceAt,found]
      rfl
    · exact goesOn

theorem sound_step (s : State φ) (act : Act φ) (sound : Sound s) : Sound (step slots s act) := by
  cases act with
  | publish event => exact sound_bus s _ s.next sound
  | on eventType callback =>
    change Sound (s.register eventType callback false)
    unfold State.register
    split
    · exact sound_push s eventType callback false sound
    · exact sound
  | once eventType callback =>
    change Sound (s.register eventType callback true)
    unfold State.register
    split
    · exact sound_push s eventType callback true sound
    · exact sound
  | emit eventType data =>
    change Sound (emit s eventType data)
    unfold emit
    split
    · exact sound_bus s _ s.next sound
    · exact sound
  | poll =>
    change Sound (poll s)
    unfold poll
    split
    · refine ⟨?_,sound.polled,sound.calls,?_,?_,sound.alive⟩
      · exact List.forall_mem_cons.mpr ⟨fun key => le_rfl,sound.frames⟩
      · refine List.forall_mem_cons.mpr ⟨fun task within d found => ?_,sound.tasks⟩
        rw [List.mem_singleton.mp within] at found
        cases found
      · exact List.forall_mem_cons.mpr ⟨fun call once same => (by cases same),sound.running⟩
    · exact sound
  | ret =>
    change Sound (ret s)
    unfold ret
    split
    · exact sound
    · rename_i frame below stack
      have member : frame ∈ s.stack := stack ▸ List.mem_cons_self
      split
      · exact sound
      · rename_i call once runs
        have found := (sound.running frame member call once runs).2
        cases once with
        | true =>
          exact sound_top _ frame _ below (sound_spend s call sound found) stack rfl (sound.tasks frame member)
            (fun _ _ same => by cases same)
        | false =>
          exact sound_top s frame _ below sound stack rfl (sound.tasks frame member) (fun _ _ same => by cases same)
  | turn =>
    change Sound (turn slots s)
    unfold turn
    split
    · exact sound
    · rename_i frame below stack
      split
      · exact sound
      · have less : ∀ other ∈ below, other ∈ s.stack := fun other within => stack ▸ List.mem_cons_of_mem _ within
        exact ⟨fun other within => sound.frames other (less other within),sound.polled,sound.calls,
          fun other within => sound.tasks other (less other within),
          fun other within => sound.running other (less other within),sound.alive⟩
      · exact sound_work slots s frame below _ _ sound stack ‹_›

theorem sound_new (channel : Channel Event) : Sound (new channel : State φ) := by
  constructor <;> simp [new]

end Bridge
end ClawKernel.Script.Events
