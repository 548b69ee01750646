import ClawKernel.Runtime.TokioScheduler
import ClawKernel.Server.Agents
import ClawKernel.Server.EventTrigger

/-! What sessions own outside the session manager: scheduled tasks and event forwarders.
Requests are answered one after another; between them tasks end and events are forwarded.
-/
namespace ClawKernel.Server.Resources
open Lib.Json Lib.Runs Lib.Tables Server.Protocol Server.Sessions Server.Agents
open Server.EventTrigger (Event toValue)
open Runtime.TokioScheduler (TaskTrigger ScheduleError spawnError)

inductive EventFilter where
  | all
  | agentLifecycle
  | toolCalls
  | llmRequests
  | memoryEvents
  | a2a
  | shutdownOnly
  deriving DecidableEq, Repr

def EventFilter.passes : EventFilter → Event → Bool
  | .all, _ => true
  | .agentLifecycle, .agentStarted _ => true
  | .agentLifecycle, .agentStopped .. => true
  | .toolCalls, .toolCalled .. => true
  | .toolCalls, .toolResult .. => true
  | .llmRequests, .llmRequestStarted .. => true
  | .llmRequests, .llmRequestCompleted .. => true
  | .memoryEvents, .contextWindowApproachingLimit .. => true
  | .memoryEvents, .memoryArchiveComplete .. => true
  | .a2a, .a2a _ => true
  | .shutdownOnly, .shutdown => true
  | _, _ => false

def filterOf (text : String) : EventFilter :=
  if text = "agent_lifecycle" then .agentLifecycle
  else if text = "tool_calls" then .toolCalls
  else if text = "llm_requests" then .llmRequests
  else if text = "memory" then .memoryEvents
  else if text = "a2a" then .a2a
  else if text = "shutdown" then .shutdownOnly
  else .all

/-- A task of the scheduler's table; its handler runs the prompt in the session. -/
structure Task where
  sessionId : String
  prompt : String
  trigger : TaskTrigger
  deriving DecidableEq, Repr

/-- A spawned forwarding task: it runs until it is aborted or ends itself. -/
structure Forwarder where
  sessionId : String
  filter : EventFilter
  running : Bool
  deriving DecidableEq, Repr

/-- `written` are the notifications that forwarders wrote, each with its forwarder's session. -/
structure State where
  kernel : Kernel
  scheduled : Table String Task
  forwarders : Table Nat Forwarder
  spawned : Nat
  written : List (String × Value)

def State.new (maxSessions heartbeatTimeoutMs : Nat) : State := ⟨.new maxSessions heartbeatTimeoutMs,∅,∅,0,[]⟩

structure EventsSubscribeParams where
  sessionId : String
  filter : String
  deriving DecidableEq, Repr

structure ScheduleCreateParams where
  sessionId : String
  cron : String
  prompt : String
  label : Option String
  deriving DecidableEq, Repr

/-- The requests, and what happens between them: an immediate task is done, a forwarder ends
on a write or receive error, an event is published. -/
inductive Step where
  | request (request : Agents.Request)
  | subscribe (params : EventsSubscribeParams)
  | unsubscribe (sessionId : String)
  | scheduleCreate (now : Nat) (params : ScheduleCreateParams)
  | scheduleCancel (taskId : String)
  | taskEnds (taskId : String)
  | forwarderEnds (n : Nat)
  | publish (event : Event)

def scheduleErrorText : ScheduleError → String
  | .taskAlreadyExists id => "task already exists: " ++ id
  | .invalidCronExpression expr reason => "invalid cron expression '" ++ expr ++ "': " ++ reason
  | .neverFires expr => "cron expression will never fire: " ++ expr
  | .shuttingDown => "scheduler is shutting down"

def updateSession (s : State) (id : String) (change : Session → Session) : State :=
  { s with kernel := { s.kernel with manager := s.kernel.manager.update id change } }

def spawnEventForwarder (s : State) (filter : EventFilter) (sessionId : String) : State :=
  { s with forwarders := s.forwarders.insert s.spawned ⟨sessionId,filter,true⟩,spawned := s.spawned + 1 }

def abort (s : State) (n : Nat) : State :=
  { s with forwarders := modify s.forwarders n (fun forwarder => { forwarder with running := false }) }

/-- Aborts the forwarder whose handle is taken out of the session, if there is one. -/
def abortTaken (s : State) (handle : Option Nat) : State :=
  match handle with
  | none => s
  | some n => abort s n

def handleEventsSubscribe (s : State) (params : EventsSubscribeParams) : State × Except ServerError Value :=
  let t := spawnEventForwarder s (filterOf params.filter) params.sessionId
  match t.kernel.manager.get params.sessionId with
  | none => (abort t s.spawned,.error (.sessionNotFound params.sessionId))
  | some session =>
    (updateSession (abortTaken t session.eventForwarder) params.sessionId
        (fun session => { session with eventForwarder := some s.spawned }),
      .ok (.object [("filter",.string params.filter),("subscribed",.bool true)]))

def handleEventsUnsubscribe (s : State) (sessionId : String) : State × Except ServerError Value :=
  match s.kernel.manager.get sessionId with
  | none => (s,.error (.sessionNotFound sessionId))
  | some session =>
    (updateSession (abortTaken s session.eventForwarder) sessionId
        (fun session => { session with eventForwarder := none }),
      .ok (.object [("unsubscribed",.bool true)]))

def handleScheduleCancel (s : State) (taskId : String) : State × Except ServerError Value :=
  if taskId ∈ s.scheduled then
    ({ s with scheduled := s.scheduled.erase taskId },
      .ok (.object [("cancelled",.bool true),("task_id",.string taskId)]))
  else (s,.error (.agent ("Failed to cancel task: task not found: " ++ taskId)))

def triggerOf (cron : String) : TaskTrigger := if cron = "once" then .immediate else .cron cron

def forwarded (s : State) (event : Event) : List (String × Value) :=
  (s.forwarders.entries.filter (fun entry => entry.2.running && entry.2.filter.passes event)).map
    (fun entry => (entry.2.sessionId,
      .object [("jsonrpc",.string "2.0"),("method",.string "events.notification"),("params",toValue event)]))

section Handlers
variable {Schedule : Type} (fromStr : String → Except String Schedule) (upcoming : Schedule → Nat → Option Nat)
variable (uuid : Nat → String) (known : String → Bool)

/-- The error of `schedule`, if any. -/
def scheduleError (now : Nat) (s : State) (taskId cron : String) : Option ScheduleError :=
  if taskId ∈ s.scheduled then some (.taskAlreadyExists taskId)
  else spawnError fromStr upcoming now (triggerOf cron)

def handleScheduleCreate (now : Nat) (s : State) (params : ScheduleCreateParams) : State × Except ServerError Value :=
  match s.kernel.manager.get params.sessionId with
  | none => (s,.error (.sessionNotFound params.sessionId))
  | some _ =>
    let taskId := uuid s.kernel.drawn
    let drew : State := { s with kernel := { s.kernel with drawn := s.kernel.drawn + 1 } }
    match scheduleError fromStr upcoming now s taskId params.cron with
    | some error => (drew,.error (.agent ("Failed to schedule task: " ++ scheduleErrorText error)))
    | none =>
      (updateSession { drew with
            scheduled := drew.scheduled.insert taskId ⟨params.sessionId,params.prompt,triggerOf params.cron⟩ }
          params.sessionId
          (fun session => { session with scheduledTaskIds := session.scheduledTaskIds ++ [taskId] }),
        .ok (.object [("cron",.string params.cron),
          ("label",match params.label with | none => .null | some label => .string label),
          ("status",.string "scheduled"),("task_id",.string taskId)]))

def step (s : State) : Step → State
  | .request request => { s with kernel := Agents.step uuid known s.kernel request }
  | .subscribe params => (handleEventsSubscribe s params).1
  | .unsubscribe sessionId => (handleEventsUnsubscribe s sessionId).1
  | .scheduleCreate now params => (handleScheduleCreate fromStr upcoming uuid now s params).1
  | .scheduleCancel taskId => (handleScheduleCancel s taskId).1
  | .taskEnds taskId =>
    match s.scheduled.lookup taskId with
    | some ⟨_,_,.immediate⟩ => { s with scheduled := s.scheduled.erase taskId }
    | _ => s
  | .forwarderEnds n => abort s n
  | .publish event => { s with written := s.written ++ forwarded s event }

end Handlers

def Live (s : State) (sessionId : String) : Prop := (s.kernel.manager.get sessionId).isSome

/-- Nothing is left of a session that is gone: no scheduled task, no running forwarder, and
no event would be written for it. -/
structure Released (s : State) : Prop where
  tasks : ∀ taskId task, s.scheduled.lookup taskId = some task → Live s task.sessionId
  forwarders : ∀ n forwarder, s.forwarders.lookup n = some forwarder → forwarder.running = true →
    Live s forwarder.sessionId
  frames : ∀ event, ∀ frame ∈ forwarded s event, Live s frame.1

/-- A session is removed only when the scheduler holds none of the tasks it lists and the
forwarder it holds the handle of has ended. -/
def Settled (s : State) : Step → Prop
  | .request request => ∀ sessionId session, removes s.kernel request = some sessionId →
    s.kernel.manager.get sessionId = some session →
    (∀ taskId ∈ session.scheduledTaskIds, taskId ∉ s.scheduled) ∧
      ∀ n forwarder, session.eventForwarder = some n → s.forwarders.lookup n = some forwarder →
        forwarder.running = false
  | _ => True

def Drawn (uuid : Nat → String) (s : State) (id : String) : Prop := ∃ k < s.kernel.drawn, id = uuid k

/-- What the sessions' own records say of the scheduler and the forwarders. -/
structure Books (uuid : Nat → String) (s : State) : Prop where
  kernel : Consistent uuid s.kernel
  taskIds : ∀ taskId task, s.scheduled.lookup taskId = some task → Drawn uuid s taskId ∧ Drawn uuid s task.sessionId
  running : ∀ n forwarder, s.forwarders.lookup n = some forwarder →
    n < s.spawned ∧ (forwarder.running = true → Drawn uuid s forwarder.sessionId)
  listed : ∀ id session, s.kernel.manager.get id = some session →
    (∀ taskId ∈ session.scheduledTaskIds, Drawn uuid s taskId) ∧
      ∀ n, session.eventForwarder = some n → n < s.spawned
  tasks : ∀ id session, s.kernel.manager.get id = some session → ∀ taskId task,
    s.scheduled.lookup taskId = some task → (taskId ∈ session.scheduledTaskIds ↔ task.sessionId = id)
  forwards : ∀ id session, s.kernel.manager.get id = some session → ∀ n forwarder,
    s.forwarders.lookup n = some forwarder → forwarder.running = true →
    (session.eventForwarder = some n ↔ forwarder.sessionId = id)

section Parts
variable (uuid : Nat → String) (s : State)

theorem lookup_abort (n other : Nat) :
    (abort s n).forwarders.lookup other =
      if other = n then (s.forwarders.lookup n).map (fun forwarder => { forwarder with running := false })
      else s.forwarders.lookup other :=
  lookup_modify s.forwarders n other _

/-- A forwarder that runs after an abort is another one, and ran before. -/
theorem running_abort (n other : Nat) (forwarder : Forwarder)
    (found : (abort s n).forwarders.lookup other = some forwarder) (runs : forwarder.running = true) :
    other ≠ n ∧ s.forwarders.lookup other = some forwarder := by
  rw [lookup_abort] at found
  split at found
  · obtain ⟨old,_,rfl⟩ := Option.map_eq_some_iff.mp found
    cases runs
  · exact ⟨‹_›,found⟩

theorem known_abort (n other : Nat) (forwarder : Forwarder)
    (found : (abort s n).forwarders.lookup other = some forwarder) :
    ∃ old, s.forwarders.lookup other = some old ∧ forwarder.sessionId = old.sessionId ∧
      (forwarder.running = true → forwarder = old) := by
  rw [lookup_abort] at found
  split at found
  · rename_i same
    obtain ⟨old,there,rfl⟩ := Option.map_eq_some_iff.mp found
    rw [same]
    exact ⟨old,there,rfl,nofun⟩
  · exact ⟨forwarder,found,rfl,fun _ => rfl⟩

theorem forwarded_running (event : Event) (frame : String × Value) (written : frame ∈ forwarded s event) :
    ∃ n forwarder, s.forwarders.lookup n = some forwarder ∧ forwarder.running = true ∧
      frame.1 = forwarder.sessionId := by
  obtain ⟨entry,member,rfl⟩ := List.mem_map.mp written
  obtain ⟨present,passes⟩ := List.mem_filter.mp member
  rw [Bool.and_eq_true] at passes
  exact ⟨entry.1,entry.2,(entry_iff s.forwarders entry.1 entry.2).mp present,passes.1,rfl⟩

theorem released_iff : Released s ↔
    (∀ taskId task, s.scheduled.lookup taskId = some task → Live s task.sessionId) ∧
      ∀ n forwarder, s.forwarders.lookup n = some forwarder → forwarder.running = true →
        Live s forwarder.sessionId := by
  constructor
  · exact fun released => ⟨released.tasks,released.forwarders⟩
  · intro ⟨tasks,forwarders⟩
    refine ⟨tasks,forwarders,?_⟩
    intro event frame written
    obtain ⟨n,forwarder,found,runs,same⟩ := forwarded_running s event frame written
    rw [same]
    exact forwarders n forwarder found runs

theorem live_drawn (books : Books uuid s) (id : String) (live : Live s id) : Drawn uuid s id :=
  books.kernel.drawn id live

theorem request_books (known : String → Bool) (injective : Function.Injective uuid) (request : Agents.Request)
    (books : Books uuid s) : Books uuid { s with kernel := Agents.step uuid known s.kernel request } := by
  have later := step_drawn uuid known s.kernel request
  have drawn (id : String) (before : Drawn uuid s id) :
      Drawn uuid { s with kernel := Agents.step uuid known s.kernel request } id := drawn_later uuid _ _ later id before
  have origin := get_step_origin uuid known s.kernel request
  constructor
  · exact step_consistent uuid known s.kernel injective request books.kernel
  · intro taskId task found
    exact (books.taskIds taskId task found).imp (drawn _) (drawn _)
  · intro n forwarder found
    exact (books.running n forwarder found).imp id (fun owner runs => drawn _ (owner runs))
  · intro id session live
    rcases origin id session live with before | ⟨_,_,none,empty⟩
    · exact (books.listed id session before).imp (fun listed taskId member => drawn _ (listed taskId member)) (fun own => own)
    · rw [none,empty]
      exact ⟨nofun,nofun⟩
  · intro id session live taskId task found
    rcases origin id session live with before | ⟨fresh,_,_,empty⟩
    · exact books.tasks id session before taskId task found
    · rw [empty,fresh]
      have other := drawn_ne_next uuid injective _ _ (books.taskIds taskId task found).2
      exact ⟨nofun,fun same => absurd same other⟩
  · intro id session live n forwarder found runs
    rcases origin id session live with before | ⟨fresh,_,none,_⟩
    · exact books.forwards id session before n forwarder found runs
    · rw [none,fresh]
      have other := drawn_ne_next uuid injective _ _ ((books.running n forwarder found).2 runs)
      exact ⟨nofun,fun same => absurd same other⟩

/-- Tasks taken off the table. -/
theorem erase_books (taskId : String) (books : Books uuid s) :
    Books uuid { s with scheduled := s.scheduled.erase taskId } := by
  constructor
  · exact books.kernel
  · intro other task found
    exact books.taskIds other task (lookup_of_erase s.scheduled taskId other task found).2
  · exact books.running
  · exact books.listed
  · intro id session live other task found
    exact books.tasks id session live other task (lookup_of_erase s.scheduled taskId other task found).2
  · exact books.forwards

theorem abort_books (n : Nat) (books : Books uuid s) : Books uuid (abort s n) := by
  constructor
  · exact books.kernel
  · exact books.taskIds
  · intro other forwarder found
    obtain ⟨old,there,_,same⟩ := known_abort s n other forwarder found
    refine ⟨(books.running other old there).1,fun runs => ?_⟩
    obtain rfl := same runs
    exact (books.running other forwarder there).2 runs
  · exact books.listed
  · exact books.tasks
  · intro id session live other forwarder found runs
    exact books.forwards id session live other forwarder (running_abort s n other forwarder found runs).2 runs

/-- A forwarder is spawned for a session that is not live, and aborted. -/
theorem spawn_abort_books (filter : EventFilter) (sessionId : String) (books : Books uuid s) :
    Books uuid (abort (spawnEventForwarder s filter sessionId) s.spawned) := by
  have before (n : Nat) (forwarder : Forwarder) (runs : forwarder.running = true)
      (found : (abort (spawnEventForwarder s filter sessionId) s.spawned).forwarders.lookup n = some forwarder) :
      s.forwarders.lookup n = some forwarder := by
    obtain ⟨other,there⟩ := running_abort _ s.spawned n forwarder found runs
    exact (AList.lookup_insert_ne other).symm.trans there
  constructor
  · exact books.kernel
  · exact books.taskIds
  · intro n forwarder found
    refine ⟨?_,fun runs => (books.running n forwarder (before n forwarder runs found)).2 runs⟩
    obtain ⟨old,there,_,_⟩ := known_abort _ s.spawned n forwarder found
    change (s.forwarders.insert s.spawned ⟨sessionId,filter,true⟩).lookup n = some old at there
    rcases lookup_of_insert s.forwarders s.spawned n _ old there with ⟨rfl,_⟩ | ⟨_,earlier⟩
    · exact Nat.lt_succ_self _
    · exact Nat.lt_succ_of_lt (books.running n old earlier).1
  · intro id session live
    obtain ⟨listed,handle⟩ := books.listed id session live
    exact ⟨listed,fun n own => Nat.lt_succ_of_lt (handle n own)⟩
  · exact books.tasks
  · intro id session live n forwarder found runs
    exact books.forwards id session live n forwarder (before n forwarder runs found) runs

/-- Of a session that takes a new handle in place of its own, or none, the running forwarder
is that of the new handle. -/
theorem forwards_own (sessionId : String) (session : Session) (handle : Option Nat) (books : Books uuid s)
    (live : s.kernel.manager.get sessionId = some session) (fresh : ∀ n, handle = some n → n = s.spawned)
    (n : Nat) (forwarder : Forwarder) (runs : forwarder.running = true)
    (found : (handle = some n ∧ forwarder.sessionId = sessionId) ∨
      ∃ old, s.forwarders.lookup n = some old ∧
        (forwarder.running = true → forwarder = old ∧ session.eventForwarder ≠ some n)) :
    handle = some n ↔ forwarder.sessionId = sessionId := by
  rcases found with ⟨new,forSession⟩ | ⟨old,earlier,kept⟩
  · exact ⟨fun _ => forSession,fun _ => new⟩
  · obtain ⟨rfl,other⟩ := kept runs
    have notOwn := books.forwards sessionId session live n forwarder earlier runs
    constructor
    · intro held
      have bound := (books.running n forwarder earlier).1
      rw [fresh n held] at bound
      exact absurd bound (Nat.lt_irrefl _)
    · exact fun forSession => absurd (notOwn.mpr forSession) other

/-- The other sessions have the forwarders they had. -/
theorem forwards_other (sessionId : String) (session : Session) (handle : Option Nat) (books : Books uuid s)
    (id : String) (record : Session) (there : s.kernel.manager.get id = some record) (different : id ≠ sessionId)
    (fresh : ∀ n, handle = some n → n = s.spawned) (n : Nat) (forwarder : Forwarder) (runs : forwarder.running = true)
    (found : (handle = some n ∧ forwarder.sessionId = sessionId) ∨
      ∃ old, s.forwarders.lookup n = some old ∧
        (forwarder.running = true → forwarder = old ∧ session.eventForwarder ≠ some n)) :
    record.eventForwarder = some n ↔ forwarder.sessionId = id := by
  rcases found with ⟨new,forSession⟩ | ⟨old,earlier,kept⟩
  · have bound := (books.listed id record there).2 n
    rw [fresh n new] at bound ⊢
    constructor
    · exact fun held => absurd (bound held) (Nat.lt_irrefl _)
    · exact fun forThis => absurd (forThis.symm.trans forSession) different
  · obtain ⟨rfl,_⟩ := kept runs
    exact books.forwards id record there n forwarder earlier runs

/-- The session records a handle, or none: the forwarder whose handle it held is aborted, and
those that run are the others and, if it is a new one, that of the handle. -/
theorem record_books (sessionId : String) (session : Session) (handle : Option Nat) (t : State)
    (live : s.kernel.manager.get sessionId = some session) (books : Books uuid s)
    (kernel : t.kernel = s.kernel) (scheduled : t.scheduled = s.scheduled) (later : s.spawned ≤ t.spawned)
    (fresh : ∀ n, handle = some n → n = s.spawned) (below : ∀ n, handle = some n → n < t.spawned)
    (found : ∀ n forwarder, t.forwarders.lookup n = some forwarder →
      (handle = some n ∧ forwarder.sessionId = sessionId) ∨
        ∃ old, s.forwarders.lookup n = some old ∧
          (forwarder.running = true → forwarder = old ∧ session.eventForwarder ≠ some n)) :
    Books uuid (updateSession t sessionId (fun session => { session with eventForwarder := handle })) := by
  have own : Drawn uuid s sessionId := live_drawn uuid s books sessionId (Option.isSome_of_eq_some live)
  have same (id : String) : Drawn uuid (updateSession t sessionId
      (fun session => { session with eventForwarder := handle })) id ↔ Drawn uuid s id := by
    unfold Drawn updateSession
    rw [kernel]
  have origin (id : String) (record : Session)
      (there : (t.kernel.manager.update sessionId (fun session => { session with eventForwarder := handle })).get id =
        some record) :
      (id = sessionId ∧ record = { session with eventForwarder := handle }) ∨
        (id ≠ sessionId ∧ s.kernel.manager.get id = some record) := by
    rw [kernel] at there
    exact get_update_cases s.kernel.manager sessionId id _ session record live there
  constructor
  · change Consistent uuid { t.kernel with manager := t.kernel.manager.update sessionId _ }
    rw [kernel]
    exact consistent_update uuid s.kernel books.kernel sessionId _ (fun _ => rfl)
  · intro taskId task there
    rw [same,same]
    change t.scheduled.lookup taskId = some task at there
    rw [scheduled] at there
    exact books.taskIds taskId task there
  · intro n forwarder there
    rw [same]
    rcases found n forwarder there with ⟨new,forSession⟩ | ⟨old,before,kept⟩
    · rw [forSession]
      exact ⟨below n new,fun _ => own⟩
    · refine ⟨Nat.lt_of_lt_of_le (books.running n old before).1 later,fun runs => ?_⟩
      obtain ⟨rfl,_⟩ := kept runs
      exact (books.running n forwarder before).2 runs
  · intro id record there
    simp only [same]
    rcases origin id record there with ⟨_,rfl⟩ | ⟨_,before⟩
    · exact ⟨(books.listed sessionId session live).1,below⟩
    · obtain ⟨listed,held⟩ := books.listed id record before
      exact ⟨listed,fun n named => Nat.lt_of_lt_of_le (held n named) later⟩
  · intro id record there taskId task held
    change t.scheduled.lookup taskId = some task at held
    rw [scheduled] at held
    rcases origin id record there with ⟨rfl,rfl⟩ | ⟨_,before⟩
    · exact books.tasks id session live taskId task held
    · exact books.tasks id record before taskId task held
  · intro id record there n forwarder present runs
    rcases origin id record there with ⟨rfl,rfl⟩ | ⟨different,before⟩
    · exact forwards_own uuid s id session handle books live fresh n forwarder runs (found n forwarder present)
    · exact forwards_other uuid s sessionId session handle books id record before different fresh n forwarder runs
        (found n forwarder present)

theorem running_abortTaken (handle : Option Nat) (n : Nat) (forwarder : Forwarder)
    (found : (abortTaken s handle).forwarders.lookup n = some forwarder) :
    ∃ old, s.forwarders.lookup n = some old ∧ forwarder.sessionId = old.sessionId ∧
      (forwarder.running = true → forwarder = old ∧ handle ≠ some n) := by
  cases handle with
  | none => exact ⟨forwarder,found,rfl,fun _ => ⟨rfl,nofun⟩⟩
  | some m =>
    obtain ⟨old,there,owner,same⟩ := known_abort s m n forwarder found
    refine ⟨old,there,owner,fun runs => ⟨same runs,fun own => ?_⟩⟩
    exact (running_abort s m n forwarder found runs).1 (Option.some_inj.mp own).symm

theorem abortTaken_parts (handle : Option Nat) :
    (abortTaken s handle).kernel = s.kernel ∧ (abortTaken s handle).scheduled = s.scheduled ∧
      (abortTaken s handle).spawned = s.spawned := by
  cases handle with
  | none => exact ⟨rfl,rfl,rfl⟩
  | some n => exact ⟨rfl,rfl,rfl⟩

theorem subscribe_books (params : EventsSubscribeParams) (books : Books uuid s) :
    Books uuid (handleEventsSubscribe s params).1 := by
  unfold handleEventsSubscribe
  dsimp only
  split
  · exact spawn_abort_books uuid s _ params.sessionId books
  · rename_i session live
    obtain ⟨kernel,scheduled,spawned⟩ :=
      abortTaken_parts (spawnEventForwarder s (filterOf params.filter) params.sessionId) session.eventForwarder
    apply record_books uuid s params.sessionId session (some s.spawned) _ live books kernel scheduled
    · rw [spawned]
      exact Nat.le_succ _
    · exact fun n new => (Option.some_inj.mp new).symm
    · intro n new
      rw [spawned,← Option.some_inj.mp new]
      exact Nat.lt_succ_self _
    · intro n forwarder found
      obtain ⟨old,there,owner,kept⟩ := running_abortTaken _ session.eventForwarder n forwarder found
      change (s.forwarders.insert s.spawned ⟨params.sessionId,_,true⟩).lookup n = some old at there
      rcases lookup_of_insert s.forwarders s.spawned n _ old there with ⟨rfl,rfl⟩ | ⟨_,before⟩
      · exact Or.inl ⟨rfl,owner⟩
      · exact Or.inr ⟨old,before,kept⟩

theorem unsubscribe_books (sessionId : String) (books : Books uuid s) :
    Books uuid (handleEventsUnsubscribe s sessionId).1 := by
  unfold handleEventsUnsubscribe
  split
  · exact books
  · rename_i session live
    obtain ⟨kernel,scheduled,spawned⟩ := abortTaken_parts s session.eventForwarder
    apply record_books uuid s sessionId session none _ live books kernel scheduled (Nat.le_of_eq spawned.symm) nofun nofun
    intro n forwarder found
    obtain ⟨old,there,_,kept⟩ := running_abortTaken s session.eventForwarder n forwarder found
    exact Or.inr ⟨old,there,kept⟩

theorem draw_books (books : Books uuid s) :
    Books uuid { s with kernel := { s.kernel with drawn := s.kernel.drawn + 1 } } := by
  have drawn (id : String) (before : Drawn uuid s id) :
      Drawn uuid { s with kernel := { s.kernel with drawn := s.kernel.drawn + 1 } } id :=
    drawn_later uuid _ _ (Nat.le_succ _) id before
  constructor
  · exact consistent_drawn uuid s.kernel books.kernel _ (Nat.le_succ _)
  · intro taskId task found
    exact (books.taskIds taskId task found).imp (drawn _) (drawn _)
  · intro n forwarder found
    exact (books.running n forwarder found).imp id (fun owner runs => drawn _ (owner runs))
  · intro id session live
    exact (books.listed id session live).imp (fun listed taskId member => drawn _ (listed taskId member)) (fun own => own)
  · exact books.tasks
  · exact books.forwards

/-- A task is scheduled under the id drawn last, and the session lists it. -/
theorem schedule_books (injective : Function.Injective uuid) (task : Task) (session : Session)
    (live : s.kernel.manager.get task.sessionId = some session) (books : Books uuid s) :
    Books uuid (updateSession { s with
          kernel := { s.kernel with drawn := s.kernel.drawn + 1 }
          scheduled := s.scheduled.insert (uuid s.kernel.drawn) task } task.sessionId
        (fun session => { session with scheduledTaskIds := session.scheduledTaskIds ++ [uuid s.kernel.drawn] })) := by
  have drew := draw_books uuid s books
  have next : Drawn uuid { s with kernel := { s.kernel with drawn := s.kernel.drawn + 1 } } (uuid s.kernel.drawn) :=
    ⟨s.kernel.drawn,Nat.lt_succ_self _,rfl⟩
  have own := live_drawn uuid _ drew task.sessionId (Option.isSome_of_eq_some live)
  have held := lookup_of_insert s.scheduled (uuid s.kernel.drawn)
  have origin (id : String) (record : Session) := get_update_cases s.kernel.manager task.sessionId id
    (fun session => { session with scheduledTaskIds := session.scheduledTaskIds ++ [uuid s.kernel.drawn] }) session record live
  constructor
  · exact consistent_update uuid _ drew.kernel task.sessionId _ (fun _ => rfl)
  · intro taskId other found
    rcases held taskId task other found with ⟨rfl,rfl⟩ | ⟨_,before⟩
    · exact ⟨next,own⟩
    · exact drew.taskIds taskId other before
  · exact drew.running
  · intro id record there
    rcases origin id record there with ⟨_,rfl⟩ | ⟨_,before⟩
    · obtain ⟨listed,handle⟩ := drew.listed task.sessionId session live
      refine ⟨fun taskId member => ?_,handle⟩
      rcases List.mem_append.mp member with earlier | new
      · exact listed taskId earlier
      · rw [List.mem_singleton.mp new]
        exact next
    · exact drew.listed id record before
  · intro id record there taskId other found
    rcases held taskId task other found with ⟨rfl,rfl⟩ | ⟨different,earlier⟩
    · rcases origin id record there with ⟨rfl,rfl⟩ | ⟨apart,before⟩
      · exact ⟨fun _ => rfl,fun _ => List.mem_append_right _ List.mem_cons_self⟩
      · constructor
        · intro member
          exact absurd rfl (drawn_ne_next uuid injective _ _ ((books.listed id record before).1 _ member))
        · exact fun same => absurd same.symm apart
    · rcases origin id record there with ⟨rfl,rfl⟩ | ⟨_,before⟩
      · rw [← books.tasks task.sessionId session live taskId other earlier,List.mem_append,List.mem_singleton]
        exact or_iff_left different
      · exact books.tasks id record before taskId other earlier
  · intro id record there
    rcases origin id record there with ⟨rfl,rfl⟩ | ⟨_,before⟩
    · exact books.forwards task.sessionId session live
    · exact books.forwards id record before

end Parts

section Runs
variable {Schedule : Type} (fromStr : String → Except String Schedule) (upcoming : Schedule → Nat → Option Nat)
variable (uuid : Nat → String) (known : String → Bool) (injective : Function.Injective uuid)

/-- What `schedule.create` comes to. -/
theorem handleScheduleCreate_cases (now : Nat) (s : State) (params : ScheduleCreateParams) :
    (handleScheduleCreate fromStr upcoming uuid now s params).1 = s ∨
      (handleScheduleCreate fromStr upcoming uuid now s params).1 =
        { s with kernel := { s.kernel with drawn := s.kernel.drawn + 1 } } ∨
      ∃ task session, s.kernel.manager.get task.sessionId = some session ∧
        (handleScheduleCreate fromStr upcoming uuid now s params).1 =
          updateSession { s with
              kernel := { s.kernel with drawn := s.kernel.drawn + 1 }
              scheduled := s.scheduled.insert (uuid s.kernel.drawn) task } task.sessionId
            (fun session =>
              { session with scheduledTaskIds := session.scheduledTaskIds ++ [uuid s.kernel.drawn] }) := by
  unfold handleScheduleCreate
  cases live : s.kernel.manager.get params.sessionId with
  | none => exact Or.inl rfl
  | some session =>
    dsimp only
    split
    · exact Or.inr (Or.inl rfl)
    · exact Or.inr (Or.inr ⟨⟨params.sessionId,params.prompt,triggerOf params.cron⟩,session,live,rfl⟩)

theorem handleScheduleCancel_cases (s : State) (taskId : String) :
    (handleScheduleCancel s taskId).1 = s ∨
      (handleScheduleCancel s taskId).1 = { s with scheduled := s.scheduled.erase taskId } := by
  unfold handleScheduleCancel
  split
  · exact Or.inr rfl
  · exact Or.inl rfl

theorem taskEnds_cases (s : State) (taskId : String) :
    step fromStr upcoming uuid known s (.taskEnds taskId) = s ∨
      step fromStr upcoming uuid known s (.taskEnds taskId) = { s with scheduled := s.scheduled.erase taskId } := by
  rw [step]
  split
  · exact Or.inr rfl
  · exact Or.inl rfl

include injective

theorem step_books (s : State) (each : Step) (books : Books uuid s) :
    Books uuid (step fromStr upcoming uuid known s each) := by
  cases each with
  | request request => exact request_books uuid s known injective request books
  | subscribe params => exact subscribe_books uuid s params books
  | unsubscribe sessionId => exact unsubscribe_books uuid s sessionId books
  | scheduleCreate now params =>
    change Books uuid (handleScheduleCreate fromStr upcoming uuid now s params).1
    rcases handleScheduleCreate_cases fromStr upcoming uuid now s params with same | drew | ⟨task,session,live,made⟩
    · rw [same]
      exact books
    · rw [drew]
      exact draw_books uuid s books
    · rw [made]
      exact schedule_books uuid s injective task session live books
  | scheduleCancel taskId =>
    change Books uuid (handleScheduleCancel s taskId).1
    rcases handleScheduleCancel_cases s taskId with same | erased
    · rw [same]
      exact books
    · rw [erased]
      exact erase_books uuid s taskId books
  | taskEnds taskId =>
    rcases taskEnds_cases fromStr upcoming uuid known s taskId with same | erased
    · rw [same]
      exact books
    · rw [erased]
      exact erase_books uuid s taskId books
  | forwarderEnds n => exact abort_books uuid s n books
  | publish event => exact ⟨books.kernel,books.taskIds,books.running,books.listed,books.tasks,books.forwards⟩

theorem request_released_iff (s : State) (request : Agents.Request) (books : Books uuid s) (released : Released s) :
    Released (step fromStr upcoming uuid known s (.request request)) ↔ Settled s (.request request) := by
  have kept := get_step_kept uuid known s.kernel injective books.kernel request
  have gone := get_step_removed uuid known s.kernel request
  rw [released_iff]
  constructor
  · intro ⟨tasks,forwarders⟩ sessionId session named live
    have dead : ¬Live (step fromStr upcoming uuid known s (.request request)) sessionId := by
      change ¬((Agents.step uuid known s.kernel request).manager.get sessionId).isSome
      rw [gone sessionId named]
      exact nofun
    constructor
    · intro taskId listed held
      obtain ⟨task,found⟩ := Option.isSome_iff_exists.mp (AList.lookup_isSome.mpr held)
      have owner := (books.tasks sessionId session live taskId task found).mp listed
      exact dead (owner ▸ tasks taskId task found)
    · intro n forwarder handle found
      rw [Bool.eq_false_iff]
      intro runs
      have owner := (books.forwards sessionId session live n forwarder found runs).mp handle
      exact dead (owner ▸ forwarders n forwarder found runs)
  · intro settled
    have still (id : String) (live : Live s id)
        (unowned : ∀ session, s.kernel.manager.get id = some session → removes s.kernel request ≠ some id) :
        Live (step fromStr upcoming uuid known s (.request request)) id := by
      obtain ⟨session,there⟩ := Option.isSome_iff_exists.mp live
      exact Option.isSome_of_eq_some (kept id session there (unowned session there))
    constructor
    · intro taskId task found
      apply still task.sessionId (released.tasks taskId task found)
      intro session live named
      have listed := (books.tasks task.sessionId session live taskId task found).mpr rfl
      exact (settled task.sessionId session named live).1 taskId listed
        (AList.lookup_isSome.mp (Option.isSome_of_eq_some found))
    · intro n forwarder found runs
      apply still forwarder.sessionId (released.forwarders n forwarder found runs)
      intro session live named
      have handle := (books.forwards forwarder.sessionId session live n forwarder found runs).mpr rfl
      have ended := (settled forwarder.sessionId session named live).2 n forwarder handle found
      rw [ended] at runs
      cases runs

omit injective

theorem released_of (s t : State) (released : Released s) (live : ∀ id, Live s id → Live t id)
    (tasks : ∀ taskId task, t.scheduled.lookup taskId = some task →
      Live t task.sessionId ∨ s.scheduled.lookup taskId = some task)
    (forwarders : ∀ n forwarder, t.forwarders.lookup n = some forwarder → forwarder.running = true →
      Live t forwarder.sessionId ∨ s.forwarders.lookup n = some forwarder) : Released t := by
  rw [released_iff]
  constructor
  · intro taskId task found
    rcases tasks taskId task found with own | before
    · exact own
    · exact live _ (released.tasks taskId task before)
  · intro n forwarder found runs
    rcases forwarders n forwarder found runs with own | before
    · exact own
    · exact live _ (released.forwarders n forwarder before runs)

theorem live_updateSession (s : State) (sessionId id : String) (change : Session → Session) :
    Live (updateSession s sessionId change) id ↔ Live s id := by
  unfold Live
  rw [← isSome_get_update s.kernel.manager sessionId id change]
  rfl

theorem erase_released (s : State) (taskId : String) (released : Released s) :
    Released { s with scheduled := s.scheduled.erase taskId } := by
  apply released_of s _ released
  · exact fun _ live => live
  · intro other task found
    exact Or.inr (lookup_of_erase s.scheduled taskId other task found).2
  · exact fun _ _ found _ => Or.inr found

theorem subscribe_released (s : State) (params : EventsSubscribeParams) (released : Released s) :
    Released (handleEventsSubscribe s params).1 := by
  unfold handleEventsSubscribe
  dsimp only
  split
  · apply released_of s _ released
    · exact fun _ live => live
    · exact fun _ _ found => Or.inr found
    · intro n forwarder found runs
      obtain ⟨other,there⟩ := running_abort _ s.spawned n forwarder found runs
      exact Or.inr ((AList.lookup_insert_ne other).symm.trans there)
  · rename_i session live
    obtain ⟨kernel,scheduled,_⟩ :=
      abortTaken_parts (spawnEventForwarder s (filterOf params.filter) params.sessionId) session.eventForwarder
    have still (id : String) (before : Live s id) :
        Live (updateSession (abortTaken (spawnEventForwarder s (filterOf params.filter) params.sessionId)
          session.eventForwarder) params.sessionId
          (fun session => { session with eventForwarder := some s.spawned })) id := by
      rw [live_updateSession,Live,kernel]
      exact before
    apply released_of s _ released still
    · intro taskId task found
      change (abortTaken _ session.eventForwarder).scheduled.lookup taskId = some task at found
      rw [scheduled] at found
      exact Or.inr found
    · intro n forwarder found runs
      obtain ⟨old,there,owner,kept⟩ := running_abortTaken _ session.eventForwarder n forwarder found
      change (s.forwarders.insert s.spawned ⟨params.sessionId,_,true⟩).lookup n = some old at there
      rcases lookup_of_insert s.forwarders s.spawned n _ old there with ⟨_,rfl⟩ | ⟨_,before⟩
      · rw [owner]
        exact Or.inl (still params.sessionId (Option.isSome_of_eq_some live))
      · rw [(kept runs).1]
        exact Or.inr before

theorem unsubscribe_released (s : State) (sessionId : String) (released : Released s) :
    Released (handleEventsUnsubscribe s sessionId).1 := by
  unfold handleEventsUnsubscribe
  split
  · exact released
  · rename_i session live
    obtain ⟨kernel,scheduled,_⟩ := abortTaken_parts s session.eventForwarder
    apply released_of s _ released
    · intro id before
      rw [live_updateSession,Live,kernel]
      exact before
    · intro taskId task found
      change (abortTaken _ session.eventForwarder).scheduled.lookup taskId = some task at found
      rw [scheduled] at found
      exact Or.inr found
    · intro n forwarder found runs
      obtain ⟨old,there,_,kept⟩ := running_abortTaken s session.eventForwarder n forwarder found
      rw [(kept runs).1]
      exact Or.inr there

theorem scheduleCreate_released (now : Nat) (s : State) (params : ScheduleCreateParams) (released : Released s) :
    Released (handleScheduleCreate fromStr upcoming uuid now s params).1 := by
  rcases handleScheduleCreate_cases fromStr upcoming uuid now s params with same | drew | ⟨task,session,live,made⟩
  · rw [same]
    exact released
  · rw [drew]
    exact ⟨released.tasks,released.forwarders,released.frames⟩
  · rw [made]
    apply released_of s _ released
    · intro id before
      rw [live_updateSession]
      exact before
    · intro taskId other found
      change (s.scheduled.insert (uuid s.kernel.drawn) task).lookup taskId = some other at found
      rcases lookup_of_insert s.scheduled (uuid s.kernel.drawn) taskId task other found with ⟨_,rfl⟩ | ⟨_,before⟩
      · rw [live_updateSession]
        exact Or.inl (Option.isSome_of_eq_some live)
      · exact Or.inr before
    · exact fun _ _ found _ => Or.inr found

include injective

theorem step_released_iff (s : State) (each : Step) (books : Books uuid s) (released : Released s) :
    Released (step fromStr upcoming uuid known s each) ↔ Settled s each := by
  cases each with
  | request request => exact request_released_iff fromStr upcoming uuid known injective s request books released
  | subscribe params => exact ⟨fun _ => trivial,fun _ => subscribe_released s params released⟩
  | unsubscribe sessionId => exact ⟨fun _ => trivial,fun _ => unsubscribe_released s sessionId released⟩
  | scheduleCreate now params =>
    exact ⟨fun _ => trivial,fun _ => scheduleCreate_released fromStr upcoming uuid now s params released⟩
  | scheduleCancel taskId =>
    refine ⟨fun _ => trivial,fun _ => ?_⟩
    change Released (handleScheduleCancel s taskId).1
    rcases handleScheduleCancel_cases s taskId with same | erased
    · rw [same]
      exact released
    · rw [erased]
      exact erase_released s taskId released
  | taskEnds taskId =>
    refine ⟨fun _ => trivial,fun _ => ?_⟩
    rcases taskEnds_cases fromStr upcoming uuid known s taskId with same | erased
    · rw [same]
      exact released
    · rw [erased]
      exact erase_released s taskId released
  | forwarderEnds n =>
    refine ⟨fun _ => trivial,fun _ => ?_⟩
    apply released_of s _ released
    · exact fun _ live => live
    · exact fun _ _ found => Or.inr found
    · exact fun other forwarder found runs => Or.inr (running_abort s n other forwarder found runs).2
  | publish event => exact ⟨fun _ => trivial,fun _ => ⟨released.tasks,released.forwarders,released.frames⟩⟩

/-- Nothing is left of removed sessions throughout exactly if every session is removed after
its tasks have left the scheduler and its forwarder has ended. -/
theorem released_throughout_iff (maxSessions timeout : Nat) (steps : List Step) :
    Always (step fromStr upcoming uuid known) Released (.new maxSessions timeout) steps ↔
      Along (step fromStr upcoming uuid known) Settled (.new maxSessions timeout) steps := by
  apply always_iff_along _ Settled Released (Books uuid) (fun _ => True)
  · exact fun s each books _ => step_books fromStr upcoming uuid known injective s each books
  · exact fun s each books _ released => step_released_iff fromStr upcoming uuid known injective s each books released
  · exact fun _ _ => trivial
  · exact ⟨new_consistent uuid maxSessions timeout,nofun,nofun,nofun,nofun,nofun⟩
  · exact ⟨nofun,nofun,nofun⟩

end Runs

section Known

def everyMinute (text : String) : Except String Unit := if text = "0 * * * * *" then .ok () else .error "invalid"

/-- The schedule is due at every full minute. -/
def nextMinute (_ : Unit) (now : Nat) : Option Nat := some (now / 60000000000 * 60000000000 + 60000000000)

abbrev knownStep : State → Step → State := step everyMinute nextMinute numbered (fun _ => false)

/-- A session with a task that runs every minute. -/
def reporting : List Step :=
  [.request (.createSession (.ok ())),.scheduleCreate 0 ⟨numbered 0,"0 * * * * *","report",none⟩]

theorem released_cancelled :
    Always knownStep Released (.new 1 30000)
      (reporting ++ [.scheduleCancel (numbered 1),.request (.destroySession (numbered 0))]) := by
  apply (released_throughout_iff everyMinute nextMinute numbered (fun _ => false) numbered_injective 1 30000 _).mpr
  refine ⟨nofun,trivial,trivial,?_,trivial⟩
  intro sessionId session named live
  obtain rfl := Option.some_inj.mp named
  have record : some (Session.mk (numbered 0) none none [numbered 1]) = some session := live
  obtain rfl := Option.some_inj.mp record
  refine ⟨fun taskId listed => ?_,nofun⟩
  rw [List.mem_singleton.mp listed]
  decide

/-- The task of a destroyed session stays, and so does its forwarder. -/
theorem destroyed_session_leaves_task :
    ¬Always knownStep Released (.new 1 30000)
      (reporting ++ [.subscribe ⟨numbered 0,"all"⟩,.request (.destroySession (numbered 0)),.publish .shutdown]) := by
  intro always
  have last := always.2.2.2.2.2
  have held := last.tasks (numbered 1) ⟨numbered 0,"report",.cron "0 * * * * *"⟩ (by decide)
  cases held

end Known

end ClawKernel.Server.Resources
