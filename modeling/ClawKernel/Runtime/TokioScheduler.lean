import ClawKernel.Lib.Runs
import ClawKernel.Runtime.Cron

/-! `TokioScheduler`: a map of tasks that the callers of the scheduler and the tasks they
spawn share. Every lock acquisition and every access to the map is a step of its own. One
clock, in nanoseconds since the epoch, stands for the system's and for that of the timers.
-/
namespace ClawKernel.Runtime.TokioScheduler
open Lib.Runs
open Cron (nanos timestamp)

inductive TaskTrigger where
  | interval (duration : Nat)
  | cron (expr : String)
  | once (unixSecs : Nat)
  | immediate
  deriving DecidableEq, Repr

structure TaskConfig where
  id : String
  trigger : TaskTrigger
  maxExecutions : Option Nat
  deriving DecidableEq, Repr

structure TaskStats where
  executionCount : Nat
  successCount : Nat
  failureCount : Nat
  lastExecution : Option Nat
  isPaused : Bool
  deriving DecidableEq, Repr

inductive ScheduleError where
  | taskAlreadyExists (id : String)
  | invalidCronExpression (expr reason : String)
  | neverFires (expr : String)
  | shuttingDown
  deriving DecidableEq, Repr

/-- Where a spawned task stands; from `entered` to `recording` it is in `execute_task`. -/
inductive Phase where
  | begun
  | sleeping
  | woken
  | limit
  | entered
  | counting
  | starting
  | handling
  | recording
  | removing
  | ended
  deriving DecidableEq, Repr

/-- What the map and the task share, and the task itself: the time its timer runs out and
how often it has called the handler. -/
structure TaskState where
  config : TaskConfig
  stats : TaskStats
  handle : Bool
  isPaused : Bool
  phase : Phase
  wakes : Nat
  starts : Nat
  deriving DecidableEq, Repr

def TaskState.new (config : TaskConfig) : TaskState where
  config := config
  stats := ⟨0,0,0,none,false⟩
  handle := false
  isPaused := false
  phase := .begun
  wakes := 0
  starts := 0

/-- The map holds, by id, the number of the `schedule` call that made the entry. -/
structure Scheduler where
  now : Nat
  shutdown : Bool
  tasks : String → Option Nat
  states : Nat → Option TaskState

def Scheduler.put (s : Scheduler) (n : Nat) (state : TaskState) : Scheduler :=
  { s with states := Function.update s.states n (some state) }

/-- Where a `schedule` call stands. -/
inductive SchedulePhase where
  | entered
  | running
  | fresh
  | spawned
  | stored
  | returned (result : Except ScheduleError Unit)

section Tasks
variable {Schedule : Type} (fromStr : String → Except String Schedule) (upcoming : Schedule → Nat → Option Nat)

/-- The head of the loop in `spawn_cron_task`. -/
def TaskState.nextOccurrence (state : TaskState) (expr : String) (now : Nat) : TaskState :=
  match fromStr expr with
  | .error _ => { state with phase := .ended }
  | .ok schedule =>
    match upcoming schedule now with
    | none => { state with phase := .ended }
    | some next => { state with phase := .sleeping, wakes := next }

def TaskState.spawned (state : TaskState) (now : Nat) : TaskState :=
  match state.config.trigger with
  -- `interval_at` panics on an empty period
  | .interval 0 => { state with phase := .ended }
  | .interval duration => { state with phase := .sleeping, wakes := now + duration }
  | .cron expr => state.nextOccurrence fromStr upcoming expr now
  | .once unixSecs =>
    if timestamp now < unixSecs then
      { state with phase := .sleeping, wakes := now + (unixSecs - timestamp now) * nanos }
    else { state with phase := .woken }
  | .immediate => { state with phase := .entered }

/-- The timer runs out; a ticker sets itself to the next tick, late or not. -/
def TaskState.wake (state : TaskState) : TaskState :=
  match state.config.trigger with
  | .interval duration => { state with phase := .woken, wakes := state.wakes + duration }
  | _ => { state with phase := .woken }

/-- After `contains_key`. -/
def TaskState.looked (state : TaskState) (listed : Bool) : TaskState :=
  if !listed then { state with phase := .ended }
  else
    match state.config.trigger, state.config.maxExecutions with
    | .interval _, some _ => { state with phase := .limit }
    | .cron _, some _ => { state with phase := .limit }
    | _, _ => { state with phase := .entered }

/-- After `execute_task`. -/
def TaskState.left (state : TaskState) (now : Nat) : TaskState :=
  match state.config.trigger with
  | .interval _ => { state with phase := .sleeping }
  | .cron expr => state.nextOccurrence fromStr upcoming expr now
  | .once _ => { state with phase := .removing }
  | .immediate => { state with phase := .removing }

def TaskState.exhausted (state : TaskState) : Bool :=
  match state.config.maxExecutions with
  | none => false
  | some max => decide (max ≤ state.stats.executionCount)

def TaskState.start (state : TaskState) (now : Nat) : TaskState :=
  { state with
    stats := { state.stats with
      executionCount := state.stats.executionCount + 1, lastExecution := some (now / 1000000) }
    phase := .handling
    starts := state.starts + 1 }

/-- The next step of the task; `listed` is what it finds in the map where it looks. -/
def TaskState.turn (state : TaskState) (now : Nat) (listed : Bool) : TaskState :=
  match state.phase with
  | .begun => state.spawned fromStr upcoming now
  | .sleeping => if state.wakes ≤ now then state.wake else state
  | .woken => state.looked listed
  | .limit => if state.exhausted then { state with phase := .removing } else { state with phase := .entered }
  | .entered =>
    if state.isPaused then state.left fromStr upcoming now
    else if state.config.maxExecutions.isSome then { state with phase := .counting }
    else { state with phase := .starting }
  | .counting =>
    if state.exhausted then state.left fromStr upcoming now else { state with phase := .starting }
  | .starting => state.start now
  | .handling => state
  | .recording =>
    { state with stats := { state.stats with successCount := state.stats.successCount + 1 } }.left
      fromStr upcoming now
  | .removing => { state with phase := .ended }
  | .ended => state

def taskTurn (s : Scheduler) (n : Nat) : Scheduler :=
  match s.states n with
  | none => s
  | some state =>
    let moved := s.put n (state.turn fromStr upcoming s.now (s.tasks state.config.id).isSome)
    if state.phase = .removing then { moved with tasks := Function.update s.tasks state.config.id none }
    else moved

/-- The handler's future ends; a panic takes the task with it. -/
def handlerEnds (s : Scheduler) (n : Nat) (panics : Bool) : Scheduler :=
  match s.states n with
  | none => s
  | some state =>
    match state.phase with
    | .handling => s.put n { state with phase := if panics then .ended else .recording }
    | _ => s

/-- Only `spawn_cron_task` can fail. -/
def spawnError (now : Nat) : TaskTrigger → Option ScheduleError
  | .cron expr =>
    match fromStr expr with
    | .error reason => some (.invalidCronExpression expr reason)
    | .ok schedule =>
      match upcoming schedule now with
      | none => some (.neverFires expr)
      | some _ => none
  | _ => none

def scheduleTurn (s : Scheduler) (n : Nat) (config : TaskConfig) : SchedulePhase → Scheduler × SchedulePhase
  | .entered => if s.shutdown then (s,.returned (.error .shuttingDown)) else (s,.running)
  | .running =>
    if (s.tasks config.id).isSome then (s,.returned (.error (.taskAlreadyExists config.id))) else (s,.fresh)
  | .fresh =>
    match spawnError fromStr upcoming s.now config.trigger with
    | some error => (s,.returned (.error error))
    | none => (s.put n (.new config),.spawned)
  | .spawned =>
    match s.states n with
    | none => (s,.stored)
    | some state => (s.put n { state with handle := true },.stored)
  | .stored => ({ s with tasks := Function.update s.tasks config.id (some n) },.returned (.ok ()))
  | .returned result => (s,.returned result)

end Tasks

/-- `schedule` is not refused for this id. -/
def Scheduler.accepts (s : Scheduler) (id : String) : Bool :=
  !s.shutdown && (s.tasks id).isNone

end ClawKernel.Runtime.TokioScheduler
