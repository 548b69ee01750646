import Mathlib.Data.List.FinRange
import Mathlib.Data.List.Sort
import ClawKernel.Lib.Interleaving
import ClawKernel.Runtime.Executions

/-! `schedule`, `cancel` and `shutdown` of a `TokioScheduler` at once, with the tasks they spawn
and abort. The map is in shards: an iteration holds one shard at a time, and whoever writes to
that shard waits. A task that is aborted ends where it next suspends.
-/
namespace ClawKernel.Runtime.Cancellation
open Lib Lib.Runs Lib.Tables TokioScheduler
open Lib.Interleaving hiding step start
open Executions (TaskNotFound)

inductive CancelPhase where
  | entered
  | taken (n : Nat)
  | returned (result : Except TaskNotFound Unit)

inductive ShutdownPhase (shards : Nat) where
  | entered
  | flagged
  | visiting (shard : Fin shards) (left : List Nat) (later : List (Fin shards))
  | clearing (left : List (Fin shards))
  | returned

/-- `parked` says which tasks are found suspended when they are aborted, and `rank` in what order
the entries of a shard come. -/
inductive Call (shards : Nat) where
  | schedule (config : TaskConfig) (n : Nat) (phase : SchedulePhase)
  | cancel (id : String) (parked : Bool) (phase : CancelPhase)
  | shutdown (parked : Nat → Bool) (rank : String → Nat) (phase : ShutdownPhase shards)

inductive Request where
  | schedule (config : TaskConfig)
  | cancel (id : String) (parked : Bool)
  | shutdown (parked : Nat → Bool) (rank : String → Nat)

/-- The tasks are numbered as they are spawned. `aborted` are those that have yet to suspend,
`readers` counts the iterations at a shard and `removed` has the tasks whose entries were removed. -/
structure Shared (shards : Nat) where
  now : Nat
  shutdown : Bool
  tasks : Table String Nat
  states : Nat → Option TaskState
  issued : Nat
  aborted : List Nat
  readers : Fin shards → Nat
  removed : List Nat

section Scheduler
variable {shards : Nat} (shard : String → Fin shards)

def Shared.scheduler (s : Shared shards) : Scheduler := ⟨s.now,s.shutdown,fun id => s.tasks.lookup id,s.states⟩

def Shared.put (s : Shared shards) (n : Nat) (state : TaskState) : Shared shards :=
  { s with states := Function.update s.states n (some state) }

theorem put_self (s : Shared shards) (n : Nat) (state : TaskState) : (s.put n state).states n = some state := by
  simp [Shared.put]

theorem put_other (s : Shared shards) (n m : Nat) (state : TaskState) (apart : m ≠ n) :
    (s.put n state).states m = s.states m := by
  simp [Shared.put,apart]

/-- No iteration holds the shard of the id. -/
def Shared.unheld (s : Shared shards) (id : String) : Bool := decide (s.readers (shard id) = 0)

def Shared.remove (s : Shared shards) (id : String) : Shared shards :=
  { s with tasks := s.tasks.erase id, removed := s.removed ++ (s.tasks.lookup id).toList }

/-- Where a task can be suspended. -/
def suspends : Phase → Bool
  | .begun => true
  | .sleeping => true
  | .handling => true
  | _ => false

def abort (s : Shared shards) (n : Nat) (state : TaskState) (parked : Bool) : Shared shards :=
  if state.phase = .ended then s.put n state
  else if parked && suspends state.phase then s.put n { state with phase := .ended }
  else { s.put n state with aborted := n :: s.aborted }

/-- The handle is taken, and the task aborted by it. -/
def takeHandle (s : Shared shards) (n : Nat) (parked : Bool) : Shared shards :=
  match s.states n with
  | none => s
  | some state => if state.handle then abort s n { state with handle := false } parked else s

/-- The tasks with an entry in the shard. -/
def visits (s : Shared shards) (rank : String → Nat) (i : Fin shards) : List Nat :=
  ((s.tasks.entries.filter (fun entry => shard entry.1 = i)).insertionSort
    (fun entry other => rank entry.1 ≤ rank other.1)).map Sigma.snd

def acquire (s : Shared shards) (i : Fin shards) : Shared shards :=
  { s with readers := Function.update s.readers i (s.readers i + 1) }

def release (s : Shared shards) : Option (Fin shards) → Shared shards
  | none => s
  | some i => { s with readers := Function.update s.readers i (s.readers i - 1) }

/-- The iteration goes on to the next shard before it lets the last one go. -/
def nextShard (s : Shared shards) (rank : String → Nat) (held : Option (Fin shards)) :
    List (Fin shards) → Shared shards × ShutdownPhase shards
  | [] => (release s held,.clearing (List.finRange shards))
  | i :: later => (release (acquire s i) held,.visiting i (visits shard s rank i) later)

def clearShard (s : Shared shards) (i : Fin shards) : Shared shards :=
  { s with
    tasks := s.tasks.entries.foldl (fun rest entry => if shard entry.1 ≠ i then rest else rest.erase entry.1) s.tasks
    removed := s.removed ++ (s.tasks.entries.filter (fun entry => shard entry.1 = i)).map Sigma.snd }

def shutdownTurn (s : Shared shards) (parked : Nat → Bool) (rank : String → Nat) :
    ShutdownPhase shards → Shared shards × ShutdownPhase shards
  | .entered => ({ s with shutdown := true },.flagged)
  | .flagged => nextShard shard s rank none (List.finRange shards)
  | .visiting i (n :: left) later => (takeHandle s n (parked n),.visiting i left later)
  | .visiting i [] later => nextShard shard s rank (some i) later
  | .clearing (i :: left) =>
    if s.readers i = 0 then (clearShard shard s i,.clearing left) else (s,.clearing (i :: left))
  | .clearing [] => (s,.returned)
  | .returned => (s,.returned)

def cancelTurn (s : Shared shards) (id : String) (parked : Bool) : CancelPhase → Shared shards × CancelPhase
  | .entered =>
    if s.unheld shard id then
      match s.tasks.lookup id with
      | none => (s,.returned (.error ⟨id⟩))
      | some n => (s.remove id,.taken n)
    else (s,.entered)
  | .taken n => (takeHandle s n parked,.returned (.ok ()))
  | .returned result => (s,.returned result)

section Tasks
variable {Schedule : Type} (fromStr : String → Except String Schedule) (upcoming : Schedule → Nat → Option Nat)

/-- The number of the call is that of its task once that is spawned. -/
def schedulingTurn (s : Shared shards) (config : TaskConfig) (n : Nat) : SchedulePhase → Shared shards × Nat × SchedulePhase
  | .fresh =>
    match scheduleTurn fromStr upcoming s.scheduler s.issued config .fresh with
    | (after,.spawned) => ({ s with states := after.states, issued := s.issued + 1 },s.issued,.spawned)
    | (_,phase) => (s,n,phase)
  | .stored =>
    if s.unheld shard config.id then ({ s with tasks := s.tasks.insert config.id n },n,.returned (.ok ()))
    else (s,n,.stored)
  | phase =>
    let after := scheduleTurn fromStr upcoming s.scheduler n config phase
    ({ s with states := after.1.states },n,after.2)

def entered : Request → Call shards
  | .schedule config => .schedule config 0 .entered
  | .cancel id parked => .cancel id parked .entered
  | .shutdown parked rank => .shutdown parked rank .entered

def access (s : Shared shards) : Call shards → Shared shards × Call shards
  | .schedule config n phase =>
    let after := schedulingTurn shard fromStr upcoming s config n phase
    (after.1,.schedule config after.2.1 after.2.2)
  | .cancel id parked phase =>
    let after := cancelTurn shard s id parked phase
    (after.1,.cancel id parked after.2)
  | .shutdown parked rank phase =>
    let after := shutdownTurn shard s parked rank phase
    (after.1,.shutdown parked rank after.2)

/-- A task that is aborted ends where it would sleep. -/
def taskTurn (s : Shared shards) (n : Nat) : Shared shards :=
  match s.states n with
  | none => s
  | some state =>
    if state.phase = .removing then
      if s.unheld shard state.config.id then (s.put n { state with phase := .ended }).remove state.config.id else s
    else if state.phase = .sleeping ∧ s.now < state.wakes ∧ n ∈ s.aborted then s.put n { state with phase := .ended }
    else s.put n (state.turn fromStr upcoming s.now (s.tasks.lookup state.config.id).isSome)

end Tasks

inductive HandlerTurn where
  | awaits
  | finishes
  | panics

/-- What the handler's future does. -/
def handlerTurn (s : Shared shards) (n : Nat) (does : HandlerTurn) : Shared shards :=
  match s.states n with
  | none => s
  | some state =>
    if state.phase = .handling then
      match does with
      | .awaits => if n ∈ s.aborted then s.put n { state with phase := .ended } else s
      | .finishes => s.put n { state with phase := .recording }
      | .panics => s.put n { state with phase := .ended }
    else s

inductive Turn where
  | call (action : Action Request)
  | task (n : Nat)
  | handler (n : Nat) (does : HandlerTurn)
  | tick (elapsed : Nat)

section Run
variable {Schedule : Type} (fromStr : String → Except String Schedule) (upcoming : Schedule → Nat → Option Nat)

def step (s : System (Shared shards) (Call shards)) : Turn → System (Shared shards) (Call shards)
  | .call action => Interleaving.step entered (access shard fromStr upcoming) s action
  | .task n => { s with shared := taskTurn shard fromStr upcoming s.shared n }
  | .handler n does => { s with shared := handlerTurn s.shared n does }
  | .tick elapsed => { s with shared := { s.shared with now := s.shared.now + elapsed } }

/-- `TokioScheduler::new`. -/
def start (now : Nat) : System (Shared shards) (Call shards) :=
  Interleaving.start ⟨now,false,∅,fun _ => none,0,[],fun _ => 0,[]⟩

end Run
end Scheduler
end ClawKernel.Runtime.Cancellation
