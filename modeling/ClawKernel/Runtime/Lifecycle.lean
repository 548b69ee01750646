import ClawKernel.Lib.Interleaving
import ClawKernel.Runtime.Orchestrator

/-! The lifecycle of agents with every access to the maps a step of its own, and the process
manager taking as long as it likes between two of them. Each registration has a number, by
which an entry, a loop, a restart and an event say whose they are.
-/
namespace ClawKernel.Runtime.Lifecycle
open Lib Lib.Runs Lib.Tables Lib.Interleaving Orchestrator

structure Entry where
  number : Nat
  state : AgentState

/-- What happens in the life of a registration: an event of it is published, or a call that
removes it has begun. -/
inductive Mark where
  | published (number : Nat) (event : Event)
  | began (number : Nat)
  deriving DecidableEq, Repr

structure Shared where
  agents : Table String Entry
  capabilities : Table String (List String)
  restartStates : Table String RestartState
  restartPolicy : RestartPolicy
  heartbeatTimeoutMs : Nat
  loops : List (String × Nat)
  /-- How many registrations were made, and which were removed by a call that had found them. -/
  issued : Nat
  retired : List Nat
  marks : List Mark

def new (heartbeatTimeoutMs : Nat) : Shared where
  agents := ∅
  capabilities := ∅
  restartStates := ∅
  restartPolicy := ⟨false,3⟩
  heartbeatTimeoutMs := heartbeatTimeoutMs
  loops := []
  issued := 0
  retired := []
  marks := []

def Shared.mark (s : Shared) (mark : Mark) : Shared := { s with marks := s.marks ++ [mark] }

def Shared.change (s : Shared) (agentId : String) (change : AgentState → AgentState) : Shared :=
  { s with agents := modify s.agents agentId (fun entry => { entry with state := change entry.state }) }

def Shared.insert (s : Shared) (agentId : String) (state : AgentState) : Shared :=
  { s with agents := s.agents.insert agentId ⟨s.issued,state⟩, issued := s.issued + 1 }

/-- `remove` by a call that has found the registration with this number. -/
def Shared.remove (s : Shared) (agentId : String) (number : Nat) : Shared :=
  { s with
    agents := s.agents.erase agentId
    retired := if (s.agents.lookup agentId).any (·.number = number) then s.retired ++ [number] else s.retired }

/-! `register`, `spawn` and `spawn_agent`. -/

inductive Making where
  | register (now : Nat) (config : AgentConfig)
  | spawn (now : Nat) (config : AgentConfig) (spawned : Except String Nat)
  | spawnAgent (now : Nat) (agentId name : String) (policy : AgentRestartPolicy)

def Making.agentId : Making → String
  | .register _ config => config.agentId
  | .spawn _ config _ => config.agentId
  | .spawnAgent _ agentId _ _ => agentId

inductive MakingPhase where
  | entered
  | checked
  | spawned (pid : Nat)
  | inserted (number : Nat)
  | supervised (number : Nat)
  | published (number : Nat)
  | returned (result : Except RuntimeError Nat)

def insertTurn (s : Shared) (agentId : String) (state : AgentState) : Shared × MakingPhase :=
  (s.insert agentId state,.inserted s.issued)

def makingTurn (s : Shared) (making : Making) : MakingPhase → Shared × MakingPhase
  | .entered =>
    if making.agentId ∈ s.agents then (s,.returned (.error (.agentAlreadyExists making.agentId))) else (s,.checked)
  | .checked =>
    match making with
    | .register now config => insertTurn s config.agentId (.new now config none)
    | .spawn _ _ (.error message) => (s,.returned (.error (.processError message)))
    | .spawn _ _ (.ok pid) => (s,.spawned pid)
    | .spawnAgent now agentId name _ =>
      insertTurn s agentId { AgentState.new now ⟨agentId,name,∅⟩ none with ipcTx := true }
  | .spawned pid =>
    match making with
    | .spawn now config _ => insertTurn s config.agentId (.new now config (some pid))
    | _ => (s,.spawned pid)
  | .inserted number =>
    match making with
    | .spawnAgent _ agentId name policy =>
      ({ s with restartStates := s.restartStates.insert agentId ⟨name,0,policy⟩ },.supervised number)
    | _ => (s.mark (.published number (.agentStarted making.agentId)),.returned (.ok number))
  | .supervised number => (s.mark (.published number (.agentStarted making.agentId)),.published number)
  | .published number => ({ s with loops := s.loops ++ [(making.agentId,number)] },.returned (.ok number))
  | .returned result => (s,.returned result)

/-! `unregister`, `terminate` and `kill`. -/

inductive Ending where
  | unregister (agentId reason : String)
  | terminate (agentId : String) (answer : Except String Unit)
  | kill (agentId : String) (answer : Except String Unit)

def Ending.agentId : Ending → String
  | .unregister agentId _ => agentId
  | .terminate agentId _ => agentId
  | .kill agentId _ => agentId

def Ending.reason : Ending → String
  | .unregister _ reason => reason
  | .terminate _ _ => "terminated"
  | .kill _ _ => "killed"

inductive EndingPhase where
  | entered
  | taken (number : Nat) (state : AgentState)
  | waited (number : Nat) (result : Except RuntimeError Unit)
  | removed (number : Nat) (result : Except RuntimeError Unit)
  | cleared (number : Nat) (result : Except RuntimeError Unit)
  | returned (number : Option Nat) (result : Except RuntimeError Unit)

/-- The status is set and the process handle taken. -/
def take (s : Shared) (agentId : String) (status : AgentStatus) : Shared × EndingPhase :=
  match s.agents.lookup agentId with
  | none => (s,.returned none (.error (.agentNotFound agentId)))
  | some entry =>
    ((s.change agentId (fun state => { state with status := status, processHandle := none })).mark (.began entry.number),
      .taken entry.number entry.state)

def stoppedTurn (s : Shared) (ending : Ending) (number : Nat) (result : Except RuntimeError Unit) : Shared × EndingPhase :=
  (s.mark (.published number (.agentStopped ending.agentId ending.reason)),.returned (some number) result)

def endingTurn (s : Shared) (ending : Ending) : EndingPhase → Shared × EndingPhase
  | .entered =>
    match ending with
    | .unregister agentId _ =>
      match s.agents.lookup agentId with
      | none => (s,.returned none (.error (.agentNotFound agentId)))
      | some entry => ((s.remove agentId entry.number).mark (.began entry.number),.removed entry.number (.ok ()))
    | .terminate agentId _ => take s agentId .stopped
    | .kill agentId _ => take s agentId .error
  | .taken number state =>
    match ending with
    | .unregister _ _ => (s,.taken number state)
    | .terminate _ answer => (s,.waited number (ended state answer))
    | .kill _ answer => (s,.waited number (ended state answer))
  | .waited number result => (s.remove ending.agentId number,.removed number result)
  | .removed number result =>
    match ending with
    | .terminate _ _ => stoppedTurn s ending number result
    | _ => ({ s with capabilities := s.capabilities.erase ending.agentId },.cleared number result)
  | .cleared number result => stoppedTurn s ending number result
  | .returned number result => (s,.returned number result)

/-! The tasks beside the calls. Each visits the map in some order. -/

inductive HealthPhase where
  | collecting (left ids : List String)
  | checking (ids : List String)

/-- One round of the health check task. -/
def healthTurn (s : Shared) (now : Nat) : HealthPhase → Shared × HealthPhase
  | .collecting [] ids => (s,.checking ids)
  | .collecting (agentId :: left) ids =>
    (s,.collecting left
      (if (s.agents.lookup agentId).any (fun entry =>
        decide (entry.state.status = .running) && entry.state.processHandle.isSome) then ids ++ [agentId] else ids))
  | .checking [] => (s,.checking [])
  | .checking (agentId :: rest) =>
    (s.change agentId (fun state =>
      if now - state.lastHeartbeat > s.heartbeatTimeoutMs then { state with status := .error } else state),.checking rest)

/-- What a sweep has still to restart: the agents with the registrations it has found. -/
inductive SweepPhase where
  | entered
  | collecting (maxRestarts : Nat) (left : List String) (picked : List (String × Nat))
  | restarting (picked : List (String × Nat))
  | announcing (agentId : String) (number : Nat) (picked : List (String × Nat))

def sweepPick (s : Shared) (maxRestarts : Nat) (agentId : String) : Option (String × Nat) :=
  match s.agents.lookup agentId with
  | none => none
  | some entry =>
    if (decide (entry.state.status = .stopped) || decide (entry.state.status = .error)) &&
        !decide (agentId ∈ s.restartStates) && decide (entry.state.restartCount < maxRestarts) then
      some (agentId,entry.number)
    else none

/-- One round of the auto-restart task; `visits` is what it finds in the map. -/
def sweepTurn (s : Shared) (now : Nat) (visits : List String) : SweepPhase → Shared × SweepPhase
  | .entered =>
    if s.restartPolicy.enabled then (s,.collecting s.restartPolicy.maxRestarts visits []) else (s,.restarting [])
  | .collecting _ [] picked => (s,.restarting picked)
  | .collecting maxRestarts (agentId :: left) picked =>
    (s,.collecting maxRestarts left (picked ++ (sweepPick s maxRestarts agentId).toList))
  | .restarting [] => (s,.restarting [])
  | .restarting ((agentId,number) :: picked) =>
    (s.change agentId (fun state => { state with
      restartCount := state.restartCount + 1
      status := .running
      lastHeartbeat := now }),.announcing agentId number picked)
  | .announcing agentId number picked => (s.mark (.published number (.agentStarted agentId)),.restarting picked)

/-- The supervisor of a message loop, and then `trigger_restart`. -/
inductive ExitPhase where
  | entered
  | exited
  | marked
  | stopped
  | spent
  | counted (attempts : Nat)
  | dropped (attempts : Nat)
  | due
  | recorded (attempt delayMs : Nat)
  | sleeping (attempt delayMs : Nat)
  | woken (attempt delayMs : Nat)
  | looped (attempt delayMs : Nat)
  | restarted (attempt delayMs : Nat)
  | returned

structure Exit where
  agentId : String
  number : Nat
  reason : String
  now : Nat

def exitTurn (s : Shared) (exit : Exit) : ExitPhase → Shared × ExitPhase
  | .entered =>
    if (exit.agentId,exit.number) ∈ s.loops then ({ s with loops := s.loops.erase (exit.agentId,exit.number) },.exited)
    else (s,.returned)
  | .exited =>
    (s.change exit.agentId (fun state =>
      if state.status = .running ∨ state.status = .starting then { state with status := .error } else state),.marked)
  | .marked => (s.mark (.published exit.number (.agentStopped exit.agentId exit.reason)),.stopped)
  | .stopped =>
    if (s.restartStates.lookup exit.agentId).any RestartState.shouldRestart then (s,.due) else (s,.spent)
  | .spent => (s,.counted (((s.restartStates.lookup exit.agentId).map RestartState.attempt).getD 0))
  | .counted attempts => ({ s with restartStates := s.restartStates.erase exit.agentId },.dropped attempts)
  | .dropped attempts => (s.mark (.published exit.number (.agentFailed exit.agentId attempts exit.reason)),.returned)
  | .due =>
    match s.restartStates.lookup exit.agentId with
    | none => (s,.returned)
    | some state =>
      ({ s with restartStates := s.restartStates.insert exit.agentId { state with attempt := state.attempt + 1 } },
        .recorded (state.attempt + 1) (state.policy.delayForAttempt state.attempt))
  | .recorded attempt delayMs =>
    (s.change exit.agentId (fun state => { state with status := .starting }),.sleeping attempt delayMs)
  | .sleeping attempt delayMs => if exit.agentId ∈ s.agents then (s,.woken attempt delayMs) else (s,.returned)
  | .woken attempt delayMs =>
    if (s.agents.lookup exit.agentId).any (·.state.ipcTx) then
      ({ s with loops := s.loops ++ [(exit.agentId,exit.number)] },.looped attempt delayMs)
    else (s,.looped attempt delayMs)
  | .looped attempt delayMs =>
    (s.change exit.agentId (fun state => { state with
      status := .running
      restartCount := attempt
      lastHeartbeat := exit.now }),.restarted attempt delayMs)
  | .restarted attempt delayMs =>
    (s.mark (.published exit.number (.agentRestarted exit.agentId attempt delayMs)),.returned)
  | .returned => (s,.returned)

inductive Call where
  | making (making : Making) (phase : MakingPhase)
  | ending (ending : Ending) (phase : EndingPhase)
  | health (now : Nat) (phase : HealthPhase)
  | sweep (now : Nat) (visits : List String) (phase : SweepPhase)
  | exit (exit : Exit) (phase : ExitPhase)
  | enableAutoRestart (policy : RestartPolicy)
  | announceCapabilities (agentId : String) (capabilities : List String)
  | done

inductive Request where
  | making (making : Making)
  | ending (ending : Ending)
  | health (now : Nat) (visits : List String)
  | sweep (now : Nat) (visits : List String)
  | exit (exit : Exit)
  | enableAutoRestart (policy : RestartPolicy)
  | announceCapabilities (agentId : String) (capabilities : List String)

def entered : Request → Call
  | .making making => .making making .entered
  | .ending ending => .ending ending .entered
  | .health now visits => .health now (.collecting visits [])
  | .sweep now visits => .sweep now visits .entered
  | .exit exit => .exit exit .entered
  | .enableAutoRestart policy => .enableAutoRestart policy
  | .announceCapabilities agentId capabilities => .announceCapabilities agentId capabilities

def access (s : Shared) : Call → Shared × Call
  | .making making phase =>
    let after := makingTurn s making phase
    (after.1,.making making after.2)
  | .ending ending phase =>
    let after := endingTurn s ending phase
    (after.1,.ending ending after.2)
  | .health now phase =>
    let after := healthTurn s now phase
    (after.1,.health now after.2)
  | .sweep now visits phase =>
    let after := sweepTurn s now visits phase
    (after.1,.sweep now visits after.2)
  | .exit exit phase =>
    let after := exitTurn s exit phase
    (after.1,.exit exit after.2)
  | .enableAutoRestart policy => ({ s with restartPolicy := policy },.done)
  | .announceCapabilities agentId capabilities =>
    ({ s with capabilities := s.capabilities.insert agentId capabilities },.done)
  | .done => (s,.done)

def step : System Shared Call → Action Request → System Shared Call :=
  Interleaving.step entered access

/-! Whose the entries are. -/

def numberOf (s : Shared) (agentId : String) : Option Nat := (s.agents.lookup agentId).map Entry.number

/-- No registration is made and none removed. -/
structure Same (s after : Shared) : Prop where
  numbers : ∀ agentId, numberOf after agentId = numberOf s agentId
  issued : after.issued = s.issued
  retired : after.retired = s.retired

theorem same_refl (s : Shared) : Same s s := ⟨fun _ => rfl,rfl,rfl⟩

theorem same_mark (s : Shared) (mark : Mark) : Same s (s.mark mark) := ⟨fun _ => rfl,rfl,rfl⟩

theorem same_change (s : Shared) (agentId : String) (change : AgentState → AgentState) :
    Same s (s.change agentId change) := by
  refine ⟨fun other => ?_,rfl,rfl⟩
  unfold numberOf Shared.change
  rw [lookup_modify]
  split
  · rename_i same
    rw [same,Option.map_map]
    rfl
  · rfl

theorem numberOf_insert (s : Shared) (agentId other : String) (state : AgentState) :
    numberOf (s.insert agentId state) other = if other = agentId then some s.issued else numberOf s other := by
  unfold numberOf Shared.insert
  rw [lookup_insert_if]
  split
  · rfl
  · rfl

theorem numberOf_remove (s : Shared) (agentId other : String) (number : Nat) :
    numberOf (s.remove agentId number) other = if other = agentId then none else numberOf s other := by
  unfold numberOf Shared.remove
  rw [lookup_erase_if]
  split
  · rfl
  · rfl

theorem mem_iff_numberOf (s : Shared) (agentId : String) :
    agentId ∈ s.agents ↔ ∃ number, numberOf s agentId = some number := by
  unfold numberOf
  rw [← AList.lookup_isSome,Option.isSome_iff_exists]
  constructor
  · rintro ⟨entry,found⟩
    exact ⟨entry.number,by rw [found]; rfl⟩
  · rintro ⟨number,found⟩
    obtain ⟨entry,there,_⟩ := Option.map_eq_some_iff.mp found
    exact ⟨entry,there⟩

theorem retired_remove (s : Shared) (agentId : String) (number : Nat) :
    (s.remove agentId number).retired =
      if numberOf s agentId = some number then s.retired ++ [number] else s.retired := by
  unfold Shared.remove numberOf
  cases s.agents.lookup agentId with
  | none => rfl
  | some entry => simp only [Option.any_some,decide_eq_true_eq,Option.map_some,Option.some.injEq]

/-- The id for which the call makes an entry next. -/
def inserting : Call → Option String
  | .making (.register _ config) .checked => some config.agentId
  | .making (.spawnAgent _ agentId _ _) .checked => some agentId
  | .making (.spawn _ config _) (.spawned _) => some config.agentId
  | _ => none

/-- The entry that the call removes next, and the number of the one it has found. -/
def removing : Call → Option (String × Nat)
  | .ending ending (.waited number _) => some (ending.agentId,number)
  | _ => none

/-- The registration the call has made. -/
def made : Call → Option (String × Nat)
  | .making making (.inserted number) => some (making.agentId,number)
  | .making making (.supervised number) => some (making.agentId,number)
  | .making making (.published number) => some (making.agentId,number)
  | .making making (.returned (.ok number)) => some (making.agentId,number)
  | _ => none

/-- What one access does to the registrations. -/
inductive Traffic (s : Shared) (call : Call) (after : Shared) : Prop
  | same (idle : inserting call = none ∧ removing call = none) (same : Same s after)
  | inserted (agentId : String) (state : AgentState) (inserts : inserting call = some agentId) (idle : removing call = none)
      (same : after = s.insert agentId state)
  | removed (agentId : String) (number : Nat) (idle : inserting call = none)
      (own : removing call = some (agentId,number) ∨ removing call = none ∧ numberOf s agentId = some number)
      (same : Same (s.remove agentId number) after)

theorem making_traffic (s : Shared) (making : Making) (phase : MakingPhase) :
    Traffic s (.making making phase) (makingTurn s making phase).1 := by
  cases phase with
  | entered =>
    simp only [makingTurn]
    split
    · exact .same (by cases making <;> exact ⟨rfl,rfl⟩) (same_refl s)
    · exact .same (by cases making <;> exact ⟨rfl,rfl⟩) (same_refl s)
  | checked =>
    cases making with
    | register now config => exact .inserted config.agentId _ rfl rfl rfl
    | spawn now config spawned =>
      cases spawned with
      | error message => exact .same ⟨rfl,rfl⟩ (same_refl s)
      | ok pid => exact .same ⟨rfl,rfl⟩ (same_refl s)
    | spawnAgent now agentId name policy => exact .inserted agentId _ rfl rfl rfl
  | spawned pid =>
    cases making with
    | register now config => exact .same ⟨rfl,rfl⟩ (same_refl s)
    | spawn now config spawned => exact .inserted config.agentId _ rfl rfl rfl
    | spawnAgent now agentId name policy => exact .same ⟨rfl,rfl⟩ (same_refl s)
  | inserted number =>
    cases making with
    | register now config => exact .same ⟨rfl,rfl⟩ (same_mark s _)
    | spawn now config spawned => exact .same ⟨rfl,rfl⟩ (same_mark s _)
    | spawnAgent now agentId name policy => exact .same ⟨rfl,rfl⟩ ⟨fun _ => rfl,rfl,rfl⟩
  | supervised number => exact .same (by cases making <;> exact ⟨rfl,rfl⟩) (same_mark s _)
  | published number => exact .same (by cases making <;> exact ⟨rfl,rfl⟩) ⟨fun _ => rfl,rfl,rfl⟩
  | returned result => exact .same (by cases making <;> exact ⟨rfl,rfl⟩) (same_refl s)

theorem take_same (s : Shared) (agentId : String) (status : AgentStatus) : Same s (take s agentId status).1 := by
  unfold take
  split
  · exact same_refl s
  · obtain ⟨numbers,issued,retired⟩ := same_change s agentId
      (fun state => { state with status := status, processHandle := none })
    exact ⟨numbers,issued,retired⟩

theorem ending_traffic (s : Shared) (ending : Ending) (phase : EndingPhase) :
    Traffic s (.ending ending phase) (endingTurn s ending phase).1 := by
  cases phase with
  | entered =>
    cases ending with
    | unregister agentId reason =>
      unfold endingTurn
      dsimp only
      split
      · exact .same ⟨rfl,rfl⟩ (same_refl s)
      · rename_i entry found
        exact .removed agentId entry.number rfl (Or.inr ⟨rfl,congrArg (Option.map Entry.number) found⟩) (same_mark _ _)
    | terminate agentId answer => exact .same ⟨rfl,rfl⟩ (take_same s agentId .stopped)
    | kill agentId answer => exact .same ⟨rfl,rfl⟩ (take_same s agentId .error)
  | taken number state => cases ending <;> exact .same ⟨rfl,rfl⟩ (same_refl s)
  | waited number result => exact .removed ending.agentId number rfl (Or.inl rfl) (same_refl _)
  | removed number result =>
    cases ending with
    | unregister agentId reason => exact .same ⟨rfl,rfl⟩ ⟨fun _ => rfl,rfl,rfl⟩
    | terminate agentId answer => exact .same ⟨rfl,rfl⟩ (same_mark s _)
    | kill agentId answer => exact .same ⟨rfl,rfl⟩ ⟨fun _ => rfl,rfl,rfl⟩
  | cleared number result => exact .same ⟨rfl,rfl⟩ (same_mark s _)
  | returned number result => exact .same ⟨rfl,rfl⟩ (same_refl s)

theorem health_same (s : Shared) (now : Nat) (phase : HealthPhase) : Same s (healthTurn s now phase).1 := by
  unfold healthTurn
  split
  · exact same_refl s
  · exact same_refl s
  · exact same_refl s
  · dsimp only
    exact same_change s _ _

theorem sweep_same (s : Shared) (now : Nat) (visits : List String) (phase : SweepPhase) :
    Same s (sweepTurn s now visits phase).1 := by
  unfold sweepTurn
  split
  · split <;> exact same_refl s
  · exact same_refl s
  · exact same_refl s
  · exact same_refl s
  · dsimp only
    exact same_change s _ _
  · exact same_mark s _

theorem exit_same (s : Shared) (exit : Exit) (phase : ExitPhase) : Same s (exitTurn s exit phase).1 := by
  unfold exitTurn
  split
  · split <;> exact ⟨fun _ => rfl,rfl,rfl⟩
  · dsimp only
    exact same_change s _ _
  · exact same_mark s _
  · split <;> exact same_refl s
  · exact same_refl s
  · exact ⟨fun _ => rfl,rfl,rfl⟩
  · exact same_mark s _
  · split <;> exact ⟨fun _ => rfl,rfl,rfl⟩
  · dsimp only
    exact same_change s _ _
  · split <;> exact same_refl s
  · split <;> exact ⟨fun _ => rfl,rfl,rfl⟩
  · dsimp only
    exact same_change s _ _
  · exact same_mark s _
  · exact same_refl s

theorem access_traffic (s : Shared) (call : Call) : Traffic s call (access s call).1 := by
  cases call with
  | making making phase => exact making_traffic s making phase
  | ending ending phase => exact ending_traffic s ending phase
  | health now phase => exact .same ⟨rfl,rfl⟩ (health_same s now phase)
  | sweep now visits phase => exact .same ⟨rfl,rfl⟩ (sweep_same s now visits phase)
  | exit exit phase => exact .same ⟨rfl,rfl⟩ (exit_same s exit phase)
  | enableAutoRestart policy => exact .same ⟨rfl,rfl⟩ ⟨fun _ => rfl,rfl,rfl⟩
  | announceCapabilities agentId capabilities => exact .same ⟨rfl,rfl⟩ ⟨fun _ => rfl,rfl,rfl⟩
  | done => exact .same ⟨rfl,rfl⟩ (same_refl s)

theorem made_access (s : Shared) (call : Call) :
    made (access s call).2 = made call ∨
      ∃ agentId, inserting call = some agentId ∧ made (access s call).2 = some (agentId,s.issued) := by
  cases call with
  | making making phase =>
    cases phase with
    | entered =>
      left
      simp only [access,makingTurn]
      split <;> rfl
    | checked =>
      cases making with
      | register now config => exact Or.inr ⟨config.agentId,rfl,rfl⟩
      | spawn now config spawned =>
        cases spawned with
        | error message => exact Or.inl rfl
        | ok pid => exact Or.inl rfl
      | spawnAgent now agentId name policy => exact Or.inr ⟨agentId,rfl,rfl⟩
    | spawned pid =>
      cases making with
      | register now config => exact Or.inl rfl
      | spawn now config spawned => exact Or.inr ⟨config.agentId,rfl,rfl⟩
      | spawnAgent now agentId name policy => exact Or.inl rfl
    | inserted number => cases making <;> exact Or.inl rfl
    | supervised number => exact Or.inl rfl
    | published number => exact Or.inl rfl
    | returned result => exact Or.inl rfl
  | _ => exact Or.inl rfl

end ClawKernel.Runtime.Lifecycle
