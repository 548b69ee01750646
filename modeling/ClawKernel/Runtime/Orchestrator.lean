import ClawKernel.Lib.Removal
import ClawKernel.Lib.Tables

/-! `AgentOrchestrator`: its agent, capability and restart-state maps, the calls that add and
remove agents, and the tasks that restart them. The process manager's answers, the clock and
the moment a backoff ends are inputs of the steps.
-/
namespace ClawKernel.Runtime.Orchestrator
open Lib.Runs Lib.Tables Lib.Removal

inductive AgentStatus where
  | starting
  | running
  | paused
  | stopped
  | error
  deriving DecidableEq, Repr

structure AgentConfig where
  agentId : String
  name : String
  metadata : Table String String

structure AgentState where
  config : AgentConfig
  startedAt : Nat
  processHandle : Option Nat
  status : AgentStatus
  lastHeartbeat : Nat
  restartCount : Nat
  /-- Whether the agent has a shared sender slot, as IPC agents do. -/
  ipcTx : Bool

def AgentState.new (now : Nat) (config : AgentConfig) (processHandle : Option Nat) : AgentState where
  config := config
  startedAt := now
  processHandle := processHandle
  status := .running
  lastHeartbeat := now
  restartCount := 0
  ipcTx := false

/-- The backoff of a policy, computed in floating point, is its `delayForAttempt`, in milliseconds. -/
structure AgentRestartPolicy where
  maxRetries : Nat
  delayForAttempt : Nat → Nat

def AgentRestartPolicy.shouldRestart (policy : AgentRestartPolicy) (attempt : Nat) : Bool :=
  attempt < policy.maxRetries

structure RestartState where
  name : String
  attempt : Nat
  policy : AgentRestartPolicy

def RestartState.shouldRestart (state : RestartState) : Bool := state.policy.shouldRestart state.attempt

/-- The orchestrator's own policy, read by the auto-restart sweep. -/
structure RestartPolicy where
  enabled : Bool
  maxRestarts : Nat
  deriving DecidableEq, Repr

inductive Event where
  | agentStarted (agentId : String)
  | agentStopped (agentId reason : String)
  | agentRestarted (agentId : String) (attempt delayMs : Nat)
  | agentFailed (agentId : String) (attempts : Nat) (reason : String)
  | custom (eventType : String) (agentId : String) (payload : Option String)
  deriving DecidableEq, Repr

inductive RuntimeError where
  | agentAlreadyExists (agentId : String)
  | agentNotFound (agentId : String)
  | processError (message : String)
  deriving DecidableEq, Repr

inductive SteerCommand where
  | pause
  | resume
  | updateConfig (config : AgentConfig)
  | setLogLevel (level : String)
  | triggerHeartbeat
  | custom (command : String) (payload : Option String)
  | injectMessage (message : String)

/-- A restart between its recorded attempt and the end of its backoff sleep. -/
structure Restarting where
  agentId : String
  attempt : Nat
  delayMs : Nat
  deriving DecidableEq, Repr

structure AgentOrchestrator where
  agents : Table String AgentState
  capabilities : Table String (List String)
  restartStates : Table String RestartState
  restartPolicy : RestartPolicy
  heartbeatTimeoutMs : Nat
  /-- The agents whose message loop runs, one entry a loop. -/
  loops : List String
  sleeping : List Restarting
  /-- Everything published on the event bus, oldest first. -/
  events : List Event
  /-- The agents whose exit was reported, for the statements below. -/
  exits : List String

def new (heartbeatTimeoutMs : Nat) : AgentOrchestrator where
  agents := ∅
  capabilities := ∅
  restartStates := ∅
  restartPolicy := ⟨false,3⟩
  heartbeatTimeoutMs := heartbeatTimeoutMs
  loops := []
  sleeping := []
  events := []
  exits := []

def publish (o : AgentOrchestrator) (event : Event) : AgentOrchestrator := { o with events := o.events ++ [event] }

def debugName : AgentStatus → String
  | .starting => "Starting"
  | .running => "Running"
  | .paused => "Paused"
  | .stopped => "Stopped"
  | .error => "Error"

def register (now : Nat) (o : AgentOrchestrator) (config : AgentConfig) : AgentOrchestrator × Except RuntimeError Unit :=
  if config.agentId ∈ o.agents then (o,.error (.agentAlreadyExists config.agentId))
  else
    (publish { o with agents := o.agents.insert config.agentId (.new now config none) }
      (.agentStarted config.agentId),.ok ())

def unregister (o : AgentOrchestrator) (agentId reason : String) : AgentOrchestrator × Except RuntimeError Unit :=
  if agentId ∈ o.agents then
    (publish { o with
        agents := o.agents.erase agentId
        capabilities := o.capabilities.erase agentId } (.agentStopped agentId reason),.ok ())
  else (o,.error (.agentNotFound agentId))

/-- `spawned` is what the process manager answers. -/
def spawn (now : Nat) (o : AgentOrchestrator) (config : AgentConfig) (spawned : Except String Nat) :
    AgentOrchestrator × Except RuntimeError Unit :=
  if config.agentId ∈ o.agents then (o,.error (.agentAlreadyExists config.agentId))
  else
    match spawned with
    | .error message => (o,.error (.processError message))
    | .ok pid =>
      (publish { o with agents := o.agents.insert config.agentId (.new now config (some pid)) }
        (.agentStarted config.agentId),.ok ())

/-- The process manager is asked only where the agent has a process. -/
def ended (state : AgentState) (answer : Except String Unit) : Except RuntimeError Unit :=
  match state.processHandle,answer with
  | some _,.error message => .error (.processError message)
  | _,_ => .ok ()

def terminate (o : AgentOrchestrator) (agentId : String) (answer : Except String Unit) :
    AgentOrchestrator × Except RuntimeError Unit :=
  match o.agents.lookup agentId with
  | none => (o,.error (.agentNotFound agentId))
  | some state =>
    (publish { o with agents := o.agents.erase agentId } (.agentStopped agentId "terminated"),ended state answer)

def kill (o : AgentOrchestrator) (agentId : String) (answer : Except String Unit) :
    AgentOrchestrator × Except RuntimeError Unit :=
  match o.agents.lookup agentId with
  | none => (o,.error (.agentNotFound agentId))
  | some state =>
    (publish { o with
        agents := o.agents.erase agentId
        capabilities := o.capabilities.erase agentId } (.agentStopped agentId "killed"),ended state answer)

def announceCapabilities (o : AgentOrchestrator) (agentId : String) (capabilities : List String) : AgentOrchestrator :=
  { o with capabilities := o.capabilities.insert agentId capabilities }

/-- `agentId` is the generated id. -/
def spawnAgent (now : Nat) (o : AgentOrchestrator) (agentId name : String) (policy : AgentRestartPolicy) :
    AgentOrchestrator × Except RuntimeError Unit :=
  if agentId ∈ o.agents then (o,.error (.agentAlreadyExists agentId))
  else
    (publish { o with
        agents := o.agents.insert agentId { AgentState.new now ⟨agentId,name,∅⟩ none with ipcTx := true }
        restartStates := o.restartStates.insert agentId ⟨name,0,policy⟩
        loops := o.loops ++ [agentId] } (.agentStarted agentId),.ok ())

def setAgentRestartPolicy (o : AgentOrchestrator) (agentId : String) (policy : AgentRestartPolicy) :
    AgentOrchestrator × Except RuntimeError Unit :=
  if agentId ∈ o.restartStates then
    ({ o with restartStates := modify o.restartStates agentId (fun state => { state with policy := policy }) },.ok ())
  else (o,.error (.agentNotFound agentId))

def steer (now : Nat) (o : AgentOrchestrator) (agentId : String) (command : SteerCommand) :
    AgentOrchestrator × Except RuntimeError Unit :=
  match o.agents.lookup agentId with
  | none => (o,.error (.agentNotFound agentId))
  | some state =>
    let change (f : AgentState → AgentState) : AgentOrchestrator := { o with agents := modify o.agents agentId f }
    match command with
    | .triggerHeartbeat => (change (fun entry => { entry with lastHeartbeat := now }),.ok ())
    | .custom command payload => (publish o (.custom ("steer:" ++ command) agentId payload),.ok ())
    | .injectMessage message =>
      if state.ipcTx then
        -- a loop that is gone has dropped its receiver
        (o,if agentId ∈ o.loops then .ok () else .error (.agentNotFound agentId))
      else (publish o (.custom "trigger:inject_message" agentId (some message)),.ok ())
    | .pause =>
      if state.status = .running then (change (fun entry => { entry with status := .paused }),.ok ())
      else (o,.error (.processError ("Cannot pause agent in " ++ debugName state.status ++ " state")))
    | .resume =>
      if state.status = .paused then (change (fun entry => { entry with status := .running }),.ok ())
      else (o,.error (.processError ("Cannot resume agent in " ++ debugName state.status ++ " state")))
    | .updateConfig config => (change (fun entry => { entry with config := config }),.ok ())
    | .setLogLevel level =>
      (change (fun entry => { entry with config := { entry.config with
        metadata := entry.config.metadata.insert "log_level" level } }),.ok ())

/-! The tasks beside the calls: exits, restarts after their backoff, health checks and the sweep. -/

/-- `trigger_restart` up to its sleep. -/
def triggerRestart (o : AgentOrchestrator) (agentId reason : String) : AgentOrchestrator :=
  match o.restartStates.lookup agentId with
  | none => publish o (.agentFailed agentId 0 reason)
  | some state =>
    if state.shouldRestart then
      { o with
        restartStates := o.restartStates.insert agentId { state with attempt := state.attempt + 1 }
        agents := modify o.agents agentId (fun entry => { entry with status := .starting })
        sleeping := o.sleeping ++ [⟨agentId,state.attempt + 1,state.policy.delayForAttempt state.attempt⟩] }
    else
      publish { o with restartStates := o.restartStates.erase agentId } (.agentFailed agentId state.attempt reason)

/-- `trigger_restart` after its sleep. -/
def restartNow (now : Nat) (o : AgentOrchestrator) (restart : Restarting) : AgentOrchestrator :=
  match o.agents.lookup restart.agentId with
  | none => o
  | some state =>
    publish { o with
      loops := if state.ipcTx then o.loops ++ [restart.agentId] else o.loops
      agents := modify o.agents restart.agentId (fun entry => { entry with
        status := .running
        restartCount := restart.attempt
        lastHeartbeat := now }) } (.agentRestarted restart.agentId restart.attempt restart.delayMs)

def markExited (o : AgentOrchestrator) (agentId : String) : AgentOrchestrator :=
  { o with
    exits := o.exits ++ [agentId]
    agents := modify o.agents agentId (fun entry =>
      if entry.status = .running ∨ entry.status = .starting then { entry with status := .error } else entry) }

/-- The supervisor of a message loop, once the loop has returned or panicked. -/
def loopExited (o : AgentOrchestrator) (agentId reason : String) : AgentOrchestrator :=
  if agentId ∈ o.loops then
    let marked := markExited { o with loops := o.loops.erase agentId } agentId
    triggerRestart (publish marked (.agentStopped agentId reason)) agentId reason
  else o

def handleAgentExit (o : AgentOrchestrator) (agentId reason : String) : AgentOrchestrator :=
  triggerRestart (markExited o agentId) agentId reason

/-- One round of the health check task. -/
def healthCheck (now : Nat) (o : AgentOrchestrator) : AgentOrchestrator :=
  let ids := (o.agents.entries.filter (fun entry =>
    decide (entry.2.status = .running) && entry.2.processHandle.isSome)).map Sigma.fst
  { o with agents := ids.foldl (fun agents id => modify agents id (fun entry =>
      if now - entry.lastHeartbeat > o.heartbeatTimeoutMs then { entry with status := .error } else entry)) o.agents }

def toRestart (o : AgentOrchestrator) : List String :=
  (o.agents.entries.filter (fun entry =>
    (decide (entry.2.status = .stopped) || decide (entry.2.status = .error)) &&
      !decide (entry.1 ∈ o.restartStates) && decide (entry.2.restartCount < o.restartPolicy.maxRestarts))).map Sigma.fst

def autoRestart (now : Nat) (o : AgentOrchestrator) (agentId : String) : AgentOrchestrator :=
  publish { o with agents := modify o.agents agentId (fun entry => { entry with
    restartCount := entry.restartCount + 1
    status := .running
    lastHeartbeat := now }) } (.agentStarted agentId)

/-- One round of the auto-restart task. -/
def sweep (now : Nat) (o : AgentOrchestrator) : AgentOrchestrator :=
  if o.restartPolicy.enabled then (toRestart o).foldl (autoRestart now) o else o

inductive Step where
  | register (now : Nat) (config : AgentConfig)
  | unregister (agentId reason : String)
  | spawn (now : Nat) (config : AgentConfig) (spawned : Except String Nat)
  | terminate (agentId : String) (answer : Except String Unit)
  | kill (agentId : String) (answer : Except String Unit)
  | announceCapabilities (agentId : String) (capabilities : List String)
  | spawnAgent (now : Nat) (agentId name : String) (policy : AgentRestartPolicy)
  | setAgentRestartPolicy (agentId : String) (policy : AgentRestartPolicy)
  | enableAutoRestart (policy : RestartPolicy)
  | steer (now : Nat) (agentId : String) (command : SteerCommand)
  | loopExited (agentId reason : String)
  | handleAgentExit (agentId reason : String)
  | wake (now : Nat) (restart : Restarting)
  | healthCheck (now : Nat)
  | sweep (now : Nat)

def step (o : AgentOrchestrator) : Step → AgentOrchestrator
  | .register now config => (register now o config).1
  | .unregister agentId reason => (unregister o agentId reason).1
  | .spawn now config spawned => (spawn now o config spawned).1
  | .terminate agentId answer => (terminate o agentId answer).1
  | .kill agentId answer => (kill o agentId answer).1
  | .announceCapabilities agentId capabilities => announceCapabilities o agentId capabilities
  | .spawnAgent now agentId name policy => (spawnAgent now o agentId name policy).1
  | .setAgentRestartPolicy agentId policy => (setAgentRestartPolicy o agentId policy).1
  | .enableAutoRestart policy => { o with restartPolicy := policy }
  | .steer now agentId command => (steer now o agentId command).1
  | .loopExited agentId reason => loopExited o agentId reason
  | .handleAgentExit agentId reason => handleAgentExit o agentId reason
  | .wake now restart =>
    if restart ∈ o.sleeping then restartNow now { o with sleeping := o.sleeping.erase restart } restart else o
  | .healthCheck now => healthCheck now o
  | .sweep now => sweep now o

/-! Which ids the maps hold. Only registering, spawning and announcing put one in. -/

structure Within (agentId : String) (before after : AgentOrchestrator) : Prop where
  agents : agentId ∈ after.agents → agentId ∈ before.agents
  capabilities : agentId ∈ after.capabilities → agentId ∈ before.capabilities
  restartStates : agentId ∈ after.restartStates → agentId ∈ before.restartStates

theorem within_refl (agentId : String) (o : AgentOrchestrator) : Within agentId o o := ⟨id,id,id⟩

theorem within_trans (agentId : String) (first second third : AgentOrchestrator)
    (left : Within agentId first second) (right : Within agentId second third) : Within agentId first third :=
  ⟨left.agents ∘ right.agents,left.capabilities ∘ right.capabilities,left.restartStates ∘ right.restartStates⟩

theorem within_of_modify (agentId other : String) (change : AgentState → AgentState) (o after : AgentOrchestrator)
    (agents : after.agents = modify o.agents other change) (capabilities : after.capabilities = o.capabilities)
    (restartStates : after.restartStates = o.restartStates) : Within agentId o after := by
  refine ⟨?_,?_,?_⟩
  · rw [agents,mem_modify]
    exact id
  · rw [capabilities]
    exact id
  · rw [restartStates]
    exact id

theorem triggerRestart_within (agentId other reason : String) (o : AgentOrchestrator) :
    Within agentId o (triggerRestart o other reason) := by
  unfold triggerRestart
  cases found : o.restartStates.lookup other with
  | none => exact ⟨id,id,id⟩
  | some state =>
    have present : other ∈ o.restartStates := AList.lookup_isSome.mp (Option.isSome_of_eq_some found)
    simp only
    split
    · refine ⟨?_,id,?_⟩
      · rw [mem_modify]
        exact id
      · intro held
        rcases (AList.mem_insert o.restartStates).mp held with same | held
        · rw [same]
          exact present
        · exact held
    · exact ⟨id,id,fun held => (AList.mem_erase.mp held).2⟩

theorem markExited_within (agentId other : String) (o : AgentOrchestrator) :
    Within agentId o (markExited o other) :=
  within_of_modify agentId other _ o _ rfl rfl rfl

theorem loopExited_within (agentId other reason : String) (o : AgentOrchestrator) :
    Within agentId o (loopExited o other reason) := by
  unfold loopExited
  split
  · apply within_trans agentId o _ _ _ (triggerRestart_within agentId other reason _)
    exact within_of_modify agentId other _ o _ rfl rfl rfl
  · exact within_refl agentId o

theorem restartNow_within (agentId : String) (now : Nat) (o : AgentOrchestrator) (restart : Restarting) :
    Within agentId o (restartNow now o restart) := by
  unfold restartNow
  split
  · exact within_refl agentId o
  · exact within_of_modify agentId restart.agentId _ o _ rfl rfl rfl

theorem mem_foldl_modify (ids : List String) (change : AgentState → AgentState) (agents : Table String AgentState)
    (agentId : String) :
    agentId ∈ ids.foldl (fun agents id => modify agents id change) agents ↔ agentId ∈ agents := by
  induction ids generalizing agents with
  | nil => rfl
  | cons id rest ih => rw [List.foldl_cons,ih,mem_modify]

theorem sweep_within (agentId : String) (now : Nat) (o : AgentOrchestrator) : Within agentId o (sweep now o) := by
  have swept (ids : List String) (start : AgentOrchestrator) :
      Within agentId start (ids.foldl (autoRestart now) start) := by
    induction ids generalizing start with
    | nil => exact within_refl agentId start
    | cons id rest ih =>
      have once : Within agentId start (autoRestart now start id) :=
        within_of_modify agentId id _ start _ rfl rfl rfl
      exact within_trans agentId start (autoRestart now start id) _ once (ih (autoRestart now start id))
  unfold sweep
  split
  · exact swept _ o
  · exact within_refl agentId o

theorem steer_within (agentId other : String) (now : Nat) (o : AgentOrchestrator) (command : SteerCommand) :
    Within agentId o (steer now o other command).1 := by
  have changed (change : AgentState → AgentState) :
      Within agentId o { o with agents := modify o.agents other change } :=
    within_of_modify agentId other change o _ rfl rfl rfl
  unfold steer
  split
  · exact within_refl agentId o
  · cases command with
    | pause =>
      simp only
      split
      · exact changed _
      · exact within_refl agentId o
    | resume =>
      simp only
      split
      · exact changed _
      · exact within_refl agentId o
    | updateConfig config => exact changed _
    | setLogLevel level => exact changed _
    | triggerHeartbeat => exact changed _
    | custom command payload => exact ⟨id,id,id⟩
    | injectMessage message =>
      simp only
      split
      · exact within_refl agentId o
      · exact ⟨id,id,id⟩

/-- The id a step takes out of the agents. -/
def removedBy (o : AgentOrchestrator) : Step → Option String
  | .unregister agentId _ => if agentId ∈ o.agents then some agentId else none
  | .terminate agentId _ => if agentId ∈ o.agents then some agentId else none
  | .kill agentId _ => if agentId ∈ o.agents then some agentId else none
  | _ => none

/-- The id a step makes an entry for. -/
def addedBy (o : AgentOrchestrator) : Step → Option String
  | .register _ config => if config.agentId ∈ o.agents then none else some config.agentId
  | .spawn _ config (.ok _) => if config.agentId ∈ o.agents then none else some config.agentId
  | .spawnAgent _ agentId _ _ => if agentId ∈ o.agents then none else some agentId
  | .announceCapabilities agentId _ => some agentId
  | _ => none

theorem within_added {ν : Type} (agentId other : String) (t : Table String ν) (v : ν) (different : some other ≠ some agentId)
    (held : agentId ∈ t.insert other v) : agentId ∈ t := by
  rcases (AList.mem_insert t).mp held with same | held
  · exact absurd (congrArg some same.symm) different
  · exact held

theorem step_within (agentId : String) (o : AgentOrchestrator) (s : Step) (unnamed : addedBy o s ≠ some agentId) :
    Within agentId o (step o s) := by
  cases s with
  | register now config =>
    simp only [step,register,addedBy] at unnamed ⊢
    split
    · exact within_refl agentId o
    · rw [if_neg ‹_›] at unnamed
      exact ⟨within_added agentId config.agentId o.agents _ unnamed,id,id⟩
  | unregister other reason =>
    simp only [step,unregister]
    split
    · exact ⟨fun held => (AList.mem_erase.mp held).2,fun held => (AList.mem_erase.mp held).2,id⟩
    · exact within_refl agentId o
  | spawn now config spawned =>
    cases spawned with
    | error message =>
      simp only [step,spawn]
      split <;> exact within_refl agentId o
    | ok pid =>
      simp only [step,spawn,addedBy] at unnamed ⊢
      split
      · exact within_refl agentId o
      · rw [if_neg ‹_›] at unnamed
        exact ⟨within_added agentId config.agentId o.agents _ unnamed,id,id⟩
  | terminate other answer =>
    simp only [step,terminate]
    split
    · exact within_refl agentId o
    · exact ⟨fun held => (AList.mem_erase.mp held).2,id,id⟩
  | kill other answer =>
    simp only [step,kill]
    split
    · exact within_refl agentId o
    · exact ⟨fun held => (AList.mem_erase.mp held).2,fun held => (AList.mem_erase.mp held).2,id⟩
  | announceCapabilities other capabilities =>
    exact ⟨id,within_added agentId other o.capabilities capabilities unnamed,id⟩
  | spawnAgent now other name policy =>
    simp only [step,spawnAgent,addedBy] at unnamed ⊢
    split
    · exact within_refl agentId o
    · rw [if_neg ‹_›] at unnamed
      exact ⟨within_added agentId other o.agents _ unnamed,id,within_added agentId other o.restartStates _ unnamed⟩
  | setAgentRestartPolicy other policy =>
    simp only [step,setAgentRestartPolicy]
    split
    · refine ⟨id,id,fun held => ?_⟩
      exact (mem_modify o.restartStates other agentId _).mp held
    · exact within_refl agentId o
  | enableAutoRestart policy => exact ⟨id,id,id⟩
  | steer now other command => exact steer_within agentId other now o command
  | loopExited other reason => exact loopExited_within agentId other reason o
  | handleAgentExit other reason =>
    exact within_trans agentId o _ _ (markExited_within agentId other o)
      (triggerRestart_within agentId other reason (markExited o other))
  | wake now restart =>
    simp only [step]
    split
    · exact within_trans agentId o { o with sleeping := o.sleeping.erase restart } _ ⟨id,id,id⟩
        (restartNow_within agentId now _ restart)
    · exact within_refl agentId o
  | healthCheck now =>
    refine ⟨fun held => ?_,id,id⟩
    exact (mem_foldl_modify _ _ o.agents agentId).mp held
  | sweep now => exact sweep_within agentId now o

/-! Removal: what the three ways out leave in the maps. -/

def Clear (o : AgentOrchestrator) (agentId : String) : Prop :=
  agentId ∉ o.agents ∧ agentId ∉ o.capabilities ∧ agentId ∉ o.restartStates

instance (o : AgentOrchestrator) (agentId : String) : Decidable (Clear o agentId) :=
  inferInstanceAs (Decidable (agentId ∉ o.agents ∧ agentId ∉ o.capabilities ∧ agentId ∉ o.restartStates))

/-- An agent that is removed has no restart state, and none that is terminated has announced capabilities. -/
def RemovesAll (o : AgentOrchestrator) : Step → Prop
  | .unregister agentId _ => agentId ∈ o.agents → agentId ∉ o.restartStates
  | .kill agentId _ => agentId ∈ o.agents → agentId ∉ o.restartStates
  | .terminate agentId _ => agentId ∈ o.agents → agentId ∉ o.restartStates ∧ agentId ∉ o.capabilities
  | _ => True

theorem step_clear (agentId : String) (o : AgentOrchestrator) (s : Step) (unnamed : addedBy o s ≠ some agentId)
    (clear : Clear o agentId) : Clear (step o s) agentId := by
  have within := step_within agentId o s unnamed
  obtain ⟨agents,capabilities,restartStates⟩ := clear
  exact ⟨agents ∘ within.agents,capabilities ∘ within.capabilities,restartStates ∘ within.restartStates⟩

theorem removed_not_added (o : AgentOrchestrator) (s : Step) (agentId : String) (removed : removedBy o s = some agentId) :
    addedBy o s = none := by
  cases s with
  | unregister => rfl
  | terminate => rfl
  | kill => rfl
  | _ => cases removed

theorem removed_clear_iff (o : AgentOrchestrator) (s : Step) (agentId : String)
    (removed : removedBy o s = some agentId) : Clear (step o s) agentId ↔ RemovesAll o s := by
  have named (other : String) (taken : (if other ∈ o.agents then some other else none) = some agentId) :
      other = agentId ∧ other ∈ o.agents := by
    split at taken
    · exact ⟨Option.some_inj.mp taken,‹_›⟩
    · cases taken
  cases s with
  | unregister other reason =>
    obtain ⟨same,present⟩ := named other removed
    subst same
    simp [step,unregister,present,Clear,RemovesAll,publish,AList.mem_erase]
  | kill other answer =>
    obtain ⟨same,present⟩ := named other removed
    subst same
    obtain ⟨state,found⟩ := Option.isSome_iff_exists.mp (AList.lookup_isSome.mpr present)
    simp [step,kill,found,present,Clear,RemovesAll,publish,AList.mem_erase]
  | terminate other answer =>
    obtain ⟨same,present⟩ := named other removed
    subst same
    obtain ⟨state,found⟩ := Option.isSome_iff_exists.mp (AList.lookup_isSome.mpr present)
    simp [step,terminate,found,present,Clear,RemovesAll,publish,AList.mem_erase,and_comm]
  | _ => cases removed

theorem removesAll_of_none (o : AgentOrchestrator) (s : Step) (kept : removedBy o s = none) : RemovesAll o s := by
  have absent (other : String) (none' : (if other ∈ o.agents then some other else none) = none) : other ∉ o.agents := by
    split at none'
    · cases none'
    · assumption
  cases s with
  | unregister other reason => exact fun present => absurd present (absent other kept)
  | kill other answer => exact fun present => absurd present (absent other kept)
  | terminate other answer => exact fun present => absurd present (absent other kept)
  | _ => trivial

theorem step_accounts (o : AgentOrchestrator) (s : Step) : Accounts step removedBy addedBy Clear RemovesAll o s where
  kept agentId unnamed clear := step_clear agentId o s unnamed clear
  apart agentId removed := removed_not_added o s agentId removed
  exact agentId removed := removed_clear_iff o s agentId removed
  idle kept := removesAll_of_none o s kept

def entriesOf (o : AgentOrchestrator) (agentId : String) :
    Option AgentState × Option (List String) × Option RestartState :=
  (o.agents.lookup agentId,o.capabilities.lookup agentId,o.restartStates.lookup agentId)

theorem register_clear (now timeout : Nat) (o : AgentOrchestrator) (config : AgentConfig)
    (clear : Clear o config.agentId) :
    entriesOf (register now o config).1 config.agentId =
      entriesOf (register now (new timeout) config).1 config.agentId := by
  obtain ⟨agents,capabilities,restartStates⟩ := clear
  simp [-AList.insert_empty,entriesOf,register,publish,new,agents,AList.lookup_eq_none.mpr capabilities,
    AList.lookup_eq_none.mpr restartStates]

theorem spawn_clear (now timeout : Nat) (o : AgentOrchestrator) (config : AgentConfig) (spawned : Except String Nat)
    (clear : Clear o config.agentId) :
    entriesOf (spawn now o config spawned).1 config.agentId =
      entriesOf (spawn now (new timeout) config spawned).1 config.agentId := by
  obtain ⟨agents,capabilities,restartStates⟩ := clear
  cases spawned <;>
    simp [-AList.insert_empty,entriesOf,spawn,publish,new,agents,AList.lookup_eq_none.mpr agents,
      AList.lookup_eq_none.mpr capabilities,AList.lookup_eq_none.mpr restartStates]

/-- In every state of a run, no map holds an entry of an id removed and not added again since,
exactly when every removal finds the id without a restart state and, where it is `terminate`,
without announced capabilities. Such an id is registered or spawned as one never seen. -/
theorem removal_leaves_nothing_iff (timeout : Nat) (steps : List Step) :
    (Always (watch step removedBy addedBy) (Gone Clear) ⟨new timeout,[]⟩ steps ↔ Along step RemovesAll (new timeout) steps) ∧
    ∀ o config, Clear o config.agentId → ∀ now spawned,
      entriesOf (register now o config).1 config.agentId =
        entriesOf (register now (new timeout) config).1 config.agentId ∧
      entriesOf (spawn now o config spawned).1 config.agentId =
        entriesOf (spawn now (new timeout) config spawned).1 config.agentId := by
  refine ⟨?_,fun o config clear now spawned =>
    ⟨register_clear now timeout o config clear,spawn_clear now timeout o config spawned clear⟩⟩
  exact always_gone_iff step removedBy addedBy Clear RemovesAll (fun _ => True) (fun _ _ _ => trivial)
    (fun o s _ => step_accounts o s) (new timeout) trivial steps

/-- A terminated agent keeps its capabilities for whoever registers under its id, and a killed
IPC agent keeps its restart state. -/
theorem removal_leaves_entries :
    ¬Gone Clear (run (watch step removedBy addedBy) ⟨new 30000,[]⟩ [.register 0 ⟨"a","first",∅⟩,.announceCapabilities "a" ["shell"],
      .terminate "a" (.ok ())]) ∧
    ((run step (new 30000) [.register 0 ⟨"a","first",∅⟩,.announceCapabilities "a" ["shell"],.terminate "a" (.ok ()),
      .register 1 ⟨"a","second",∅⟩]).capabilities.lookup "a" = some ["shell"]) ∧
    ¬Gone Clear (run (watch step removedBy addedBy) ⟨new 30000,[]⟩
      [.spawnAgent 0 "a" "worker" ⟨3,fun _ => 1000⟩,.kill "a" (.ok ())]) := by
  decide

end ClawKernel.Runtime.Orchestrator
