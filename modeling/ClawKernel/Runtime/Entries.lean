import ClawKernel.Runtime.Orchestrator

/-! What the orchestrator's calls and tasks write into an entry: its config and its status. -/
namespace ClawKernel.Runtime.Entries
open Lib.Runs Lib.Tables Orchestrator

def Identity (o : AgentOrchestrator) : Prop :=
  ∀ agentId entry, o.agents.lookup agentId = some entry → entry.config.agentId = agentId

/-- Where the step runs a paused agent it is a `Resume`. -/
def UnpausedByResume (o : AgentOrchestrator) (s : Step) : Prop :=
  ∀ agentId entry later, o.agents.lookup agentId = some entry → entry.status = .paused →
    (step o s).agents.lookup agentId = some later → later.status = .running → ∃ now, s = .steer now agentId .resume

def ErrorsChangeNothing : Prop :=
  ∀ now o agentId command error, (steer now o agentId command).2 = .error error → (steer now o agentId command).1 = o

/-- An update keeps the agent's id, and no backoff of a paused agent comes to its end. -/
def Keeps (o : AgentOrchestrator) : Step → Prop
  | .steer _ agentId (.updateConfig config) => agentId ∈ o.agents → config.agentId = agentId
  | .wake _ restart => restart ∈ o.sleeping → ∀ entry, o.agents.lookup restart.agentId = some entry → entry.status ≠ .paused
  | _ => True

/-- Every entry of an id comes from one it had, under the same id in its config; it runs if
that one ran, or for this cause. -/
def Carried (agentId : String) (cause : Prop) (before after : Table String AgentState) : Prop :=
  ∀ later, after.lookup agentId = some later → ∃ entry, before.lookup agentId = some entry ∧
    later.config.agentId = entry.config.agentId ∧ (later.status = .running → entry.status = .running ∨ cause)

theorem carried_refl (agentId : String) (cause : Prop) (agents : Table String AgentState) :
    Carried agentId cause agents agents :=
  fun later found => ⟨later,found,rfl,Or.inl⟩

theorem carried_trans (agentId : String) (cause : Prop) (first second third : Table String AgentState)
    (left : Carried agentId cause first second) (right : Carried agentId cause second third) :
    Carried agentId cause first third := by
  intro later found
  obtain ⟨middle,there,named,running⟩ := right later found
  obtain ⟨entry,before,same,was⟩ := left middle there
  refine ⟨entry,before,named.trans same,fun runs => ?_⟩
  rcases running runs with ran | caused
  · exact was ran
  · exact Or.inr caused

theorem carried_weaken (agentId : String) (cause weaker : Prop) (implied : cause → weaker)
    (before after : Table String AgentState) (carried : Carried agentId cause before after) :
    Carried agentId weaker before after := by
  intro later found
  obtain ⟨entry,there,named,running⟩ := carried later found
  exact ⟨entry,there,named,fun runs => (running runs).imp id implied⟩

theorem carried_modify (agentId other : String) (cause : Prop) (agents : Table String AgentState)
    (change : AgentState → AgentState) (named : ∀ entry, (change entry).config.agentId = entry.config.agentId)
    (running : agentId = other → ∀ entry, (change entry).status = .running → entry.status = .running ∨ cause) :
    Carried agentId cause agents (modify agents other change) := by
  intro later found
  rw [lookup_modify] at found
  split at found
  · rename_i same
    subst same
    obtain ⟨entry,there,rfl⟩ := Option.map_eq_some_iff.mp found
    exact ⟨entry,there,named entry,running rfl entry⟩
  · exact ⟨later,found,rfl,Or.inl⟩

theorem carried_erase (agentId other : String) (cause : Prop) (agents : Table String AgentState) :
    Carried agentId cause agents (agents.erase other) :=
  fun later found => ⟨later,(lookup_of_erase agents other agentId later found).2,rfl,Or.inl⟩

theorem triggerRestart_carried (agentId other reason : String) (o : AgentOrchestrator) :
    Carried agentId False o.agents (triggerRestart o other reason).agents := by
  unfold triggerRestart
  split
  · exact carried_refl agentId False o.agents
  · split
    · exact carried_modify agentId other False o.agents _ (fun _ => rfl) (fun _ _ clash => AgentStatus.noConfusion clash)
    · exact carried_refl agentId False o.agents

theorem markExited_carried (agentId other : String) (o : AgentOrchestrator) :
    Carried agentId False o.agents (markExited o other).agents := by
  apply carried_modify agentId other False o.agents
  · intro entry
    split <;> rfl
  · intro _ entry runs
    split at runs
    · cases runs
    · exact Or.inl runs

theorem loopExited_carried (agentId other reason : String) (o : AgentOrchestrator) :
    Carried agentId False o.agents (loopExited o other reason).agents := by
  unfold loopExited
  split
  · exact carried_trans agentId False _ _ _ (markExited_carried agentId other { o with loops := o.loops.erase other })
      (triggerRestart_carried agentId other reason _)
  · exact carried_refl agentId False o.agents

theorem healthCheck_carried (agentId : String) (now : Nat) (o : AgentOrchestrator) :
    Carried agentId False o.agents (healthCheck now o).agents := by
  unfold healthCheck
  generalize (o.agents.entries.filter _).map Sigma.fst = ids
  dsimp only
  generalize o.agents = agents
  induction ids generalizing agents with
  | nil => exact carried_refl agentId False agents
  | cons id rest ih =>
    apply carried_trans agentId False _ _ _ _ (ih _)
    apply carried_modify agentId id False agents
    · intro entry
      split <;> rfl
    · intro _ entry runs
      split at runs
      · cases runs
      · exact Or.inl runs

theorem sweep_carried (agentId : String) (now : Nat) (ids : List String) (o : AgentOrchestrator) :
    Carried agentId (agentId ∈ ids) o.agents (ids.foldl (autoRestart now) o).agents := by
  induction ids generalizing o with
  | nil => exact carried_refl agentId _ o.agents
  | cons id rest ih =>
    refine carried_trans agentId _ _ (autoRestart now o id).agents _ ?_ ?_
    · exact carried_modify agentId id _ o.agents _ (fun _ => rfl) (fun same _ _ => Or.inr (same ▸ List.mem_cons_self))
    · exact carried_weaken agentId _ _ (List.mem_cons_of_mem id) _ _ (ih (autoRestart now o id))

theorem restartNow_carried (agentId : String) (now : Nat) (o : AgentOrchestrator) (restart : Restarting) :
    Carried agentId (agentId = restart.agentId) o.agents (restartNow now o restart).agents := by
  unfold restartNow
  split
  · exact carried_refl agentId _ o.agents
  · exact carried_modify agentId restart.agentId _ o.agents _ (fun _ => rfl) (fun same _ _ => Or.inr same)

/-- Each entry is carried over, or is new under the id of its config. -/
def Entered (cause : String → Prop) (before after : Table String AgentState) : Prop :=
  ∀ agentId later, after.lookup agentId = some later →
    (before.lookup agentId = none ∧ later.config.agentId = agentId) ∨
      ∃ entry, before.lookup agentId = some entry ∧ later.config.agentId = entry.config.agentId ∧
        (later.status = .running → entry.status = .running ∨ cause agentId)

theorem entered_of_carried (cause : String → Prop) (before after : Table String AgentState)
    (carried : ∀ agentId, Carried agentId (cause agentId) before after) : Entered cause before after :=
  fun agentId later found => Or.inr (carried agentId later found)

theorem entered_insert (cause : String → Prop) (agents : Table String AgentState) (agentId : String) (entry : AgentState)
    (fresh : agentId ∉ agents) (named : entry.config.agentId = agentId) :
    Entered cause agents (agents.insert agentId entry) := by
  intro other later found
  rcases lookup_of_insert agents agentId other entry later found with ⟨rfl,rfl⟩ | ⟨_,before⟩
  · exact Or.inl ⟨AList.lookup_eq_none.mpr fresh,named⟩
  · exact Or.inr ⟨later,before,rfl,Or.inl⟩

theorem entered_identity (o : AgentOrchestrator) (cause : String → Prop) (after : Table String AgentState)
    (entered : Entered cause o.agents after) (identity : Identity o) (agentId : String) (later : AgentState)
    (found : after.lookup agentId = some later) : later.config.agentId = agentId := by
  rcases entered agentId later found with ⟨_,named⟩ | ⟨entry,before,named,_⟩
  · exact named
  · rw [named]
    exact identity agentId entry before

theorem entered_running (cause : String → Prop) (before after : Table String AgentState)
    (entered : Entered cause before after) (agentId : String) (entry later : AgentState)
    (known : before.lookup agentId = some entry) (paused : entry.status = .paused)
    (found : after.lookup agentId = some later) (runs : later.status = .running) : cause agentId := by
  rcases entered agentId later found with ⟨fresh,_⟩ | ⟨other,there,_,running⟩
  · rw [known] at fresh
    cases fresh
  · rw [known] at there
    cases there
    rcases running runs with ran | caused
    · rw [paused] at ran
      cases ran
    · exact caused

theorem register_entered (now : Nat) (o : AgentOrchestrator) (config : AgentConfig) :
    Entered (fun _ => False) o.agents (register now o config).1.agents := by
  unfold register
  split
  · exact entered_of_carried _ _ _ (fun agentId => carried_refl agentId False o.agents)
  · exact entered_insert _ o.agents config.agentId _ ‹_› rfl

theorem spawn_entered (now : Nat) (o : AgentOrchestrator) (config : AgentConfig) (spawned : Except String Nat) :
    Entered (fun _ => False) o.agents (spawn now o config spawned).1.agents := by
  unfold spawn
  split
  · exact entered_of_carried _ _ _ (fun agentId => carried_refl agentId False o.agents)
  · cases spawned with
    | error message => exact entered_of_carried _ _ _ (fun agentId => carried_refl agentId False o.agents)
    | ok pid => exact entered_insert _ o.agents config.agentId _ ‹_› rfl

theorem spawnAgent_entered (now : Nat) (o : AgentOrchestrator) (agentId name : String) (policy : AgentRestartPolicy) :
    Entered (fun _ => False) o.agents (spawnAgent now o agentId name policy).1.agents := by
  unfold spawnAgent
  split
  · exact entered_of_carried _ _ _ (fun other => carried_refl other False o.agents)
  · exact entered_insert _ o.agents agentId _ ‹_› rfl

/-- A command other than `Resume` and `UpdateConfig`. -/
theorem steer_entered (now : Nat) (o : AgentOrchestrator) (agentId : String) (command : SteerCommand)
    (resumes : command ≠ .resume) (updates : ∀ config, command ≠ .updateConfig config) :
    Entered (fun _ => False) o.agents (steer now o agentId command).1.agents := by
  apply entered_of_carried
  intro other
  have kept := carried_refl other False o.agents
  unfold steer
  split
  · exact kept
  · cases command with
    | pause =>
      dsimp only
      split
      · exact carried_modify other agentId False o.agents _ (fun _ => rfl) (fun _ _ clash => AgentStatus.noConfusion clash)
      · exact kept
    | resume => exact absurd rfl resumes
    | updateConfig config => exact absurd rfl (updates config)
    | setLogLevel level => exact carried_modify other agentId False o.agents _ (fun _ => rfl) (fun _ _ runs => Or.inl runs)
    | triggerHeartbeat => exact carried_modify other agentId False o.agents _ (fun _ => rfl) (fun _ _ runs => Or.inl runs)
    | custom command payload => exact kept
    | injectMessage message =>
      dsimp only
      split
      · exact kept
      · exact kept

theorem resume_entered (now : Nat) (o : AgentOrchestrator) (agentId : String) :
    Entered (· = agentId) o.agents (steer now o agentId .resume).1.agents := by
  apply entered_of_carried
  intro other
  unfold steer
  split
  · exact carried_refl other _ o.agents
  · dsimp only
    split
    · exact carried_modify other agentId _ o.agents _ (fun _ => rfl) (fun same _ _ => Or.inr same)
    · exact carried_refl other _ o.agents

theorem unregister_agents (o : AgentOrchestrator) (agentId reason : String) :
    (unregister o agentId reason).1.agents = o.agents.erase agentId := by
  unfold unregister
  split
  · rfl
  · exact (erase_absent o.agents agentId ‹_›).symm

theorem terminate_agents (o : AgentOrchestrator) (agentId : String) (answer : Except String Unit) :
    (terminate o agentId answer).1.agents = o.agents.erase agentId := by
  unfold terminate
  split
  · exact (erase_absent o.agents agentId (AList.lookup_eq_none.mp ‹_›)).symm
  · rfl

theorem kill_agents (o : AgentOrchestrator) (agentId : String) (answer : Except String Unit) :
    (kill o agentId answer).1.agents = o.agents.erase agentId := by
  unfold kill
  split
  · exact (erase_absent o.agents agentId (AList.lookup_eq_none.mp ‹_›)).symm
  · rfl

/-- Every step but `Resume`, `UpdateConfig`, the end of a backoff and the sweep. -/
def Quiet : Step → Prop
  | .steer _ _ .resume => False
  | .steer _ _ (.updateConfig _) => False
  | .wake _ _ => False
  | .sweep _ => False
  | _ => True

theorem quiet_entered (o : AgentOrchestrator) (s : Step) (quiet : Quiet s) :
    Entered (fun _ => False) o.agents (step o s).agents := by
  have kept : Entered (fun _ => False) o.agents o.agents :=
    entered_of_carried _ _ _ (fun agentId => carried_refl agentId False o.agents)
  have erased : ∀ other, Entered (fun _ => False) o.agents (o.agents.erase other) :=
    fun other => entered_of_carried _ _ _ (fun agentId => carried_erase agentId other False o.agents)
  cases s with
  | register now config => exact register_entered now o config
  | unregister agentId reason =>
    rw [step,unregister_agents]
    exact erased agentId
  | spawn now config spawned => exact spawn_entered now o config spawned
  | terminate agentId answer =>
    rw [step,terminate_agents]
    exact erased agentId
  | kill agentId answer =>
    rw [step,kill_agents]
    exact erased agentId
  | announceCapabilities agentId capabilities => exact kept
  | spawnAgent now agentId name policy => exact spawnAgent_entered now o agentId name policy
  | setAgentRestartPolicy agentId policy =>
    simp only [step,setAgentRestartPolicy]
    split <;> exact kept
  | enableAutoRestart policy => exact kept
  | steer now agentId command =>
    apply steer_entered now o agentId command
    · rintro rfl
      exact quiet
    · rintro config rfl
      exact quiet
  | loopExited agentId reason =>
    exact entered_of_carried _ _ _ (fun other => loopExited_carried other agentId reason o)
  | handleAgentExit agentId reason =>
    exact entered_of_carried _ _ _ (fun other => carried_trans other False _ _ _ (markExited_carried other agentId o)
      (triggerRestart_carried other agentId reason (markExited o agentId)))
  | wake now restart => exact absurd quiet id
  | healthCheck now => exact entered_of_carried _ _ _ (fun agentId => healthCheck_carried agentId now o)
  | sweep now => exact absurd quiet id

theorem steer_error (now : Nat) (o : AgentOrchestrator) (agentId : String) (command : SteerCommand) (error : RuntimeError)
    (failed : (steer now o agentId command).2 = .error error) : (steer now o agentId command).1 = o := by
  cases known : o.agents.lookup agentId with
  | none => simp only [steer,known]
  | some entry =>
    cases command with
    | pause =>
      simp only [steer,known] at failed ⊢
      split at failed
      · cases failed
      · exact congrArg Prod.fst (if_neg ‹_›)
    | resume =>
      simp only [steer,known] at failed ⊢
      split at failed
      · cases failed
      · exact congrArg Prod.fst (if_neg ‹_›)
    | injectMessage message =>
      simp only [steer,known] at failed ⊢
      split at failed
      · exact congrArg Prod.fst (if_pos ‹_›)
      · cases failed
    | _ =>
      simp only [steer,known] at failed
      cases failed

theorem update_iff (o : AgentOrchestrator) (now : Nat) (agentId : String) (config : AgentConfig) (identity : Identity o) :
    Identity (step o (.steer now agentId (.updateConfig config))) ∧
        UnpausedByResume o (.steer now agentId (.updateConfig config)) ↔
      (agentId ∈ o.agents → config.agentId = agentId) := by
  cases known : o.agents.lookup agentId with
  | none =>
    have same : step o (.steer now agentId (.updateConfig config)) = o := by
      simp only [step,steer,known]
    constructor
    · exact fun _ present => absurd present (AList.lookup_eq_none.mp known)
    · intro _
      refine ⟨same.symm ▸ identity,fun other entry later there paused found runs => ?_⟩
      rw [same,there] at found
      cases found
      rw [paused] at runs
      cases runs
  | some entry =>
    have agents : (step o (.steer now agentId (.updateConfig config))).agents =
        modify o.agents agentId (fun entry => { entry with config := config }) := by
      simp only [step,steer,known]
    constructor
    · intro after _
      apply after.1 agentId { entry with config := config }
      rw [agents,lookup_modify,if_pos rfl,known]
      rfl
    · intro same
      have named := same (AList.lookup_isSome.mp (Option.isSome_of_eq_some known))
      constructor
      · intro other later found
        rw [agents,lookup_modify,known] at found
        split at found
        · rename_i equal
          cases found
          exact named.trans equal.symm
        · exact identity other later found
      · intro other before later there paused found runs
        rw [agents,lookup_modify,known] at found
        split at found
        · rename_i equal
          subst equal
          rw [known] at there
          cases there
          cases found
          rw [show entry.status = .running from runs] at paused
          cases paused
        · rw [there] at found
          cases found
          rw [runs] at paused
          cases paused

theorem wake_iff (o : AgentOrchestrator) (now : Nat) (restart : Restarting) (identity : Identity o) :
    Identity (step o (.wake now restart)) ∧ UnpausedByResume o (.wake now restart) ↔ Keeps o (.wake now restart) := by
  have entered : Entered (fun agentId => agentId = restart.agentId ∧ restart ∈ o.sleeping) o.agents
      (step o (.wake now restart)).agents := by
    apply entered_of_carried
    intro agentId
    rw [step]
    split
    · rename_i asleep
      exact carried_weaken agentId _ _ (fun same => ⟨same,asleep⟩) _ _
        (restartNow_carried agentId now { o with sleeping := o.sleeping.erase restart } restart)
    · exact carried_refl agentId _ o.agents
  constructor
  · rintro ⟨_,unpaused⟩ asleep entry known paused
    have runs : (step o (.wake now restart)).agents.lookup restart.agentId =
        some { entry with status := .running, restartCount := restart.attempt, lastHeartbeat := now } := by
      rw [step,if_pos asleep]
      simp only [restartNow,known,publish,lookup_modify,if_true,Option.map_some]
    obtain ⟨later,clash⟩ := unpaused restart.agentId entry _ known paused runs rfl
    cases clash
  · intro keeps
    refine ⟨entered_identity o _ _ entered identity,fun agentId entry later known paused found runs => ?_⟩
    obtain ⟨rfl,asleep⟩ := entered_running _ _ _ entered agentId entry later known paused found runs
    exact absurd paused (keeps asleep entry known)

/-- The sweep picks the agents that are stopped or failed. -/
theorem toRestart_status (o : AgentOrchestrator) (agentId : String) (entry : AgentState) (listed : agentId ∈ toRestart o)
    (known : o.agents.lookup agentId = some entry) : entry.status ≠ .paused := by
  obtain ⟨found,member,rfl⟩ := List.mem_map.mp listed
  obtain ⟨there,picked⟩ := List.mem_filter.mp member
  have same := (entry_iff o.agents found.1 found.2).mp there
  rw [known] at same
  cases same
  intro paused
  rw [paused] at picked
  cases picked

/-- A step that runs an agent for a cause that spares the paused ones. -/
theorem entered_keeps (o : AgentOrchestrator) (s : Step) (cause : String → Prop) (identity : Identity o)
    (entered : Entered cause o.agents (step o s).agents)
    (spares : ∀ agentId entry, o.agents.lookup agentId = some entry → entry.status = .paused → cause agentId →
      ∃ now, s = .steer now agentId .resume) : Identity (step o s) ∧ UnpausedByResume o s :=
  ⟨entered_identity o cause _ entered identity,fun agentId entry later known paused found runs =>
    spares agentId entry known paused (entered_running cause _ _ entered agentId entry later known paused found runs)⟩

theorem step_keeps_iff (o : AgentOrchestrator) (s : Step) (identity : Identity o) :
    Identity (step o s) ∧ UnpausedByResume o s ↔ Keeps o s := by
  have quiet : Quiet s → Identity (step o s) ∧ UnpausedByResume o s := fun quiet =>
    entered_keeps o s _ identity (quiet_entered o s quiet) (fun _ _ _ _ never => never.elim)
  cases s with
  | steer now agentId command =>
    cases command with
    | resume =>
      refine ⟨fun _ => trivial,fun _ => entered_keeps o _ _ identity (resume_entered now o agentId) ?_⟩
      rintro other entry _ _ rfl
      exact ⟨now,rfl⟩
    | updateConfig config => exact update_iff o now agentId config identity
    | _ => exact ⟨fun _ => trivial,fun _ => quiet trivial⟩
  | wake now restart => exact wake_iff o now restart identity
  | sweep now =>
    refine ⟨fun _ => trivial,fun _ => entered_keeps o _ (· ∈ toRestart o) identity ?_ ?_⟩
    · apply entered_of_carried
      intro agentId
      simp only [step,sweep]
      split
      · exact sweep_carried agentId now (toRestart o) o
      · exact carried_refl agentId _ o.agents
    · exact fun agentId entry known paused listed => absurd paused (toRestart_status o agentId entry listed known)
  | _ => exact ⟨fun _ => trivial,fun _ => quiet trivial⟩

/-- The config of another agent is given to one that is registered. -/
def renamed : List Step :=
  [.register 0 ⟨"a","first",∅⟩,.steer 1 "a" (.updateConfig ⟨"b","second",∅⟩)]

/-- An agent is terminated while its restart sleeps and registered again: the new one is paused,
and the restart runs it. -/
def pausedBetween : List Step :=
  [.spawnAgent 0 "a" "worker" ⟨3,fun _ => 1000⟩,.loopExited "a" "ipc_loop_exit",.terminate "a" (.ok ()),
    .register 1 ⟨"a","second",∅⟩,.steer 2 "a" .pause,.wake 3 ⟨"a",1,1000⟩]

end ClawKernel.Runtime.Entries
