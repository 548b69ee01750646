import ClawKernel.Runtime.Orchestrator

/-! The restart budget of an IPC agent: what is published about it over a run of exits, backoffs,
health checks and sweeps, from `spawn_agent` on.
-/
namespace ClawKernel.Runtime.Restart
open Lib.Runs Lib.Tables Orchestrator

inductive Notice where
  | started
  | restarted (attempt : Nat)
  | failed (attempts : Nat)
  deriving DecidableEq, Repr

section Agent
variable (agentId : String)

def notice : Event → Option Notice
  | .agentStarted id => if id = agentId then some .started else none
  | .agentRestarted id attempt _ => if id = agentId then some (.restarted attempt) else none
  | .agentFailed id attempts _ => if id = agentId then some (.failed attempts) else none
  | _ => none

/-- What is published about the agent's starts, restarts and failure, oldest first. -/
def notices (o : AgentOrchestrator) : List Notice := o.events.filterMap (notice agentId)

def underway (o : AgentOrchestrator) : List Restarting := o.sleeping.filter (fun restart => restart.agentId = agentId)

def exits (o : AgentOrchestrator) : Nat := o.exits.count agentId

def restarts (k : Nat) : List Notice := (List.range k).map (fun i => .restarted (i + 1))

/-- After at most `maxRetries` exits every exit is answered by the next restart, or will be after
its backoff; the exit after that is answered by one failure, and nothing follows it. -/
def Budgeted (maxRetries : Nat) (o : AgentOrchestrator) : Prop :=
  (∃ k ≤ maxRetries, notices agentId o = .started :: restarts k ∧
    (exits agentId o = k ∨ exits agentId o = k + 1 ∧ k + 1 ≤ maxRetries ∧
      (underway agentId o).map Restarting.attempt = [k + 1])) ∨
  exits agentId o = maxRetries + 1 ∧ notices agentId o = .started :: restarts maxRetries ++ [.failed maxRetries]

/-- The agent's exit is reported while no restart of it is under way and its budget is not yet
spent, and no sweep of the global policy picks it. -/
def Orderly (o : AgentOrchestrator) : Step → Prop
  | .loopExited id _ => id = agentId → agentId ∈ o.loops → agentId ∈ o.restartStates ∧ underway agentId o = []
  | .handleAgentExit id _ => id = agentId → agentId ∈ o.restartStates ∧ underway agentId o = []
  | .sweep _ => o.restartPolicy.enabled = true → agentId ∉ toRestart o
  | _ => True

/-- The agent stays registered and its policy stays as it is. -/
def Fixed : Step → Prop
  | .unregister id _ => id ≠ agentId
  | .terminate id _ => id ≠ agentId
  | .kill id _ => id ≠ agentId
  | .setAgentRestartPolicy id _ => id ≠ agentId
  | _ => True

/-! What a step that is not about the agent leaves as it is. -/

structure Untouched (o after : AgentOrchestrator) : Prop where
  agents : agentId ∈ o.agents → agentId ∈ after.agents
  restartStates : after.restartStates.lookup agentId = o.restartStates.lookup agentId
  underway : underway agentId after = underway agentId o
  exits : exits agentId after = exits agentId o
  notices : notices agentId after = notices agentId o

theorem untouched_refl (o : AgentOrchestrator) : Untouched agentId o o := ⟨id,rfl,rfl,rfl,rfl⟩

theorem untouched_trans (first second third : AgentOrchestrator) (left : Untouched agentId first second)
    (right : Untouched agentId second third) : Untouched agentId first third :=
  ⟨right.agents ∘ left.agents,right.restartStates.trans left.restartStates,right.underway.trans left.underway,
    right.exits.trans left.exits,right.notices.trans left.notices⟩

theorem notices_publish (o : AgentOrchestrator) (event : Event) :
    notices agentId (publish o event) = notices agentId o ++ (notice agentId event).toList := by
  rw [notices,publish,List.filterMap_append,notices]
  cases heard : notice agentId event <;> simp [heard]

theorem untouched_publish (o : AgentOrchestrator) (event : Event) (silent : notice agentId event = none) :
    Untouched agentId o (publish o event) := by
  refine ⟨id,rfl,rfl,rfl,?_⟩
  rw [notices_publish,silent,Option.toList_none,List.append_nil]

theorem untouched_modify (o : AgentOrchestrator) (id : String) (change : AgentState → AgentState) :
    Untouched agentId o { o with agents := modify o.agents id change } := by
  refine ⟨fun present => ?_,rfl,rfl,rfl,rfl⟩
  exact (mem_modify o.agents id agentId change).mpr present

theorem untouched_insert (o : AgentOrchestrator) (id : String) (entry : AgentState) (other : id ≠ agentId) :
    Untouched agentId o (publish { o with agents := o.agents.insert id entry } (.agentStarted id)) := by
  refine untouched_trans agentId o { o with agents := o.agents.insert id entry } _ ?_
    (untouched_publish agentId _ _ (by rw [notice,if_neg other]))
  exact ⟨fun present => (AList.mem_insert o.agents).mpr (.inr present),rfl,rfl,rfl,rfl⟩

theorem untouched_erase (o : AgentOrchestrator) (id : String) (capabilities : Table String (List String))
    (reason : String) (other : id ≠ agentId) :
    Untouched agentId o (publish { o with agents := o.agents.erase id, capabilities := capabilities }
      (.agentStopped id reason)) := by
  refine untouched_trans agentId o { o with agents := o.agents.erase id, capabilities := capabilities } _ ?_
    (untouched_publish agentId _ _ rfl)
  exact ⟨fun present => AList.mem_erase.mpr ⟨fun equal => other equal.symm,present⟩,rfl,rfl,rfl,rfl⟩

theorem untouched_triggerRestart (o : AgentOrchestrator) (id reason : String) (other : id ≠ agentId) :
    Untouched agentId o (triggerRestart o id reason) := by
  have apart : agentId ≠ id := fun same => other same.symm
  have silent (attempts : Nat) : notice agentId (.agentFailed id attempts reason) = none := by
    rw [notice,if_neg other]
  unfold triggerRestart
  cases found : o.restartStates.lookup id with
  | none => exact untouched_publish agentId o _ (silent 0)
  | some state =>
    simp only
    split
    · refine ⟨fun present => (mem_modify o.agents id agentId _).mpr present,?_,?_,rfl,rfl⟩
      · exact AList.lookup_insert_ne apart
      · simp [underway,other]
    · refine untouched_trans agentId o { o with restartStates := o.restartStates.erase id } _ ?_
        (untouched_publish agentId _ _ (silent state.attempt))
      exact ⟨fun present => present,AList.lookup_erase_ne apart,rfl,rfl,rfl⟩

theorem untouched_markExited (o : AgentOrchestrator) (id : String) (other : id ≠ agentId) :
    Untouched agentId o (markExited o id) := by
  refine ⟨fun present => (mem_modify o.agents id agentId _).mpr present,rfl,rfl,?_,rfl⟩
  simp [exits,markExited,other]

theorem untouched_restartNow (now : Nat) (o : AgentOrchestrator) (restart : Restarting) (other : restart.agentId ≠ agentId) :
    Untouched agentId o (restartNow now o restart) := by
  unfold restartNow
  split
  · exact untouched_refl agentId o
  · refine untouched_trans agentId o _ _ ?_ (untouched_publish agentId _ _ (by rw [notice,if_neg other]))
    exact ⟨fun present => (mem_modify o.agents restart.agentId agentId _).mpr present,rfl,rfl,rfl,rfl⟩

theorem underway_erase (o : AgentOrchestrator) (restart : Restarting) :
    underway agentId { o with sleeping := o.sleeping.erase restart } = (underway agentId o).erase restart :=
  List.erase_filter.symm

theorem untouched_sweep (now : Nat) (ids : List String) (o : AgentOrchestrator) (others : agentId ∉ ids) :
    Untouched agentId o (ids.foldl (autoRestart now) o) := by
  induction ids generalizing o with
  | nil => exact untouched_refl agentId o
  | cons id rest ih =>
    obtain ⟨different,later⟩ := not_or.mp (List.mem_cons.not.mp others)
    have other : id ≠ agentId := fun same => different same.symm
    refine untouched_trans agentId o (autoRestart now o id) _ ?_ (ih (autoRestart now o id) later)
    exact untouched_trans agentId o _ _ (untouched_modify agentId o id _)
      (untouched_publish agentId _ _ (by rw [notice,if_neg other]))

theorem untouched_steer (now : Nat) (o : AgentOrchestrator) (id : String) (command : SteerCommand) :
    Untouched agentId o (steer now o id command).1 := by
  unfold steer
  split
  · exact untouched_refl agentId o
  · cases command with
    | pause =>
      simp only
      split
      · exact untouched_modify agentId o id _
      · exact untouched_refl agentId o
    | resume =>
      simp only
      split
      · exact untouched_modify agentId o id _
      · exact untouched_refl agentId o
    | updateConfig config => exact untouched_modify agentId o id _
    | setLogLevel level => exact untouched_modify agentId o id _
    | triggerHeartbeat => exact untouched_modify agentId o id _
    | custom command payload => exact untouched_publish agentId o _ rfl
    | injectMessage message =>
      simp only
      split
      · exact untouched_refl agentId o
      · exact untouched_publish agentId o _ rfl

/-! The three phases of a supervised agent. -/

inductive Phase (maxRetries : Nat) (o : AgentOrchestrator) : Prop
  | idle (k : Nat) (state : RestartState) (within : k ≤ maxRetries)
      (row : o.restartStates.lookup agentId = some state) (policy : state.policy.maxRetries = maxRetries)
      (counted : state.attempt = k) (quiet : underway agentId o = []) (reported : exits agentId o = k)
      (published : notices agentId o = .started :: restarts k)
  | restarting (k : Nat) (state : RestartState) (delayMs : Nat) (within : k + 1 ≤ maxRetries)
      (row : o.restartStates.lookup agentId = some state) (policy : state.policy.maxRetries = maxRetries)
      (counted : state.attempt = k + 1) (asleep : underway agentId o = [⟨agentId,k + 1,delayMs⟩])
      (reported : exits agentId o = k + 1) (published : notices agentId o = .started :: restarts k)
  | failed (row : o.restartStates.lookup agentId = none) (quiet : underway agentId o = [])
      (reported : exits agentId o = maxRetries + 1)
      (published : notices agentId o = .started :: restarts maxRetries ++ [.failed maxRetries])

structure Supervised (maxRetries : Nat) (o : AgentOrchestrator) : Prop where
  registered : agentId ∈ o.agents
  phase : Phase agentId maxRetries o

theorem supervised_budgeted (maxRetries : Nat) (o : AgentOrchestrator) (supervised : Supervised agentId maxRetries o) :
    Budgeted agentId maxRetries o := by
  cases supervised.phase with
  | idle k state within row policy counted quiet reported published =>
    exact .inl ⟨k,within,published,.inl reported⟩
  | restarting k state delayMs within row policy counted asleep reported published =>
    exact .inl ⟨k,by omega,published,.inr ⟨reported,within,by rw [asleep]; rfl⟩⟩
  | failed row quiet reported published => exact .inr ⟨reported,published⟩

theorem supervised_untouched (maxRetries : Nat) (o after : AgentOrchestrator)
    (supervised : Supervised agentId maxRetries o) (untouched : Untouched agentId o after) :
    Supervised agentId maxRetries after := by
  refine ⟨untouched.agents supervised.registered,?_⟩
  cases supervised.phase with
  | idle k state within row policy counted quiet reported published =>
    exact .idle k state within (untouched.restartStates.trans row) policy counted (untouched.underway.trans quiet)
      (untouched.exits.trans reported) (untouched.notices.trans published)
  | restarting k state delayMs within row policy counted asleep reported published =>
    exact .restarting k state delayMs within (untouched.restartStates.trans row) policy counted
      (untouched.underway.trans asleep) (untouched.exits.trans reported) (untouched.notices.trans published)
  | failed row quiet reported published =>
    exact .failed (untouched.restartStates.trans row) (untouched.underway.trans quiet)
      (untouched.exits.trans reported) (untouched.notices.trans published)

/-- An exit of an idle agent is answered by a restart under way, or by the failure once the
budget is spent. -/
theorem supervised_triggerRestart (maxRetries k : Nat) (o : AgentOrchestrator) (state : RestartState) (reason : String)
    (registered : agentId ∈ o.agents) (within : k ≤ maxRetries)
    (row : o.restartStates.lookup agentId = some state) (policy : state.policy.maxRetries = maxRetries)
    (counted : state.attempt = k) (quiet : underway agentId o = []) (reported : exits agentId o = k + 1)
    (published : notices agentId o = .started :: restarts k) :
    Supervised agentId maxRetries (triggerRestart o agentId reason) := by
  by_cases more : k < maxRetries
  · have should : state.shouldRestart = true := by
      simp [RestartState.shouldRestart,AgentRestartPolicy.shouldRestart,counted,policy,more]
    simp only [triggerRestart,row,should,if_true,counted]
    refine ⟨(mem_modify o.agents agentId agentId _).mpr registered,?_⟩
    refine .restarting k { state with attempt := k + 1 } (state.policy.delayForAttempt k) more ?_ policy rfl ?_
      reported published
    · exact AList.lookup_insert o.restartStates
    · rw [underway,List.filter_append]
      change underway agentId o ++ _ = _
      rw [quiet]
      simp
  · have spent : k = maxRetries := by omega
    have should : state.shouldRestart = false := by
      simp [RestartState.shouldRestart,AgentRestartPolicy.shouldRestart,counted,policy,spent]
    simp only [triggerRestart,row,should,Bool.false_eq_true,if_false,counted]
    refine ⟨registered,.failed (AList.lookup_erase agentId o.restartStates) quiet (by rw [← spent]; exact reported) ?_⟩
    rw [notices_publish]
    have heard : notice agentId (.agentFailed agentId k reason) = some (.failed k) := by rw [notice,if_pos rfl]
    have same : notices agentId { o with restartStates := o.restartStates.erase agentId } = notices agentId o := rfl
    rw [heard,same,published,spent]
    rfl

theorem restarts_succ (k : Nat) : restarts (k + 1) = restarts k ++ [.restarted (k + 1)] := by
  rw [restarts,List.range_succ,List.map_append,restarts]
  rfl

theorem supervised_restartNow (maxRetries now : Nat) (o : AgentOrchestrator) (restart : Restarting)
    (supervised : Supervised agentId maxRetries o) (asleep : restart ∈ o.sleeping)
    (own : restart.agentId = agentId) :
    Supervised agentId maxRetries (restartNow now { o with sleeping := o.sleeping.erase restart } restart) := by
  have member : restart ∈ underway agentId o := List.mem_filter.mpr ⟨asleep,by simpa using own⟩
  cases supervised.phase with
  | idle k state within row policy counted quiet reported published =>
    rw [quiet] at member
    cases member
  | failed row quiet reported published =>
    rw [quiet] at member
    cases member
  | restarting k state delayMs within row policy counted alone reported published =>
    rw [alone,List.mem_singleton] at member
    obtain ⟨entry,found⟩ := Option.isSome_iff_exists.mp (AList.lookup_isSome.mpr supervised.registered)
    subst member
    simp only [restartNow,found]
    refine ⟨(mem_modify o.agents agentId agentId _).mpr supervised.registered,?_⟩
    refine .idle (k + 1) state within row policy counted ?_ reported ?_
    · have erased := underway_erase agentId o ⟨agentId,k + 1,delayMs⟩
      rw [alone,List.erase_cons_head] at erased
      exact erased
    · rw [notices_publish]
      have heard : notice agentId (.agentRestarted agentId (k + 1) delayMs) = some (.restarted (k + 1)) := by
        rw [notice,if_pos rfl]
      rw [heard,restarts_succ,← List.cons_append,← published]
      rfl

theorem supervised_exit (maxRetries : Nat) (o after : AgentOrchestrator) (reason : String)
    (supervised : Supervised agentId maxRetries o) (orderly : agentId ∈ o.restartStates ∧ underway agentId o = [])
    (registered : agentId ∈ after.agents) (rows : after.restartStates = o.restartStates)
    (sleeping : after.sleeping = o.sleeping) (reported : exits agentId after = exits agentId o + 1)
    (published : notices agentId after = notices agentId o) :
    Supervised agentId maxRetries (triggerRestart after agentId reason) := by
  obtain ⟨held,quietNow⟩ := orderly
  have quiet : underway agentId after = [] := by rw [underway,sleeping]; exact quietNow
  cases supervised.phase with
  | idle k state within row policy counted _ before events =>
    exact supervised_triggerRestart agentId maxRetries k after state reason registered within (by rw [rows,row]) policy
      counted quiet (by rw [reported,before]) (by rw [published,events])
  | restarting k state delayMs within row policy counted alone before events =>
    rw [alone] at quietNow
    cases quietNow
  | failed row _ before events => exact absurd held (AList.lookup_eq_none.mp row)

theorem supervised_loopExited (maxRetries : Nat) (o : AgentOrchestrator) (id reason : String)
    (supervised : Supervised agentId maxRetries o) (orderly : Orderly agentId o (.loopExited id reason)) :
    Supervised agentId maxRetries (loopExited o id reason) := by
  simp only [loopExited]
  split
  · rename_i running
    by_cases own : id = agentId
    · subst own
      refine supervised_exit id maxRetries o _ reason supervised (orderly rfl running) ?_ rfl rfl ?_ ?_
      · exact (mem_modify o.agents id id _).mpr supervised.registered
      · simp [exits,publish,markExited]
      · exact (untouched_publish id _ _ rfl).notices
    · apply supervised_untouched agentId maxRetries o _ supervised
      refine untouched_trans agentId o { o with loops := o.loops.erase id } _
        ⟨fun present => present,rfl,rfl,rfl,rfl⟩ ?_
      refine untouched_trans agentId _ _ _ (untouched_markExited agentId _ id own) ?_
      exact untouched_trans agentId _ _ _ (untouched_publish agentId _ _ rfl)
        (untouched_triggerRestart agentId _ id reason own)
  · exact supervised

theorem supervised_handleAgentExit (maxRetries : Nat) (o : AgentOrchestrator) (id reason : String)
    (supervised : Supervised agentId maxRetries o) (orderly : Orderly agentId o (.handleAgentExit id reason)) :
    Supervised agentId maxRetries (handleAgentExit o id reason) := by
  simp only [handleAgentExit]
  by_cases own : id = agentId
  · subst own
    refine supervised_exit id maxRetries o _ reason supervised (orderly rfl) ?_ rfl rfl ?_ rfl
    · exact (mem_modify o.agents id id _).mpr supervised.registered
    · simp [exits,markExited]
  · apply supervised_untouched agentId maxRetries o _ supervised
    exact untouched_trans agentId _ _ _ (untouched_markExited agentId o id own)
      (untouched_triggerRestart agentId _ id reason own)

theorem untouched_wake (now : Nat) (o : AgentOrchestrator) (restart : Restarting) (other : restart.agentId ≠ agentId) :
    Untouched agentId o (restartNow now { o with sleeping := o.sleeping.erase restart } restart) := by
  refine untouched_trans agentId o { o with sleeping := o.sleeping.erase restart } _ ?_
    (untouched_restartNow agentId now _ restart other)
  refine ⟨fun present => present,rfl,?_,rfl,rfl⟩
  rw [underway_erase,List.erase_of_not_mem]
  intro member
  exact other (of_decide_eq_true (List.mem_filter.mp member).2)

theorem supervised_step (maxRetries : Nat) (o : AgentOrchestrator) (s : Step)
    (supervised : Supervised agentId maxRetries o) (fixed : Fixed agentId s) (orderly : Orderly agentId o s) :
    Supervised agentId maxRetries (step o s) := by
  have same (after : AgentOrchestrator) (untouched : Untouched agentId o after) : Supervised agentId maxRetries after :=
    supervised_untouched agentId maxRetries o after supervised untouched
  -- an id that is registered cannot be registered again
  have named (id : String) (absent : id ∉ o.agents) : id ≠ agentId :=
    fun equal => absent (by rw [equal]; exact supervised.registered)
  cases s with
  | register now config =>
    simp only [step,register]
    split
    · exact supervised
    · exact same _ (untouched_insert agentId o config.agentId _ (named _ ‹_›))
  | unregister id reason =>
    simp only [step,unregister]
    split
    · exact same _ (untouched_erase agentId o id _ reason fixed)
    · exact supervised
  | spawn now config spawned =>
    simp only [step,spawn]
    split
    · exact supervised
    · cases spawned with
      | error message => exact supervised
      | ok pid => exact same _ (untouched_insert agentId o config.agentId _ (named _ ‹_›))
  | terminate id answer =>
    simp only [step,terminate]
    split
    · exact supervised
    · exact same _ (untouched_erase agentId o id o.capabilities "terminated" fixed)
  | kill id answer =>
    simp only [step,kill]
    split
    · exact supervised
    · exact same _ (untouched_erase agentId o id _ "killed" fixed)
  | announceCapabilities id capabilities => exact same _ ⟨fun present => present,rfl,rfl,rfl,rfl⟩
  | spawnAgent now id name policy =>
    simp only [step,spawnAgent]
    split
    · exact supervised
    · rename_i absent
      have other := named id absent
      refine same _ (untouched_trans agentId o _ _ ?_ (untouched_publish agentId _ _ (by rw [notice,if_neg other])))
      exact ⟨fun present => (AList.mem_insert o.agents).mpr (.inr present),
        AList.lookup_insert_ne (fun equal => other equal.symm),rfl,rfl,rfl⟩
  | setAgentRestartPolicy id policy =>
    simp only [step,setAgentRestartPolicy]
    split
    · refine same _ ⟨fun present => present,?_,rfl,rfl,rfl⟩
      rw [lookup_modify,if_neg (fun equal => fixed equal.symm)]
    · exact supervised
  | enableAutoRestart policy => exact same _ ⟨fun present => present,rfl,rfl,rfl,rfl⟩
  | steer now id command => exact same _ (untouched_steer agentId now o id command)
  | loopExited id reason => exact supervised_loopExited agentId maxRetries o id reason supervised orderly
  | handleAgentExit id reason => exact supervised_handleAgentExit agentId maxRetries o id reason supervised orderly
  | wake now restart =>
    simp only [step]
    split
    · rename_i asleep
      by_cases own : restart.agentId = agentId
      · exact supervised_restartNow agentId maxRetries now o restart supervised asleep own
      · exact same _ (untouched_wake agentId now o restart own)
    · exact supervised
  | healthCheck now =>
    refine same _ ⟨fun present => ?_,rfl,rfl,rfl,rfl⟩
    exact (mem_foldl_modify _ _ o.agents agentId).mpr present
  | sweep now =>
    simp only [step,sweep]
    split
    · exact same _ (untouched_sweep agentId now (toRestart o) o (orderly ‹_›))
    · exact supervised

/-- An id that was never used, as a generated one is. -/
structure Unseen (o : AgentOrchestrator) : Prop where
  unregistered : agentId ∉ o.agents
  quiet : underway agentId o = []
  unreported : exits agentId o = 0
  unpublished : notices agentId o = []

theorem supervised_spawnAgent (now : Nat) (o : AgentOrchestrator) (name : String) (policy : AgentRestartPolicy)
    (unseen : Unseen agentId o) :
    Supervised agentId policy.maxRetries (spawnAgent now o agentId name policy).1 := by
  simp only [spawnAgent,if_neg unseen.unregistered]
  refine ⟨(AList.mem_insert o.agents).mpr (.inl rfl),?_⟩
  refine .idle 0 ⟨name,0,policy⟩ (Nat.zero_le _) (AList.lookup_insert o.restartStates) rfl rfl unseen.quiet
    unseen.unreported ?_
  rw [notices_publish]
  have heard : notice agentId (.agentStarted agentId) = some .started := by rw [notice,if_pos rfl]
  rw [heard]
  exact congrArg (· ++ [Notice.started]) unseen.unpublished

/-- In every run in which the agent's exits are reported one at a time and not after its budget
is spent, and no sweep picks it, its restarts are numbered from 1 up to at most `maxRetries`, the
exit after the last one is answered by one failure, and nothing follows. A new policy never
changes the attempts counted. -/
theorem restart_budget_kept (now : Nat) (o : AgentOrchestrator) (name : String) (policy : AgentRestartPolicy)
    (unseen : Unseen agentId o) (steps : List Step) (fixed : ∀ s ∈ steps, Fixed agentId s)
    (orderly : Along step (Orderly agentId) (spawnAgent now o agentId name policy).1 steps) :
    Always step (Budgeted agentId policy.maxRetries) (spawnAgent now o agentId name policy).1 steps ∧
    ∀ (reached : AgentOrchestrator) (changed : AgentRestartPolicy),
      ((setAgentRestartPolicy reached agentId changed).1.restartStates.lookup agentId).map RestartState.attempt =
        (reached.restartStates.lookup agentId).map RestartState.attempt := by
  constructor
  · apply always_mono step (Supervised agentId policy.maxRetries) _ (supervised_budgeted agentId policy.maxRetries)
    exact always_of_along step (fun t s => Fixed agentId s ∧ Orderly agentId t s)
      (Supervised agentId policy.maxRetries)
      (fun t s supervised meets => supervised_step agentId policy.maxRetries t s supervised meets.1 meets.2)
      _ steps (supervised_spawnAgent agentId now o name policy unseen) (along_with _ _ _ _ _ fixed orderly)
  · intro reached changed
    unfold setAgentRestartPolicy
    split
    · rw [lookup_modify,if_pos rfl,Option.map_map]
      rfl
    · rfl

end Agent

def once : AgentRestartPolicy := ⟨1,fun _ => 1000⟩

/-- One restart, then the failure, with the sweep disabled. -/
theorem restart_budget_kept_once :
    Always step (Budgeted "a" 1) (spawnAgent 0 (new 30000) "a" "worker" once).1
      [.loopExited "a" "ipc_loop_exit",.sweep 5,.wake 6 ⟨"a",1,1000⟩,.loopExited "a" "ipc_loop_exit",.sweep 7] := by
  refine (restart_budget_kept "a" 0 (new 30000) "worker" once ⟨by decide,rfl,rfl,rfl⟩ _ ?_ ?_).1
  · intro s member
    simp only [List.mem_cons,List.not_mem_nil,or_false] at member
    rcases member with same | same | same | same | same <;> rw [same] <;> trivial
  · refine ⟨fun _ _ => ⟨by decide,rfl⟩,?_,trivial,fun _ _ => ⟨by decide,by decide⟩,?_,trivial⟩
    · intro enabled
      cases enabled
    · intro enabled
      cases enabled

/-- An IPC agent that is never to be restarted fails, loses its restart state and is picked
by the sweep for registered agents. -/
theorem failed_agent_restarted :
    notices "a" (run step (spawnAgent 0 (new 30000) "a" "worker" ⟨0,fun _ => 1000⟩).1
      [.enableAutoRestart ⟨true,3⟩,.loopExited "a" "ipc_loop_exit",.sweep 5]) = [.started,.failed 0,.started] ∧
    ¬Budgeted "a" 0 (run step (spawnAgent 0 (new 30000) "a" "worker" ⟨0,fun _ => 1000⟩).1
      [.enableAutoRestart ⟨true,3⟩,.loopExited "a" "ipc_loop_exit",.sweep 5]) := by
  have published : notices "a" (run step (spawnAgent 0 (new 30000) "a" "worker" ⟨0,fun _ => 1000⟩).1
      [.enableAutoRestart ⟨true,3⟩,.loopExited "a" "ipc_loop_exit",.sweep 5]) = [.started,.failed 0,.started] := by
    decide
  refine ⟨published,fun budgeted => ?_⟩
  rcases budgeted with ⟨k,within,noticed,_⟩ | ⟨_,noticed⟩
  · obtain rfl := Nat.le_zero.mp within
    rw [published] at noticed
    exact absurd noticed (by decide)
  · rw [published] at noticed
    exact absurd noticed (by decide)

end ClawKernel.Runtime.Restart
