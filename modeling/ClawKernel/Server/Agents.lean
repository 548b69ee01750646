import ClawKernel.Runtime.Orchestrator
import ClawKernel.Server.Sessions

/-! Agents behind sessions: `agent.spawn`, `agent.kill`, `createSession` and the two requests
that remove a session by its id, over the session manager and the orchestrator. The ids that
`Uuid::new_v4` draws are the sequence `uuid`.
-/
namespace ClawKernel.Server.Agents
open Lib.Inverse Lib.Json Lib.Runs Lib.Tables Server.Protocol Server.Sessions
open Runtime.Orchestrator (AgentOrchestrator AgentConfig RuntimeError)

structure AgentSpawnConfig where
  systemPrompt : Option String
  provider : Option String
  model : Option String
  maxTurns : Option Nat
  deriving DecidableEq, Repr

structure AgentSpawnParams where
  agentId : Option String
  config : AgentSpawnConfig
  deriving DecidableEq, Repr

/-- `drawn` counts the session ids drawn so far. -/
structure Kernel where
  manager : SessionManager
  orchestrator : AgentOrchestrator
  drawn : Nat

def Kernel.new (maxSessions heartbeatTimeoutMs : Nat) : Kernel :=
  ⟨.new maxSessions,Runtime.Orchestrator.new heartbeatTimeoutMs,0⟩

/-- `generated` is the id that `AgentId::generate` would give; `built` is what came of
building the loop of a new session; a request whose params do not decode has its error. -/
inductive Request where
  | spawn (now : Nat) (generated : String) (params : AgentSpawnParams)
  | kill (agentId : String)
  | createSession (built : Except ServerError Unit)
  | destroySession (sessionId : String)
  | sessionClose (sessionId : String)
  | undecodable (error : ServerError)

def errorText : RuntimeError → String
  | .agentAlreadyExists agentId => "agent already exists: " ++ agentId
  | .agentNotFound agentId => "agent not found: " ++ agentId
  | .processError message => "process error: " ++ message

def withMeta (key : String) (value : Option String) (metadata : Table String String) : Table String String :=
  match value with
  | none => metadata
  | some text => metadata.insert key text

def agentConfig (agentId : String) (config : AgentSpawnConfig) : AgentConfig where
  agentId := agentId
  name := agentId
  metadata :=
    withMeta "max_turns" (config.maxTurns.map toString) (withMeta "model" config.model
      (withMeta "provider" config.provider (withMeta "system_prompt" config.systemPrompt ∅)))

section Handlers
variable (uuid : Nat → String) (known : String → Bool)

/-- Choosing the provider and building the loop: the error, if any. -/
def buildError (config : AgentSpawnConfig) : Option ServerError :=
  match config.provider.filter (fun name => !known name) with
  | some name => some (.agent ("Provider '" ++ name ++ "' not found"))
  | none =>
    if config.maxTurns = some 0 then
      some (.agent ("agent.spawn: build AgentLoop failed: context error: " ++
        "max_turns 必须 ≥ 1（为 0 表示循环永远不会执行任何轮次）"))
    else none

def handleAgentSpawn (now : Nat) (generated : String) (s : Kernel) (params : AgentSpawnParams) :
    Kernel × Except ServerError Value :=
  let agentId := params.agentId.getD generated
  match buildError known params.config with
  | some error => (s,.error error)
  | none =>
    match Runtime.Orchestrator.register now s.orchestrator (agentConfig agentId params.config) with
    | (_,.error error) =>
      (s,.error (.agent ("agent.spawn: orchestrator.register failed: " ++ errorText error)))
    | (registered,.ok _) =>
      match s.manager.createForAgent (uuid s.drawn) agentId with
      | (_,.error error) =>
        ({ s with
            orchestrator := (Runtime.Orchestrator.unregister registered agentId "session_create_failed").1 },
          .error error)
      | (manager,.ok session) =>
        (⟨manager,registered,s.drawn + 1⟩,
          .ok (.object [("agent_id",.string agentId),("session_id",.string session.id),("status",.string "running")]))

/-- That the agent is not registered any more is tolerated. -/
def handleAgentKill (s : Kernel) (agentId : String) : Kernel × Except ServerError Value :=
  ({ s with
      manager := (s.manager.removeByAgent agentId).1
      orchestrator := (Runtime.Orchestrator.unregister s.orchestrator agentId "killed").1 },
    .ok (.object [("agent_id",.string agentId),("ok",.bool true)]))

/-- The id is drawn before the loop is built. -/
def handleCreateSession (s : Kernel) (built : Except ServerError Unit) : Kernel × Except ServerError Value :=
  match built with
  | .error error => ({ s with drawn := s.drawn + 1 },.error error)
  | .ok _ =>
    match s.manager.createWithId (uuid s.drawn) with
    | (_,.error error) => ({ s with drawn := s.drawn + 1 },.error error)
    | (manager,.ok session) =>
      ({ s with manager := manager,drawn := s.drawn + 1 },.ok (.object [("session_id",.string session.id)]))

def handleDestroySession (s : Kernel) (sessionId : String) : Kernel × Except ServerError Value :=
  match s.manager.remove sessionId with
  | (manager,true) =>
    ({ s with manager := manager },
      .ok (.object [("session_id",.string sessionId),("status",.string "destroyed")]))
  | (_,false) => (s,.error (.sessionNotFound sessionId))

def handleSessionClose (s : Kernel) (sessionId : String) : Kernel × Except ServerError Value :=
  match s.manager.remove sessionId with
  | (manager,true) =>
    ({ s with manager := manager },
      .ok (.object [("closed",.bool true),("session_id",.string sessionId)]))
  | (_,false) => (s,.error (.sessionNotFound sessionId))

def handle (s : Kernel) : Request → Kernel × Except ServerError Value
  | .spawn now generated params => handleAgentSpawn uuid known now generated s params
  | .kill agentId => handleAgentKill s agentId
  | .createSession built => handleCreateSession uuid s built
  | .destroySession sessionId => handleDestroySession s sessionId
  | .sessionClose sessionId => handleSessionClose s sessionId
  | .undecodable error => (s,.error error)

def step (s : Kernel) (request : Request) : Kernel := (handle uuid known s request).1

end Handlers

/-- An agent is registered exactly if the index names a live session for it. -/
def InStep (s : Kernel) : Prop :=
  ∀ agentId, agentId ∈ s.orchestrator.agents ↔
    ∃ id, s.manager.sessionForAgent agentId = some id ∧ (s.manager.get id).isSome

/-- The session that a request removes by its id. -/
def closes : Request → Option String
  | .destroySession sessionId => some sessionId
  | .sessionClose sessionId => some sessionId
  | _ => none

/-- The session that a request removes, if it is live. -/
def removes (s : Kernel) : Request → Option String
  | .kill agentId => s.manager.sessionForAgent agentId
  | request => closes request

theorem removes_of_closes (s : Kernel) (request : Request) (id : String) (closed : closes request = some id) :
    removes s request = some id := by
  cases request with
  | kill agentId => cases closed
  | _ => exact closed

/-- A session is not removed by its id while it backs an agent. -/
def KeepsAgents (s : Kernel) (request : Request) : Prop :=
  ∀ sessionId, closes request = some sessionId → s.manager.agentOf sessionId = none

/-- What the request leaves of both sides where it answers with an error. -/
def ErrorHarmless (uuid : Nat → String) (known : String → Bool) (s : Kernel) (request : Request) : Prop :=
  ∀ error, (handle uuid known s request).2 = .error error →
    (handle uuid known s request).1.manager = s.manager ∧
      (handle uuid known s request).1.orchestrator.agents = s.orchestrator.agents ∧
      (handle uuid known s request).1.orchestrator.capabilities = s.orchestrator.capabilities

/-- Whatever the requests: the index is exact, who backs a session is registered, session ids
have been drawn, and only the registered have capabilities. -/
structure Consistent (uuid : Nat → String) (s : Kernel) : Prop where
  paired : Paired s.manager.sessionForAgent s.manager.agentOf
  backed : ∀ id agentId, s.manager.agentOf id = some agentId → agentId ∈ s.orchestrator.agents
  drawn : ∀ id, (s.manager.get id).isSome → ∃ k < s.drawn, id = uuid k
  plain : s.orchestrator.capabilities = ∅

/-- What a request can do, with what it answers. -/
inductive Effect (uuid : Nat → String) (s : Kernel) : Request → Kernel × Except ServerError Value → Prop where
  | refused (request : Request) (t : Kernel) (error : ServerError) (manager : t.manager = s.manager)
      (agents : t.orchestrator.agents = s.orchestrator.agents)
      (plain : s.orchestrator.capabilities = ∅ → t.orchestrator.capabilities = ∅) (drawn : s.drawn ≤ t.drawn)
      (gone : ∀ sessionId, removes s request = some sessionId → s.manager.get sessionId = none) :
      Effect uuid s request (t,.error error)
  | spawned (now : Nat) (generated agentId : String) (params : AgentSpawnParams) (o : AgentOrchestrator)
      (state : Runtime.Orchestrator.AgentState) (reply : Value)
      (free : agentId ∉ s.orchestrator.agents) (agents : o.agents = s.orchestrator.agents.insert agentId state)
      (plain : o.capabilities = s.orchestrator.capabilities) :
      Effect uuid s (.spawn now generated params)
        (⟨(s.manager.insertSession (.newForAgent (uuid s.drawn) agentId)).indexAgent agentId (uuid s.drawn),
          o,s.drawn + 1⟩,.ok reply)
  | killed (agentId : String) (o : AgentOrchestrator) (reply : Value)
      (agents : o.agents = s.orchestrator.agents.erase agentId)
      (plain : s.orchestrator.capabilities = ∅ → o.capabilities = ∅) :
      Effect uuid s (.kill agentId) (⟨(s.manager.removeByAgent agentId).1,o,s.drawn⟩,.ok reply)
  | created (built : Except ServerError Unit) (reply : Value) :
      Effect uuid s (.createSession built)
        (⟨s.manager.insertSession (.newWithPending (uuid s.drawn)),s.orchestrator,s.drawn + 1⟩,.ok reply)
  | removed (request : Request) (id : String) (reply : Value) (named : closes request = some id) :
      Effect uuid s request ({ s with manager := (s.manager.remove id).1 },.ok reply)

section Effects
variable (uuid : Nat → String) (known : String → Bool) (s : Kernel)

theorem erase_plain (capabilities : Table String (List String)) (agentId : String) (plain : capabilities = ∅) :
    capabilities.erase agentId = ∅ := by
  rw [plain]
  exact erase_absent ∅ agentId (AList.notMem_empty agentId)

theorem register_ok (now : Nat) (o registered : AgentOrchestrator) (config : AgentConfig)
    (added : Runtime.Orchestrator.register now o config = (registered,.ok ())) :
    config.agentId ∉ o.agents ∧ registered.agents = o.agents.insert config.agentId (.new now config none) ∧
      registered.capabilities = o.capabilities := by
  unfold Runtime.Orchestrator.register at added
  split at added
  · cases added
  · rename_i free
    obtain rfl := (Prod.mk.inj added).1
    exact ⟨free,rfl,rfl⟩

theorem unregister_agents (o : AgentOrchestrator) (agentId reason : String) :
    (Runtime.Orchestrator.unregister o agentId reason).1.agents = o.agents.erase agentId := by
  unfold Runtime.Orchestrator.unregister
  split
  · rfl
  · rename_i absent
    exact (erase_absent o.agents agentId absent).symm

theorem unregister_plain (o : AgentOrchestrator) (agentId reason : String) (plain : o.capabilities = ∅) :
    (Runtime.Orchestrator.unregister o agentId reason).1.capabilities = ∅ := by
  unfold Runtime.Orchestrator.unregister
  split
  · exact erase_plain o.capabilities agentId plain
  · exact plain

theorem spawn_effect (now : Nat) (generated : String) (params : AgentSpawnParams) :
    Effect uuid s (.spawn now generated params) (handleAgentSpawn uuid known now generated s params) := by
  unfold handleAgentSpawn
  dsimp only
  split
  · exact .refused _ _ _ rfl rfl id (Nat.le_refl _) nofun
  · split
    · exact .refused _ _ _ rfl rfl id (Nat.le_refl _) nofun
    · rename_i registered _ added
      obtain ⟨free,agents,plain⟩ := register_ok now s.orchestrator registered _ added
      split
      · -- the rollback takes back the registration
        refine .refused _ _ _ rfl ?_ ?_ (Nat.le_refl _) nofun
        · change (Runtime.Orchestrator.unregister registered _ _).1.agents = _
          rw [unregister_agents,agents]
          exact erase_insert _ _ _ free
        · intro empty
          exact unregister_plain registered _ _ (plain.trans empty)
      · rename_i manager session made
        unfold SessionManager.createForAgent at made
        split at made
        · cases made
        · obtain rfl := (Prod.mk.inj made).1
          exact .spawned now generated _ params registered _ _ free agents plain

theorem remove_false (m rest : SessionManager) (id : String) (absent : m.remove id = (rest,false)) : m.get id = none := by
  unfold SessionManager.remove at absent
  split at absent
  · assumption
  · split at absent
    · cases absent
    · cases absent

/-- Destroying a session and closing it differ in their reply. -/
theorem remove_effect (request : Request) (sessionId : String) (reply : Value) (named : closes request = some sessionId) :
    Effect uuid s request (match s.manager.remove sessionId with
      | (manager,true) => ({ s with manager := manager },.ok reply)
      | (_,false) => (s,.error (.sessionNotFound sessionId))) := by
  split
  · rename_i manager gone
    have taken : manager = (s.manager.remove sessionId).1 := by rw [gone]
    rw [taken]
    exact .removed request sessionId reply named
  · rename_i rest gone
    refine .refused request _ _ rfl rfl id (Nat.le_refl _) fun other same => ?_
    obtain rfl := Option.some_inj.mp ((removes_of_closes s request sessionId named).symm.trans same)
    exact remove_false _ rest _ gone

theorem handle_effect (request : Request) : Effect uuid s request (handle uuid known s request) := by
  cases request with
  | spawn now generated params => exact spawn_effect uuid known s now generated params
  | kill agentId =>
    apply Effect.killed agentId
    · exact unregister_agents s.orchestrator agentId "killed"
    · exact unregister_plain s.orchestrator agentId "killed"
  | createSession built =>
    simp only [handle,handleCreateSession]
    split
    · exact .refused _ _ _ rfl rfl id (Nat.le_succ _) nofun
    · split
      · exact .refused _ _ _ rfl rfl id (Nat.le_succ _) nofun
      · rename_i manager session made
        unfold SessionManager.createWithId at made
        split at made
        · cases made
        · obtain rfl := (Prod.mk.inj made).1
          exact .created _ _
  | destroySession sessionId => exact remove_effect uuid s (.destroySession sessionId) sessionId _ rfl
  | sessionClose sessionId => exact remove_effect uuid s (.sessionClose sessionId) sessionId _ rfl
  | undecodable error => exact .refused _ _ _ rfl rfl id (Nat.le_refl _) nofun

theorem error_harmless (request : Request) (consistent : Consistent uuid s) : ErrorHarmless uuid known s request := by
  intro error answered
  have effect := handle_effect uuid known s request
  generalize handle uuid known s request = next at effect answered
  cases effect with
  | refused _ t _ manager agents plain drawn gone =>
    exact ⟨manager,agents,(plain consistent.plain).trans consistent.plain.symm⟩
  | _ => cases answered

theorem fresh_absent (injective : Function.Injective uuid) (consistent : Consistent uuid s) :
    s.manager.get (uuid s.drawn) = none := by
  rw [Option.eq_none_iff_forall_ne_some]
  intro session live
  have drawn := consistent.drawn (uuid s.drawn) (Option.isSome_of_eq_some live)
  exact drawn_ne_next uuid injective s.drawn _ drawn rfl

theorem step_drawn (request : Request) : s.drawn ≤ (step uuid known s request).drawn := by
  have effect := handle_effect uuid known s request
  unfold step
  generalize handle uuid known s request = next at effect
  cases effect with
  | refused _ t _ _ _ _ drawn _ => exact drawn
  | spawned => exact Nat.le_succ _
  | created => exact Nat.le_succ _
  | killed => exact Nat.le_refl _
  | removed => exact Nat.le_refl _

/-- A live session afterwards was there before, or it is a new one under the next id. -/
theorem get_step_origin (request : Request) (id : String) (session : Session)
    (live : (step uuid known s request).manager.get id = some session) :
    s.manager.get id = some session ∨
      (id = uuid s.drawn ∧ s.drawn < (step uuid known s request).drawn ∧ session.eventForwarder = none ∧
        session.scheduledTaskIds = []) := by
  have effect := handle_effect uuid known s request
  unfold step at live ⊢
  generalize handle uuid known s request = next at effect live
  cases effect with
  | refused _ t _ manager _ _ _ _ =>
    rw [manager] at live
    exact Or.inl live
  | spawned now generated agentId params o state _ free agents plain =>
    rcases get_insertSession_cases s.manager (.newForAgent (uuid s.drawn) agentId) session id live with old | ⟨rfl,rfl⟩
    · exact Or.inl old
    · exact Or.inr ⟨rfl,Nat.lt_succ_self _,rfl,rfl⟩
  | killed agentId o _ agents plain =>
    change (s.manager.removeByAgent agentId).1.get id = some session at live
    rw [get_removeByAgent] at live
    split at live
    · cases live
    · exact Or.inl live
  | created built _ =>
    rcases get_insertSession_cases s.manager (.newWithPending (uuid s.drawn)) session id live with old | ⟨rfl,rfl⟩
    · exact Or.inl old
    · exact Or.inr ⟨rfl,Nat.lt_succ_self _,rfl,rfl⟩
  | removed _ sessionId _ named =>
    change (s.manager.remove sessionId).1.get id = some session at live
    rw [get_remove] at live
    split at live
    · cases live
    · exact Or.inl live

theorem paired_step (injective : Function.Injective uuid) (request : Request) (consistent : Consistent uuid s) :
    Paired (step uuid known s request).manager.sessionForAgent (step uuid known s request).manager.agentOf := by
  have unbacked : s.manager.agentOf (uuid s.drawn) = none := by
    rw [SessionManager.agentOf,fresh_absent uuid s injective consistent,Option.bind_none]
  have effect := handle_effect uuid known s request
  unfold step
  generalize handle uuid known s request = next at effect
  cases effect with
  | refused _ t _ manager agents plain drawn gone =>
    rw [manager]
    exact consistent.paired
  | spawned now generated agentId params o state _ free agents plain =>
    apply (paired_createForAgent s.manager (uuid s.drawn) agentId consistent.paired).mpr
    constructor
    · intro other backs
      rw [unbacked] at backs
      cases backs
    · intro id backs
      exact absurd (consistent.backed id agentId backs) free
  | killed agentId o _ agents plain => exact paired_removeByAgent s.manager agentId consistent.paired
  | created built _ =>
    exact (paired_insertSession s.manager (.newWithPending (uuid s.drawn)) rfl consistent.paired).mpr unbacked
  | removed _ sessionId _ named => exact paired_remove s.manager sessionId consistent.paired

theorem backed_step (request : Request) (consistent : Consistent uuid s) (id agentId : String)
    (backs : (step uuid known s request).manager.agentOf id = some agentId) :
    agentId ∈ (step uuid known s request).orchestrator.agents := by
  have effect := handle_effect uuid known s request
  unfold step at backs ⊢
  generalize handle uuid known s request = next at effect backs
  cases effect with
  | refused _ t _ manager agents plain drawn gone =>
    rw [manager] at backs
    rw [agents]
    exact consistent.backed id agentId backs
  | spawned now generated spawned params o state _ free agents plain =>
    change (s.manager.insertSession (.newForAgent (uuid s.drawn) spawned)).agentOf id = some agentId at backs
    rw [agentOf_insertSession] at backs
    rw [agents,AList.mem_insert]
    split at backs
    · exact Or.inl (Option.some_inj.mp backs).symm
    · exact Or.inr (consistent.backed id agentId backs)
  | killed killed o _ agents plain =>
    change (s.manager.removeByAgent killed).1.agentOf id = some agentId at backs
    rw [agentOf_removeByAgent] at backs
    split at backs
    · cases backs
    · rename_i kept
      rw [agents,AList.mem_erase]
      refine ⟨?_,consistent.backed id agentId backs⟩
      intro same
      rw [same] at backs
      exact kept ((consistent.paired killed id).mpr backs)
  | created built _ =>
    change (s.manager.insertSession (.newWithPending (uuid s.drawn))).agentOf id = some agentId at backs
    rw [agentOf_insertSession] at backs
    split at backs
    · cases backs
    · exact consistent.backed id agentId backs
  | removed _ sessionId _ named =>
    change (s.manager.remove sessionId).1.agentOf id = some agentId at backs
    rw [agentOf_remove,drop] at backs
    split at backs
    · cases backs
    · exact consistent.backed id agentId backs

theorem plain_step (request : Request) (plain : s.orchestrator.capabilities = ∅) :
    (step uuid known s request).orchestrator.capabilities = ∅ := by
  have effect := handle_effect uuid known s request
  unfold step
  generalize handle uuid known s request = next at effect
  cases effect with
  | refused _ t _ _ _ kept _ _ => exact kept plain
  | spawned _ _ _ _ o _ _ _ _ same => exact same.trans plain
  | killed _ o _ _ kept => exact kept plain
  | created => exact plain
  | removed => exact plain

theorem step_consistent (injective : Function.Injective uuid) (request : Request) (consistent : Consistent uuid s) :
    Consistent uuid (step uuid known s request) where
  paired := paired_step uuid known s injective request consistent
  backed := backed_step uuid known s request consistent
  drawn := by
    intro id live
    obtain ⟨session,there⟩ := Option.isSome_iff_exists.mp live
    rcases get_step_origin uuid known s request id session there with before | ⟨fresh,later,_,_⟩
    · obtain ⟨k,below,same⟩ := consistent.drawn id (Option.isSome_of_eq_some before)
      exact ⟨k,Nat.lt_of_lt_of_le below (step_drawn uuid known s request),same⟩
    · exact ⟨s.drawn,later,fresh⟩
  plain := plain_step uuid known s request consistent.plain

theorem consistent_update (consistent : Consistent uuid s) (id : String) (change : Session → Session)
    (kept : ∀ session, (change session).agentId = session.agentId) :
    Consistent uuid { s with manager := s.manager.update id change } := by
  have backs := agentOf_update s.manager id change kept
  refine ⟨?_,?_,?_,consistent.plain⟩
  · rw [backs]
    exact consistent.paired
  · rw [backs]
    exact consistent.backed
  · intro other live
    rw [isSome_get_update] at live
    exact consistent.drawn other live

theorem consistent_drawn (consistent : Consistent uuid s) (more : Nat) (later : s.drawn ≤ more) :
    Consistent uuid { s with drawn := more } := by
  refine ⟨consistent.paired,consistent.backed,?_,consistent.plain⟩
  intro id live
  obtain ⟨k,below,same⟩ := consistent.drawn id live
  exact ⟨k,Nat.lt_of_lt_of_le below later,same⟩

theorem get_step_removed (request : Request) (id : String) (named : removes s request = some id) :
    (step uuid known s request).manager.get id = none := by
  have effect := handle_effect uuid known s request
  unfold step
  generalize handle uuid known s request = next at effect
  cases effect with
  | refused _ t _ manager _ _ _ gone =>
    rw [manager]
    exact gone id named
  | spawned => cases named
  | killed agentId o _ agents plain =>
    change (s.manager.removeByAgent agentId).1.get id = none
    rw [get_removeByAgent]
    exact if_pos named
  | created => cases named
  | removed _ sessionId _ closed =>
    rw [removes_of_closes s request sessionId closed,Option.some_inj] at named
    change (s.manager.remove sessionId).1.get id = none
    rw [get_remove]
    exact if_pos named.symm

/-- Ids are not drawn twice, so that a request takes away no other session. -/
theorem get_step_kept (injective : Function.Injective uuid) (consistent : Consistent uuid s) (request : Request)
    (id : String) (session : Session) (live : s.manager.get id = some session) (kept : removes s request ≠ some id) :
    (step uuid known s request).manager.get id = some session := by
  have other : id ≠ uuid s.drawn := by
    intro same
    rw [same,fresh_absent uuid s injective consistent] at live
    cases live
  have effect := handle_effect uuid known s request
  unfold step
  generalize handle uuid known s request = next at effect
  cases effect with
  | refused _ t _ manager _ _ _ _ =>
    rw [manager]
    exact live
  | spawned now generated agentId params o state _ free agents plain =>
    change (s.manager.insertSession (.newForAgent (uuid s.drawn) agentId)).get id = some session
    rw [get_insertSession]
    exact (if_neg other).trans live
  | killed agentId o _ agents plain =>
    change (s.manager.removeByAgent agentId).1.get id = some session
    rw [get_removeByAgent]
    exact (if_neg kept).trans live
  | created built _ =>
    change (s.manager.insertSession (.newWithPending (uuid s.drawn))).get id = some session
    rw [get_insertSession]
    exact (if_neg other).trans live
  | removed _ sessionId _ closed =>
    have apart : id ≠ sessionId := fun same => kept (same ▸ removes_of_closes s request sessionId closed)
    change (s.manager.remove sessionId).1.get id = some session
    rw [get_remove,if_neg apart]
    exact live

theorem inStep_iff (consistent : Consistent uuid s) :
    InStep s ↔ ∀ agentId ∈ s.orchestrator.agents, ∃ id, s.manager.sessionForAgent agentId = some id := by
  have live (agentId id : String) (found : s.manager.sessionForAgent agentId = some id) :
      (s.manager.get id).isSome := by
    obtain ⟨session,there,_⟩ := (agentOf_some s.manager id agentId).mp ((consistent.paired agentId id).mp found)
    exact Option.isSome_of_eq_some there
  constructor
  · intro inStep agentId registered
    obtain ⟨id,found,_⟩ := (inStep agentId).mp registered
    exact ⟨id,found⟩
  · intro named agentId
    constructor
    · intro registered
      obtain ⟨id,found⟩ := named agentId registered
      exact ⟨id,found,live agentId id found⟩
    · intro ⟨id,found,_⟩
      exact consistent.backed id agentId ((consistent.paired agentId id).mp found)

theorem keepsAgents_of_open (request : Request) (opens : closes request = none) : KeepsAgents s request := by
  intro sessionId closed
  rw [opens] at closed
  cases closed

theorem step_inStep_iff (injective : Function.Injective uuid) (request : Request) (consistent : Consistent uuid s)
    (inStep : InStep s) : InStep (step uuid known s request) ↔ KeepsAgents s request := by
  rw [inStep_iff uuid _ (step_consistent uuid known s injective request consistent)]
  have named := (inStep_iff uuid s consistent).mp inStep
  have effect := handle_effect uuid known s request
  unfold step
  generalize handle uuid known s request = next at effect
  cases effect with
  | refused _ t _ manager agents plain drawn gone =>
    rw [manager,agents]
    refine ⟨fun _ sessionId closed => ?_,fun _ => named⟩
    rw [SessionManager.agentOf,gone sessionId (removes_of_closes s _ sessionId closed),Option.bind_none]
  | spawned now generated agentId params o state _ free agents plain =>
    refine ⟨fun _ => keepsAgents_of_open s _ rfl,fun _ other registered => ?_⟩
    change other ∈ o.agents at registered
    rw [sessionForAgent_indexAgent,Lib.Inverse.set]
    split
    · exact ⟨_,rfl⟩
    · rename_i different
      rw [agents,AList.mem_insert] at registered
      exact named other (registered.resolve_left different)
  | killed agentId o _ agents plain =>
    refine ⟨fun _ => keepsAgents_of_open s _ rfl,fun _ other registered => ?_⟩
    change other ∈ o.agents at registered
    rw [agents,AList.mem_erase] at registered
    rw [sessionForAgent_removeByAgent,drop,if_neg registered.1]
    exact named other registered.2
  | created built _ => exact ⟨fun _ => keepsAgents_of_open s _ rfl,fun _ => named⟩
  | removed _ sessionId _ closed =>
    rw [sessionForAgent_remove]
    cases backs : s.manager.agentOf sessionId with
    | none =>
      refine ⟨fun _ other same => ?_,fun _ => named⟩
      rw [closed,Option.some_inj] at same
      rw [← same]
      exact backs
    | some agentId =>
      constructor
      · intro still
        obtain ⟨id,found⟩ := still agentId (consistent.backed sessionId agentId backs)
        simp only [drop,if_true] at found
        cases found
      · intro keeps
        rw [keeps sessionId closed] at backs
        cases backs

end Effects

theorem new_consistent (uuid : Nat → String) (maxSessions timeout : Nat) : Consistent uuid (.new maxSessions timeout) :=
  ⟨fun _ _ => ⟨nofun,nofun⟩,nofun,nofun,rfl⟩

theorem run_errors_harmless (uuid : Nat → String) (known : String → Bool) (injective : Function.Injective uuid)
    (s : Kernel) (requests : List Request) (consistent : Consistent uuid s) :
    Along (step uuid known) (ErrorHarmless uuid known) s requests := by
  induction requests generalizing s with
  | nil => trivial
  | cons request rest ih =>
    exact ⟨error_harmless uuid known s request consistent,
      ih _ (step_consistent uuid known s injective request consistent)⟩

/-- Registered agents and live sessions agree throughout, and errors leave both as they are,
exactly if no session is destroyed or closed while it backs an agent. -/
theorem agents_in_step_throughout_iff (uuid : Nat → String) (known : String → Bool)
    (injective : Function.Injective uuid) (maxSessions timeout : Nat) (requests : List Request) :
    (Always (step uuid known) InStep (.new maxSessions timeout) requests ∧
      Along (step uuid known) (ErrorHarmless uuid known) (.new maxSessions timeout) requests) ↔
      Along (step uuid known) KeepsAgents (.new maxSessions timeout) requests := by
  have harmless := run_errors_harmless uuid known injective _ requests (new_consistent uuid maxSessions timeout)
  have inStep : Always (step uuid known) InStep (.new maxSessions timeout) requests ↔
      Along (step uuid known) KeepsAgents (.new maxSessions timeout) requests := by
    apply always_iff_along _ KeepsAgents InStep (Consistent uuid) (fun _ => True)
    · exact fun s request consistent _ => step_consistent uuid known s injective request consistent
    · exact fun s request consistent _ before => step_inStep_iff uuid known s injective request consistent before
    · exact fun _ _ => trivial
    · exact new_consistent uuid maxSessions timeout
    · exact fun agentId => ⟨nofun,nofun⟩
  rw [inStep]
  exact ⟨fun both => both.1,fun keeps => ⟨keeps,harmless⟩⟩

/-- Ids for the runs on fixed requests. -/
def numbered (n : Nat) : String := String.ofList (List.replicate (n + 1) '0')

theorem numbered_injective : Function.Injective numbered := by
  intro n m same
  have lengths := congrArg (fun text => text.toList.length) same
  simpa [numbered] using lengths

def spawnAgent : Request := .spawn 0 "generated" ⟨some "agent",⟨none,none,none,none⟩⟩

theorem agents_in_step_spawn_kill :
    Always (step numbered (fun _ => false)) InStep (.new 1 30000) [spawnAgent,.kill "agent",spawnAgent] :=
  ((agents_in_step_throughout_iff numbered (fun _ => false) numbered_injective 1 30000
    [spawnAgent,.kill "agent",spawnAgent]).mpr ⟨nofun,nofun,nofun,trivial⟩).1

/-- A destroyed session leaves its agent registered. -/
theorem destroyed_session_leaves_agent :
    ¬Always (step numbered (fun _ => false)) InStep (.new 1 30000) [spawnAgent,.destroySession (numbered 0)] := by
  intro always
  obtain ⟨id,found,_⟩ := (always.2.2 "agent").mp (by decide)
  cases found

end ClawKernel.Server.Agents
