import ClawKernel.Lib.Window
import ClawKernel.Server.Sessions
import ClawKernel.Server.Webhook

/-! Inbound messages: the channel registry, the router, and the three entry points that run a
message in the session of its thread (`channel.inbound`, `channel.broadcast` and the handler
of a webhook trigger). The ids that `Uuid::new_v4` draws are the sequence `uuid`; instants are
milliseconds.
-/
namespace ClawKernel.Server.Channels
open Lib.Json Lib.Runs Lib.Tables Lib.Window Server.Protocol Server.Sessions
open Server.Webhook (WebhookResponse)

structure ChannelMessage where
  channelId : String
  senderId : Option String
  threadId : Option String
  content : String
  deriving DecidableEq, Repr

/-- A compiled pattern is the test it makes. -/
inductive RoutingRule where
  | byChannelId (channelId agentId : String)
  | bySenderId (senderId agentId : String)
  | byPattern (isMatch : String → Bool) (agentId : String)
  | default (agentId : String)

def RoutingRule.agentId : RoutingRule → String
  | .byChannelId _ agentId => agentId
  | .bySenderId _ agentId => agentId
  | .byPattern _ agentId => agentId
  | .default agentId => agentId

def RoutingRule.matches (rule : RoutingRule) (msg : ChannelMessage) : Option String :=
  match rule with
  | .byChannelId channelId agentId => if msg.channelId = channelId then some agentId else none
  | .bySenderId senderId agentId => if msg.senderId = some senderId then some agentId else none
  | .byPattern isMatch agentId => if isMatch msg.content then some agentId else none
  | .default agentId => some agentId

def routeFrom (msg : ChannelMessage) : Option String → List RoutingRule → Option String
  | defaultAgent, [] => defaultAgent
  | _, .default agentId :: rest => routeFrom msg (some agentId) rest
  | defaultAgent, rule :: rest =>
    match rule.matches msg with
    | some agentId => some agentId
    | none => routeFrom msg defaultAgent rest

def route (rules : List RoutingRule) (msg : ChannelMessage) : Option String := routeFrom msg none rules

structure Matched where
  agents : List String
  hasExplicitMatch : Bool
  defaultAgent : Option String

def collect (msg : ChannelMessage) (found : Matched) : RoutingRule → Matched
  | .default agentId => { found with defaultAgent := some agentId }
  | rule =>
    match rule.matches msg with
    | none => found
    | some agentId =>
      { found with
        agents := if agentId ∈ found.agents then found.agents else found.agents ++ [agentId]
        hasExplicitMatch := true }

def broadcastRoute (rules : List RoutingRule) (msg : ChannelMessage) : List String :=
  let found := rules.foldl (collect msg) ⟨[],false,none⟩
  if found.hasExplicitMatch then found.agents else found.agents ++ found.defaultAgent.toList

def addRule (rules : List RoutingRule) (rule : RoutingRule) : List RoutingRule := rules ++ [rule]

def removeRulesForAgent (rules : List RoutingRule) (agentId : String) : List RoutingRule :=
  rules.filter (fun rule => rule.agentId ≠ agentId)

/-- `outboundTx` is the number of the connection that registered the channel. -/
structure RegisteredChannel where
  channelId : String
  channelType : String
  config : Value
  outboundTx : Option Nat

structure ChannelRegistry where
  channels : Table String RegisteredChannel
  seenIds : Table String Nat
  threadSessions : Table String String

namespace ChannelRegistry

def new : ChannelRegistry := ⟨∅,∅,∅⟩

def getThreadSession (registry : ChannelRegistry) (threadId : String) : Option String :=
  registry.threadSessions.lookup threadId

def setThreadSession (registry : ChannelRegistry) (threadId sessionId : String) : ChannelRegistry :=
  { registry with threadSessions := registry.threadSessions.insert threadId sessionId }

def register (registry : ChannelRegistry) (channelType channelId : String) (config : Value)
    (outboundTx : Option Nat) : ChannelRegistry × Except String Unit :=
  if channelId ∈ registry.channels then
    (registry,.error ("channel '" ++ channelId ++ "' is already registered"))
  else
    ({ registry with channels := registry.channels.insert channelId ⟨channelId,channelType,config,outboundTx⟩ },.ok ())

def unregister (registry : ChannelRegistry) (channelId : String) : ChannelRegistry × Bool :=
  ({ registry with channels := registry.channels.erase channelId },decide (channelId ∈ registry.channels))

def isDuplicate (now : Nat) (registry : ChannelRegistry) (messageId : String) : ChannelRegistry × Bool :=
  let (seen,seenIds) := observe 60000 now registry.seenIds messageId
  ({ registry with seenIds := seenIds },seen)

end ChannelRegistry

/-- Where a message came in and whom it is for. -/
inductive Entry where
  | inbound
  | broadcast
  | webhook
  deriving DecidableEq, Repr

structure Origin where
  entry : Entry
  channelId : Option String
  threadId : Option String
  agentId : String
  deriving DecidableEq, Repr

/-- A message given to the loop of a session. -/
structure Run where
  origin : Origin
  sessionId : String
  content : String
  deriving DecidableEq, Repr

structure Hub where
  manager : SessionManager
  registry : ChannelRegistry
  router : List RoutingRule
  drawn : Nat
  now : Nat
  runs : List Run

def Hub.new (maxSessions : Nat) : Hub := ⟨.new maxSessions,.new,[],0,0,[]⟩

structure ChannelInboundParams where
  channelId : String
  senderId : String
  content : String
  threadId : Option String
  messageId : Option String
  deriving DecidableEq, Repr

structure ChannelBroadcastParams where
  channelId : String
  senderId : String
  content : String
  threadId : Option String
  messageId : Option String
  deriving DecidableEq, Repr

def ChannelInboundParams.message (params : ChannelInboundParams) : ChannelMessage :=
  ⟨params.channelId,some params.senderId,params.threadId,params.content⟩

def ChannelBroadcastParams.message (params : ChannelBroadcastParams) : ChannelMessage :=
  ⟨params.channelId,some params.senderId,params.threadId,params.content⟩

def duplicateReply : Value := .object [("skipped",.bool true),("status",.string "duplicate")]

/-- The check both methods begin with; a message without an id passes it. -/
def dedupCheck (s : Hub) (messageId : Option String) : Hub × Bool :=
  match messageId with
  | none => (s,false)
  | some id => ({ s with registry := (s.registry.isDuplicate s.now id).1 },(s.registry.isDuplicate s.now id).2)

def Hub.start (s : Hub) (origin : Origin) (sessionId content : String) : Hub :=
  { s with runs := ⟨origin,sessionId,content⟩ :: s.runs }

section Handlers
variable (uuid : Nat → String)

def reusable (s : Hub) (threadId : Option String) : Option Session :=
  threadId.bind (fun tid => (s.registry.getThreadSession tid).bind s.manager.get)

/-- The new session's loop is built of the defaults, which `build` accepts. -/
def getOrCreateInboundSession (s : Hub) (threadId : Option String) : Hub × Except ServerError Session :=
  match reusable s threadId with
  | some session => (s,.ok session)
  | none =>
    match s.manager.createWithId (uuid s.drawn) with
    | (_,.error error) => ({ s with drawn := s.drawn + 1 },.error error)
    | (manager,.ok session) =>
      ({ s with
          manager := manager
          drawn := s.drawn + 1
          registry :=
            match threadId with
            | none => s.registry
            | some tid => s.registry.setThreadSession tid (uuid s.drawn) },
        .ok session)

def inboundUnrouted (channelId : String) : ServerError :=
  .serialization ("No routing rule matched channel '" ++ channelId ++
    "'. Add a rule with channel.route_add before sending inbound messages.")

def broadcastUnrouted (channelId : String) : ServerError :=
  .serialization ("channel.broadcast: no routing rules matched channel '" ++ channelId ++
    "'. Add rules with channel.route_add first.")

/-- `handle_channel_inbound` from the routing on. -/
def dispatchInbound (s : Hub) (params : ChannelInboundParams) : Hub × Except ServerError Value :=
  match route s.router params.message with
  | none => (s,.error (inboundUnrouted params.channelId))
  | some agentId =>
    match getOrCreateInboundSession uuid s params.threadId with
    | (s,.error error) => (s,.error error)
    | (s,.ok session) =>
      (s.start ⟨.inbound,some params.channelId,params.threadId,agentId⟩ session.id params.content,
        .ok (.object [("session_id",.string session.id),("status",.string "accepted")]))

def handleChannelInbound (s : Hub) (params : ChannelInboundParams) : Hub × Except ServerError Value :=
  let checked := dedupCheck s params.messageId
  if checked.2 then (checked.1,.ok duplicateReply) else dispatchInbound uuid checked.1 params

/-- One round of the fan-out; an agent whose session cannot be opened is passed over. -/
def notify (params : ChannelBroadcastParams) (done : Hub × List String) (agentId : String) : Hub × List String :=
  match getOrCreateInboundSession uuid done.1 (params.threadId.map (fun tid => tid ++ "/" ++ agentId)) with
  | (s,.error _) => (s,done.2)
  | (s,.ok session) =>
    (s.start ⟨.broadcast,some params.channelId,params.threadId,agentId⟩ session.id params.content,done.2 ++ [agentId])

def dispatched (notified : List String) : Value :=
  .object [("agent_ids",.array (notified.map .string)),("agents_notified",.integer notified.length),
    ("status",.string "dispatched")]

/-- `handle_channel_broadcast` from the routing on. -/
def dispatchBroadcast (s : Hub) (params : ChannelBroadcastParams) : Hub × Except ServerError Value :=
  let agentIds := broadcastRoute s.router params.message
  if agentIds.isEmpty then (s,.error (broadcastUnrouted params.channelId))
  else
    let done := agentIds.foldl (notify uuid params) (s,[])
    (done.1,.ok (dispatched done.2))

def handleChannelBroadcast (s : Hub) (params : ChannelBroadcastParams) : Hub × Except ServerError Value :=
  let checked := dedupCheck s params.messageId
  if checked.2 then (checked.1,.ok duplicateReply) else dispatchBroadcast uuid checked.1 params

/-- The handler of a webhook trigger. `outcome` is what the session's loop makes of the body. -/
def handleWebhookTrigger (s : Hub) (target body : String) (outcome : Except String String) : Hub × WebhookResponse :=
  match getOrCreateInboundSession uuid s (some target) with
  | (s,.error error) => (s,.error 500 error.display)
  | (s,.ok session) =>
    (s.start ⟨.webhook,none,none,target⟩ session.id body,
      match outcome with
      | .ok content => .json (Value.text (.object [("content",.string content),("session_id",.string session.id)]))
      | .error message => .error 500 message)

/-- A message comes in, the routes change, a session is removed, or time passes. -/
inductive Event where
  | inbound (params : ChannelInboundParams)
  | broadcast (params : ChannelBroadcastParams)
  | webhook (target body : String) (outcome : Except String String)
  | addRule (rule : RoutingRule)
  | removeRules (agentId : String)
  | removeSession (id : String)
  | wait (millis : Nat)

def step (s : Hub) : Event → Hub
  | .inbound params => (handleChannelInbound uuid s params).1
  | .broadcast params => (handleChannelBroadcast uuid s params).1
  | .webhook target body outcome => (handleWebhookTrigger uuid s target body outcome).1
  | .addRule rule => { s with router := addRule s.router rule }
  | .removeRules agentId => { s with router := removeRulesForAgent s.router agentId }
  | .removeSession id => { s with manager := (s.manager.remove id).1 }
  | .wait millis => { s with now := s.now + millis }

/-! The cases of opening a session, and what the parts of a handler leave alone. -/

/-- The hub once a session is opened for the thread. -/
def opened (s : Hub) (threadId : Option String) : Hub :=
  { s with
    manager := s.manager.insertSession (.newWithPending (uuid s.drawn))
    drawn := s.drawn + 1
    registry :=
      match threadId with
      | none => s.registry
      | some tid => s.registry.setThreadSession tid (uuid s.drawn) }

theorem getOrCreate_reuse (s : Hub) (threadId : Option String) (session : Session)
    (found : reusable s threadId = some session) :
    getOrCreateInboundSession uuid s threadId = (s,.ok session) := by
  unfold getOrCreateInboundSession
  rw [found]

theorem getOrCreate_full (s : Hub) (threadId : Option String) (missing : reusable s threadId = none)
    (full : s.manager.maxSessions ≤ s.manager.count) :
    getOrCreateInboundSession uuid s threadId =
      ({ s with drawn := s.drawn + 1 },.error (.maxSessionsReached s.manager.maxSessions)) := by
  have refused : s.manager.createWithId (uuid s.drawn) = (s.manager,.error (.maxSessionsReached s.manager.maxSessions)) :=
    if_pos full
  unfold getOrCreateInboundSession
  rw [missing]
  simp only [refused]

theorem getOrCreate_open (s : Hub) (threadId : Option String) (missing : reusable s threadId = none)
    (room : s.manager.count < s.manager.maxSessions) :
    getOrCreateInboundSession uuid s threadId = (opened uuid s threadId,.ok (.newWithPending (uuid s.drawn))) := by
  have created : s.manager.createWithId (uuid s.drawn) =
      (s.manager.insertSession (.newWithPending (uuid s.drawn)),.ok (.newWithPending (uuid s.drawn))) :=
    if_neg (Nat.not_le.mpr room)
  unfold getOrCreateInboundSession
  rw [missing]
  simp only [created]
  rfl

theorem inbound_repeated (s : Hub) (params : ChannelInboundParams)
    (repeated : (dedupCheck s params.messageId).2 = true) :
    handleChannelInbound uuid s params = ((dedupCheck s params.messageId).1,.ok duplicateReply) :=
  if_pos repeated

theorem inbound_first (s : Hub) (params : ChannelInboundParams)
    (first : (dedupCheck s params.messageId).2 = false) :
    handleChannelInbound uuid s params = dispatchInbound uuid (dedupCheck s params.messageId).1 params :=
  if_neg (Bool.not_eq_true _ ▸ first)

theorem broadcast_repeated (s : Hub) (params : ChannelBroadcastParams)
    (repeated : (dedupCheck s params.messageId).2 = true) :
    handleChannelBroadcast uuid s params = ((dedupCheck s params.messageId).1,.ok duplicateReply) :=
  if_pos repeated

theorem broadcast_first (s : Hub) (params : ChannelBroadcastParams)
    (first : (dedupCheck s params.messageId).2 = false) :
    handleChannelBroadcast uuid s params = dispatchBroadcast uuid (dedupCheck s params.messageId).1 params :=
  if_neg (Bool.not_eq_true _ ▸ first)

theorem reusable_iff (s : Hub) (threadId : Option String) (session : Session) :
    reusable s threadId = some session ↔
      ∃ tid id, threadId = some tid ∧ s.registry.threadSessions.lookup tid = some id ∧
        s.manager.get id = some session := by
  constructor
  · intro found
    obtain ⟨tid,thread,rest⟩ := Option.bind_eq_some_iff.mp found
    obtain ⟨id,registered,live⟩ := Option.bind_eq_some_iff.mp rest
    exact ⟨tid,id,thread,registered,live⟩
  · rintro ⟨tid,id,thread,registered,live⟩
    rw [reusable,thread,Option.bind_some,ChannelRegistry.getThreadSession,registered,Option.bind_some]
    exact live

theorem dedupCheck_frame (s : Hub) (messageId : Option String) :
    ∃ seenIds, (dedupCheck s messageId).1 = { s with registry := { s.registry with seenIds := seenIds } } := by
  cases messageId with
  | none => exact ⟨s.registry.seenIds,rfl⟩
  | some id => exact ⟨(observe 60000 s.now s.registry.seenIds id).2,rfl⟩

end Handlers

/-- No agent is named twice, and none without a rule that matched. -/
structure Orderly (found : Matched) : Prop where
  distinct : found.agents.Nodup
  explicit : found.hasExplicitMatch = false → found.agents = []

theorem collect_orderly (msg : ChannelMessage) (found : Matched) (rule : RoutingRule) (orderly : Orderly found) :
    Orderly (collect msg found rule) := by
  have added (agentId : String) :
      Orderly { found with
        agents := if agentId ∈ found.agents then found.agents else found.agents ++ [agentId]
        hasExplicitMatch := true } := by
    refine ⟨?_,nofun⟩
    change (if agentId ∈ found.agents then found.agents else found.agents ++ [agentId]).Nodup
    split
    · exact orderly.distinct
    · rw [List.nodup_append_comm]
      exact List.nodup_cons.mpr ⟨‹_›,orderly.distinct⟩
  cases rule with
  | default agentId => exact ⟨orderly.distinct,orderly.explicit⟩
  | byChannelId channelId agentId =>
    rw [collect]
    split
    · exact orderly
    · exact added _
    · exact nofun
  | bySenderId senderId agentId =>
    rw [collect]
    split
    · exact orderly
    · exact added _
    · exact nofun
  | byPattern isMatch agentId =>
    rw [collect]
    split
    · exact orderly
    · exact added _
    · exact nofun

theorem broadcastRoute_nodup (rules : List RoutingRule) (msg : ChannelMessage) : (broadcastRoute rules msg).Nodup := by
  have orderly : Orderly (rules.foldl (collect msg) ⟨[],false,none⟩) := by
    apply List.foldlRecOn (motive := Orderly)
    · exact ⟨List.nodup_nil,fun _ => rfl⟩
    · exact fun found holds rule _ => collect_orderly msg found rule holds
  rw [broadcastRoute]
  cases matched : (rules.foldl (collect msg) ⟨[],false,none⟩).hasExplicitMatch with
  | true => exact orderly.distinct
  | false =>
    simp only [orderly.explicit matched]
    cases (rules.foldl (collect msg) ⟨[],false,none⟩).defaultAgent with
    | none => exact List.nodup_nil
    | some agentId => exact List.nodup_singleton agentId

end ClawKernel.Server.Channels
