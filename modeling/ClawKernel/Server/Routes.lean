import ClawKernel.Lib.Serde
import ClawKernel.Server.Channels

/-! What the router answers in terms of the rules that match, and its export: the rules listed
over the protocol and added again. A pattern is its text; whether a text compiles and what it
matches are parameters.
-/
namespace ClawKernel.Server.Routes
open Lib.Json Lib.Serde Server.Protocol
open Server.Channels (ChannelMessage Matched collect route routeFrom broadcastRoute)

section Matching
open Server.Channels (RoutingRule)
variable (msg : ChannelMessage)

def explicitAgent : RoutingRule → Option String
  | .default _ => none
  | rule => rule.matches msg

def defaultAgent : RoutingRule → Option String
  | .default agentId => some agentId
  | _ => none

/-- The agents of the explicit rules that match, in rule order. -/
def explicitAgents (rules : List RoutingRule) : List String := rules.filterMap (explicitAgent msg)

def defaultAgents (rules : List RoutingRule) : List String := rules.filterMap defaultAgent

/-- The agents without repetition, or the last default alone. -/
def fanOut (explicit defaults : List String) : List String :=
  if explicit = [] then defaults.getLast?.toList else explicit.eraseDups

theorem eraseDups_concat (agents : List String) (agentId : String) :
    (agents ++ [agentId]).eraseDups =
      if agentId ∈ agents.eraseDups then agents.eraseDups else agents.eraseDups ++ [agentId] := by
  rw [List.eraseDups_append]
  by_cases known : agentId ∈ agents
  · rw [if_pos (List.mem_eraseDups.mpr known)]
    simp [List.removeAll,known]
  · rw [if_neg (fun member => known (List.mem_eraseDups.mp member))]
    simp [List.removeAll,known,List.eraseDups_cons]

/-- An explicit rule that matches adds its agent; a default rule replaces the default. -/
theorem collect_eq (found : Matched) (rule : RoutingRule) :
    collect msg found rule =
      match explicitAgent msg rule with
      | some agentId =>
        { found with
          agents := if agentId ∈ found.agents then found.agents else found.agents ++ [agentId]
          hasExplicitMatch := true }
      | none => { found with defaultAgent := (defaultAgent rule).or found.defaultAgent } := by
  cases rule with
  | default agentId => rfl
  | byChannelId channelId agentId =>
    cases answer : RoutingRule.matches (.byChannelId channelId agentId) msg with
    | none => simp [collect,explicitAgent,defaultAgent,answer]
    | some agentId => simp [collect,explicitAgent,answer]
  | bySenderId senderId agentId =>
    cases answer : RoutingRule.matches (.bySenderId senderId agentId) msg with
    | none => simp [collect,explicitAgent,defaultAgent,answer]
    | some agentId => simp [collect,explicitAgent,answer]
  | byPattern isMatch agentId =>
    cases answer : RoutingRule.matches (.byPattern isMatch agentId) msg with
    | none => simp [collect,explicitAgent,defaultAgent,answer]
    | some agentId => simp [collect,explicitAgent,answer]

theorem explicit_not_default (rule : RoutingRule) (agentId : String) (found : explicitAgent msg rule = some agentId) :
    defaultAgent rule = none := by
  cases rule with
  | default other => cases found
  | _ => rfl

/-- What has been collected from the rules so far. -/
theorem foldl_collect (rules : List RoutingRule) :
    rules.foldl (collect msg) ⟨[],false,none⟩ =
      ⟨(explicitAgents msg rules).eraseDups,decide (explicitAgents msg rules ≠ []),
        (defaultAgents rules).getLast?⟩ := by
  induction rules using List.reverseRecOn with
  | nil => rfl
  | append_singleton rules rule ih =>
    rw [List.foldl_append,ih,List.foldl_cons,List.foldl_nil,collect_eq]
    unfold explicitAgents defaultAgents
    rw [List.filterMap_append,List.filterMap_append]
    cases found : explicitAgent msg rule with
    | some agentId =>
      have other := explicit_not_default msg rule agentId found
      simp [found,other,eraseDups_concat]
    | none =>
      cases last : defaultAgent rule with
      | none => simp [found,last]
      | some agentId => simp [found,last]

theorem broadcastRoute_eq (rules : List RoutingRule) :
    broadcastRoute rules msg = fanOut (explicitAgents msg rules) (defaultAgents rules) := by
  unfold broadcastRoute fanOut
  rw [foldl_collect]
  by_cases none : explicitAgents msg rules = []
  · simp [none]
  · simp [none]

theorem routeFrom_eq (before : Option String) (rules : List RoutingRule) :
    routeFrom msg before rules =
      (explicitAgents msg rules).head?.or ((defaultAgents rules).getLast?.or before) := by
  induction rules generalizing before with
  | nil => simp [routeFrom,explicitAgents,defaultAgents]
  | cons rule rest ih =>
    unfold explicitAgents defaultAgents at ih ⊢
    cases rule with
    | default agentId =>
      have skipped : (RoutingRule.default agentId :: rest).filterMap (explicitAgent msg) =
        rest.filterMap (explicitAgent msg) := rfl
      have noted : (RoutingRule.default agentId :: rest).filterMap defaultAgent =
        agentId :: rest.filterMap defaultAgent := rfl
      rw [routeFrom,ih,skipped,noted]
      cases rest.filterMap defaultAgent with
      | nil => rfl
      | cons other others => simp [List.getLast?_cons]
    | byChannelId channelId agentId =>
      rw [routeFrom]
      cases found : RoutingRule.matches (.byChannelId channelId agentId) msg with
      | none => simp [explicitAgent,defaultAgent,found,ih]
      | some agentId => simp [explicitAgent,found]
      · simp
    | bySenderId senderId agentId =>
      rw [routeFrom]
      cases found : RoutingRule.matches (.bySenderId senderId agentId) msg with
      | none => simp [explicitAgent,defaultAgent,found,ih]
      | some agentId => simp [explicitAgent,found]
      · simp
    | byPattern isMatch agentId =>
      rw [routeFrom]
      cases found : RoutingRule.matches (.byPattern isMatch agentId) msg with
      | none => simp [explicitAgent,defaultAgent,found,ih]
      | some agentId => simp [explicitAgent,found]
      · simp

theorem head_fanOut (explicit defaults : List String) :
    (fanOut explicit defaults).head? = explicit.head?.or defaults.getLast? := by
  unfold fanOut
  cases explicit with
  | nil => cases defaults.getLast? <;> rfl
  | cons agentId rest => simp [List.eraseDups_cons]

/-- The first agent of the fan-out is the one a message is routed to. -/
theorem route_eq_head (rules : List RoutingRule) : route rules msg = (broadcastRoute rules msg).head? := by
  rw [route,routeFrom_eq,broadcastRoute_eq,head_fanOut,Option.or_none]

/-- A rule answers with its own agent or not at all. -/
theorem matches_own (rule : RoutingRule) (agentId : String) (found : rule.matches msg = some agentId) :
    rule.agentId = agentId := by
  cases rule with
  | default other => exact Option.some.inj found
  | byChannelId channelId other =>
    rw [RoutingRule.matches,Option.ite_none_right_eq_some] at found
    exact Option.some.inj found.2
  | bySenderId senderId other =>
    rw [RoutingRule.matches,Option.ite_none_right_eq_some] at found
    exact Option.some.inj found.2
  | byPattern isMatch other =>
    rw [RoutingRule.matches,Option.ite_none_right_eq_some] at found
    exact Option.some.inj found.2

theorem filterMap_remove (answer : RoutingRule → Option String)
    (own : ∀ rule agentId, answer rule = some agentId → rule.agentId = agentId) (rules : List RoutingRule)
    (agentId : String) :
    (Server.Channels.removeRulesForAgent rules agentId).filterMap answer =
      (rules.filterMap answer).filter (· ≠ agentId) := by
  unfold Server.Channels.removeRulesForAgent
  induction rules with
  | nil => rfl
  | cons rule rest ih =>
    by_cases removed : rule.agentId = agentId
    · rw [List.filter_cons_of_neg (by simpa using removed),ih]
      cases found : answer rule with
      | none => rw [List.filterMap_cons_none found]
      | some other =>
        rw [List.filterMap_cons_some found,List.filter_cons_of_neg]
        simpa [← own rule other found] using removed
    · rw [List.filter_cons_of_pos (by simpa using removed)]
      cases found : answer rule with
      | none => rw [List.filterMap_cons_none found,List.filterMap_cons_none found,ih]
      | some other =>
        rw [List.filterMap_cons_some found,List.filterMap_cons_some found,List.filter_cons_of_pos,ih]
        simpa [← own rule other found] using removed

theorem explicitAgents_remove (rules : List RoutingRule) (agentId : String) :
    explicitAgents msg (Server.Channels.removeRulesForAgent rules agentId) =
      (explicitAgents msg rules).filter (· ≠ agentId) := by
  refine filterMap_remove _ (fun rule other found => matches_own msg rule other ?_) rules agentId
  cases rule with
  | default own => cases found
  | _ => exact found

theorem defaultAgents_remove (rules : List RoutingRule) (agentId : String) :
    defaultAgents (Server.Channels.removeRulesForAgent rules agentId) = (defaultAgents rules).filter (· ≠ agentId) := by
  refine filterMap_remove _ (fun rule other found => ?_) rules agentId
  cases rule with
  | default own => exact Option.some.inj found
  | _ => cases found

theorem mem_fanOut (explicit defaults : List String) (agentId : String) (member : agentId ∈ fanOut explicit defaults) :
    agentId ∈ explicit ∨ agentId ∈ defaults := by
  unfold fanOut at member
  split at member
  · exact .inr (List.mem_of_mem_getLast? (by simpa using member))
  · exact .inl (List.mem_eraseDups.mp member)

end Matching

/-- A compiled pattern; `regexError` is what compiling a text fails with. -/
structure Regex (regexError : String → Option String) where
  asStr : String
  compiled : regexError asStr = none

section Export
variable {regexError : String → Option String} (isMatch : String → String → Bool)

def Regex.new (regexError : String → Option String) (text : String) : Except String (Regex regexError) :=
  match failed : regexError text with
  | none => .ok ⟨text,failed⟩
  | some error => .error error

inductive RoutingRule (regexError : String → Option String) where
  | byChannelId (channelId agentId : String)
  | bySenderId (senderId agentId : String)
  | byPattern (pattern : Regex regexError) (agentId : String)
  | default (agentId : String)

/-- The rule as the router tests it. -/
def RoutingRule.test : RoutingRule regexError → Server.Channels.RoutingRule
  | .byChannelId channelId agentId => .byChannelId channelId agentId
  | .bySenderId senderId agentId => .bySenderId senderId agentId
  | .byPattern pattern agentId => .byPattern (isMatch pattern.asStr) agentId
  | .default agentId => .default agentId

def RoutingRule.agentId : RoutingRule regexError → String
  | .byChannelId _ agentId => agentId
  | .bySenderId _ agentId => agentId
  | .byPattern _ agentId => agentId
  | .default agentId => agentId

def addRule (rules : List (RoutingRule regexError)) (rule : RoutingRule regexError) : List (RoutingRule regexError) :=
  rules ++ [rule]

def removeRulesForAgent (rules : List (RoutingRule regexError)) (agentId : String) : List (RoutingRule regexError) × Nat :=
  let kept := rules.filter (fun rule => rule.agentId ≠ agentId)
  (kept,rules.length - kept.length)

structure RoutingRuleSpec where
  ruleType : String
  channelId : Option String
  senderId : Option String
  pattern : Option String
  agentId : String
  deriving DecidableEq, Repr

def listRule : RoutingRule regexError → RoutingRuleSpec
  | .byChannelId channelId agentId => ⟨"channel",some channelId,none,none,agentId⟩
  | .bySenderId senderId agentId => ⟨"sender",none,some senderId,none,agentId⟩
  | .byPattern pattern agentId => ⟨"pattern",none,none,some pattern.asStr,agentId⟩
  | .default agentId => ⟨"default",none,none,none,agentId⟩

def listRules (rules : List (RoutingRule regexError)) : List RoutingRuleSpec := rules.map listRule

def optionalText : Option String → Value
  | none => .null
  | some text => .string text

def RoutingRuleSpec.members (spec : RoutingRuleSpec) : List (String × Value) :=
  [("rule_type",.string spec.ruleType),("channel_id",optionalText spec.channelId),
    ("sender_id",optionalText spec.senderId),("pattern",optionalText spec.pattern),("agent_id",.string spec.agentId)]

def RoutingRuleSpec.toValue (spec : RoutingRuleSpec) : Value := .object spec.members

structure ChannelRouteAddParams where
  ruleType : String
  channelId : Option String
  senderId : Option String
  pattern : Option String
  agentId : String
  deriving DecidableEq, Repr

def ChannelRouteAddParams.fromValue (tree : Value) : Option ChannelRouteAddParams := do
  let field ← fields ["rule_type","channel_id","sender_id","pattern","agent_id"] tree
  let ruleType ← (field "rule_type").bind text
  let channelId ← missable text (field "channel_id")
  let senderId ← missable text (field "sender_id")
  let pattern ← missable text (field "pattern")
  let agentId ← (field "agent_id").bind text
  return ⟨ruleType,channelId,senderId,pattern,agentId⟩

/-- The rule of the parameters of `channel.route_add`. -/
def ruleOf (regexError : String → Option String) (params : ChannelRouteAddParams) :
    Except ServerError (RoutingRule regexError) :=
  if params.ruleType = "channel" then
    match params.channelId with
    | none => .error (.serialization "channel_id required for 'channel' rule")
    | some channelId => .ok (.byChannelId channelId params.agentId)
  else if params.ruleType = "sender" then
    match params.senderId with
    | none => .error (.serialization "sender_id required for 'sender' rule")
    | some senderId => .ok (.bySenderId senderId params.agentId)
  else if params.ruleType = "pattern" then
    match params.pattern with
    | none => .error (.serialization "pattern required for 'pattern' rule")
    | some pattern =>
      match Regex.new regexError pattern with
      | .error e => .error (.serialization ("invalid regex: " ++ e))
      | .ok regex => .ok (.byPattern regex params.agentId)
  else if params.ruleType = "default" then .ok (.default params.agentId)
  else .error (.serialization ("Unknown rule type: " ++ params.ruleType))

def handleChannelRouteAdd (params : ChannelRouteAddParams) (rules : List (RoutingRule regexError)) :
    List (RoutingRule regexError) × Except ServerError Value :=
  match ruleOf regexError params with
  | .error e => (rules,.error e)
  | .ok rule =>
    (addRule rules rule,
      .ok (.object [("ok",.bool true),("rule_type",.string params.ruleType),("agent_id",.string params.agentId)]))

def handleChannelRouteRemove (agentId : String) (rules : List (RoutingRule regexError)) :
    List (RoutingRule regexError) × Value :=
  let (kept,removed) := removeRulesForAgent rules agentId
  (kept,.object [("ok",.bool true),("agent_id",.string agentId),("removed",.integer removed)])

def handleChannelRouteList (rules : List (RoutingRule regexError)) : Value :=
  .array ((listRules rules).map RoutingRuleSpec.toValue)

/-- `channel.route_add` with the parameters as they come in. -/
def routeAdd (rules : List (RoutingRule regexError)) (params : Value) : List (RoutingRule regexError) :=
  match ChannelRouteAddParams.fromValue params with
  | none => rules
  | some params => (handleChannelRouteAdd params rules).1

/-- A router built by adding again what another lists. -/
def rebuild (regexError : String → Option String) : Value → List (RoutingRule regexError)
  | .array specs => specs.foldl routeAdd []
  | _ => []

theorem fromValue_toValue (spec : RoutingRuleSpec) :
    ChannelRouteAddParams.fromValue spec.toValue =
      some ⟨spec.ruleType,spec.channelId,spec.senderId,spec.pattern,spec.agentId⟩ := by
  unfold ChannelRouteAddParams.fromValue RoutingRuleSpec.toValue
  have distinct : (keys spec.members).Nodup := by
    change ["rule_type","channel_id","sender_id","pattern","agent_id"].Nodup
    decide
  rw [fields_eq _ _ distinct]
  obtain ⟨ruleType,channelId,senderId,pattern,agentId⟩ := spec
  cases channelId <;> cases senderId <;> cases pattern <;> rfl

theorem new_asStr (pattern : Regex regexError) : Regex.new regexError pattern.asStr = .ok pattern := by
  obtain ⟨asStr,compiled⟩ := pattern
  unfold Regex.new
  split
  · rfl
  · rename_i error failed
    rw [compiled] at failed
    cases failed

/-- A listed rule, added again, is the rule. -/
theorem routeAdd_listRule (rules : List (RoutingRule regexError)) (rule : RoutingRule regexError) :
    routeAdd rules (listRule rule).toValue = addRule rules rule := by
  rw [routeAdd,fromValue_toValue]
  cases rule with
  | byPattern pattern agentId =>
    have same : ruleOf regexError ⟨"pattern",none,none,some pattern.asStr,agentId⟩ = .ok (.byPattern pattern agentId) := by
      simp [ruleOf,new_asStr]
    simp only [listRule,handleChannelRouteAdd,same]
  | _ => rfl

theorem rebuild_list (rules : List (RoutingRule regexError)) : rebuild regexError (handleChannelRouteList rules) = rules := by
  have added (before : List (RoutingRule regexError)) :
      ((listRules rules).map RoutingRuleSpec.toValue).foldl routeAdd before = before ++ rules := by
    induction rules generalizing before with
    | nil => exact (List.append_nil before).symm
    | cons rule rest ih =>
      change ((listRules rest).map RoutingRuleSpec.toValue).foldl routeAdd (routeAdd before (listRule rule).toValue) = _
      rw [routeAdd_listRule,ih,addRule,List.append_assoc]
      rfl
  exact added []

theorem test_agentId (rule : RoutingRule regexError) : (rule.test isMatch).agentId = rule.agentId := by
  cases rule <;> rfl

theorem map_test_remove (rules : List (RoutingRule regexError)) (agentId : String) :
    (removeRulesForAgent rules agentId).1.map (RoutingRule.test isMatch) =
      Server.Channels.removeRulesForAgent (rules.map (RoutingRule.test isMatch)) agentId := by
  unfold removeRulesForAgent Server.Channels.removeRulesForAgent
  rw [List.filter_map]
  refine congrArg (List.map _) (List.filter_congr (fun rule _ => ?_))
  rw [Function.comp_apply,test_agentId]

/-- How the list of rules of a router comes about. -/
inductive Op (regexError : String → Option String) where
  | addRule (rule : RoutingRule regexError)
  | removeRulesForAgent (agentId : String)

def Op.apply (rules : List (RoutingRule regexError)) : Op regexError → List (RoutingRule regexError)
  | .addRule rule => Routes.addRule rules rule
  | .removeRulesForAgent agentId => (Routes.removeRulesForAgent rules agentId).1

def built (ops : List (Op regexError)) : List (RoutingRule regexError) := ops.foldl Op.apply []

/-- Where a message goes by the rules of a router. -/
def routed (rules : List (RoutingRule regexError)) (msg : ChannelMessage) : Option String :=
  route (rules.map (RoutingRule.test isMatch)) msg

def broadcast (rules : List (RoutingRule regexError)) (msg : ChannelMessage) : List String :=
  broadcastRoute (rules.map (RoutingRule.test isMatch)) msg

/-- The agents of the explicit rules that match, in rule order. -/
def matching (rules : List (RoutingRule regexError)) (msg : ChannelMessage) : List String :=
  explicitAgents msg (rules.map (RoutingRule.test isMatch))

def defaults (rules : List (RoutingRule regexError)) : List String :=
  defaultAgents (rules.map (RoutingRule.test isMatch))

/-- The fan-out is that of the matching rules, routing takes its first agent, removing an agent's
rules takes out the agent and nothing else, and the listed rules build the same router. -/
theorem routes_agree (ops : List (Op regexError)) (msg : ChannelMessage) :
    broadcast isMatch (built ops) msg = fanOut (matching isMatch (built ops) msg) (defaults isMatch (built ops)) ∧
    (broadcast isMatch (built ops) msg).Nodup ∧
    routed isMatch (built ops) msg = (broadcast isMatch (built ops) msg).head? ∧
    (∀ agentId,
      agentId ∉ broadcast isMatch (handleChannelRouteRemove agentId (built ops)).1 msg ∧
      routed isMatch (handleChannelRouteRemove agentId (built ops)).1 msg ≠ some agentId ∧
      broadcast isMatch (handleChannelRouteRemove agentId (built ops)).1 msg =
        fanOut ((matching isMatch (built ops) msg).filter (· ≠ agentId))
          ((defaults isMatch (built ops)).filter (· ≠ agentId))) ∧
    routed isMatch (rebuild regexError (handleChannelRouteList (built ops))) msg = routed isMatch (built ops) msg ∧
    broadcast isMatch (rebuild regexError (handleChannelRouteList (built ops))) msg = broadcast isMatch (built ops) msg := by
  refine ⟨broadcastRoute_eq msg _,Server.Channels.broadcastRoute_nodup _ msg,route_eq_head msg _,fun agentId => ?_,
    by rw [rebuild_list],by rw [rebuild_list]⟩
  have removed : broadcast isMatch (handleChannelRouteRemove agentId (built ops)).1 msg =
      fanOut ((matching isMatch (built ops) msg).filter (· ≠ agentId))
        ((defaults isMatch (built ops)).filter (· ≠ agentId)) := by
    unfold broadcast handleChannelRouteRemove matching defaults
    rw [map_test_remove,broadcastRoute_eq,explicitAgents_remove,defaultAgents_remove]
  have absent : agentId ∉ broadcast isMatch (handleChannelRouteRemove agentId (built ops)).1 msg := by
    intro member
    rw [removed] at member
    rcases mem_fanOut _ _ agentId member with member | member
    · simpa using List.of_mem_filter member
    · simpa using List.of_mem_filter member
  refine ⟨absent,fun found => ?_,removed⟩
  rw [routed,route_eq_head] at found
  exact absent (List.mem_of_mem_head? (by rw [broadcast,found]; rfl))

end Export

end ClawKernel.Server.Routes
