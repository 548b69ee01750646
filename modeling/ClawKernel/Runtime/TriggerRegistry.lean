import ClawKernel.Lib.Cascade
import ClawKernel.Lib.Runs
import ClawKernel.Server.EventTrigger
import ClawKernel.Server.Webhook
import Mathlib.Data.List.MinMax

/-! The registry of event triggers. It listens on the bus on which it publishes, so that a
rule may answer what another rule, or the rule itself, has fired. An answer carries the
event it answers as its payload: a filter on a nested value can match only so deep, and a
cascade without end has to go around a cycle of rules that know each other by their tags
and identities.
-/
namespace ClawKernel.Runtime.TriggerRegistry
open Lib Lib.Runs Lib.Cascade
open Server.EventTrigger (Event toValue)
open Server.Webhook (stripPrefix)

structure EventTriggerRule where
  triggerId : String
  watchEvent : String
  payloadFilter : Option Json.Value
  targetAgent : Option String

def eventTypeTag : Event → String
  | .agentStarted _ => "agent.started"
  | .agentStopped .. => "agent.stopped"
  | .agentRestarted .. => "agent.restarted"
  | .agentFailed .. => "agent.failed"
  | .llmRequestStarted .. => "llm.request.started"
  | .llmRequestCompleted .. => "llm.request.completed"
  | .messageReceived .. => "message.received"
  | .a2a _ => "a2a"
  | .toolCalled .. => "tool.called"
  | .toolResult .. => "tool.result"
  | .contextWindowApproachingLimit .. => "context.window.limit"
  | .memoryArchiveComplete .. => "memory.archive.complete"
  | .modeChanged .. => "mode.changed"
  | .extension _ => "extension"
  | .triggerFired _ => "trigger.fired"
  | .custom .. => "custom"
  | .shutdown => "shutdown"

def typeTagMatches (watchEvent typeTag : String) (event : Event) : Bool :=
  if watchEvent = typeTag then true
  else
    match stripPrefix "custom." watchEvent, event with
    | some sub, .custom eventType _ => eventType == sub
    | _, _ => false

/-- The members of a payload and those one level below, in the order in which they are
put into the map; the last one under a key stays. -/
def payloadMap (outer : List (String × Json.Value)) : List (String × Json.Value) :=
  outer.flatMap (fun member => member :: (match member.2 with | .object inner => inner | _ => []))

def payloadMatches (filter payload : Json.Value) : Bool :=
  match filter, payload with
  | .object wanted, .object outer =>
    wanted.all (fun member =>
      match (payloadMap outer).reverse.lookup member.1 with
      | some value => value.equals member.2
      | none => false)
  | _, _ => false

/-- The fresh identifier of a trigger event and the time at which it was made. -/
structure Stamp where
  id : String
  firedAt : String

def targetValue : Option String → Json.Value
  | none => .null
  | some agent => .string agent

/-- `TriggerEvent::event`, as it is serialised. -/
def triggerEvent (stamp : Stamp) (triggerId : String) (payload : Json.Value) (targetAgent : Option String) :
    Json.Value :=
  .object [("fired_at",.string stamp.firedAt),("id",.string stamp.id),("payload",payload),
    ("target_agent",targetValue targetAgent),("trigger_id",.string triggerId),("trigger_type",.string "Event")]

def fired (stamp : Stamp) (rule : EventTriggerRule) (event : Event) : Event :=
  .triggerFired (triggerEvent stamp rule.triggerId (toValue event) rule.targetAgent)

/-- The two checks of a rule in `process_event`. -/
def ruleMatches (rule : EventTriggerRule) (event : Event) : Bool :=
  typeTagMatches rule.watchEvent (eventTypeTag event) event &&
    (match rule.payloadFilter with
    | none => true
    | some filter => payloadMatches filter (toValue event))

inductive LagStrategy where
  | error
  | skip
  | warn

/-- The registry's end of the bus, the checks of the event it is at, and what it has
published so far. -/
structure State where
  pending : List Event
  checks : List (Event × EventTriggerRule)
  stopped : Bool
  published : List Event

def State.start : State := ⟨[],[],false,[]⟩

inductive Step where
  | publish (event : Event)
  | receive
  | check (stamp : Stamp)

/-- `recv`: a receiver that has fallen behind by more than the channel holds has lost the
oldest events. The default strategy makes that an error, which ends `run`. -/
def receive (capacity : Nat) (strategy : LagStrategy) (rules : List EventTriggerRule) (s : State) : State :=
  if capacity < s.pending.length then
    match strategy with
    | .error => { s with pending := [], stopped := true }
    | .skip => { s with pending := s.pending.drop (s.pending.length - capacity) }
    | .warn => { s with pending := s.pending.drop (s.pending.length - capacity) }
  else
    match s.pending with
    | [] => s
    | event :: rest => { s with pending := rest, checks := rules.map (fun rule => (event,rule)) }

/-- One turn of the loop in `process_event`. -/
def check (stamp : Stamp) (s : State) : State :=
  match s.checks with
  | [] => s
  | (event,rule) :: rest =>
    if ruleMatches rule event then
      { s with
        pending := s.pending ++ [fired stamp rule event], checks := rest
        published := s.published ++ [fired stamp rule event] }
    else { s with checks := rest }

def step (capacity : Nat) (strategy : LagStrategy) (rules : List EventTriggerRule) (s : State) : Step → State
  | .publish event => if s.stopped then s else { s with pending := s.pending ++ [event] }
  | .receive =>
    if s.stopped then s
    else
      match s.checks with
      | [] => receive capacity strategy rules s
      | _ :: _ => s
  | .check stamp => check stamp s

/-- What others publish in a run. -/
def externals : List Step → List Event
  | [] => []
  | .publish event :: rest => event :: externals rest
  | .receive :: rest => externals rest
  | .check _ :: rest => externals rest

/-- However a run with these events from outside goes on, the registry publishes no more
than so many events. -/
def CascadesFinite (capacity : Nat) (strategy : LagStrategy) (rules : List EventTriggerRule) : Prop :=
  ∀ events, ∃ bound, ∀ steps, externals steps = events →
    (run (step capacity strategy rules) State.start steps).published.length ≤ bound

/-- What a filter may ask of a member if it is to hold of another rule's answers however
deep they are nested. The identifier and the time of an answer may be any. -/
def accepts (before : EventTriggerRule) (key : String) (wanted : Json.Value) : Bool :=
  if key = "trigger_id" then (Json.Value.string before.triggerId).equals wanted
  else if key = "trigger_type" then (Json.Value.string "Event").equals wanted
  else if key = "target_agent" then (targetValue before.targetAgent).equals wanted
  else (key == "id" || key == "fired_at") && wanted.asStr.isSome

def feeds (before after : EventTriggerRule) : Bool :=
  after.watchEvent == "trigger.fired" &&
    (match after.payloadFilter with
    | none => true
    | some (.object wanted) => wanted.all (fun member => accepts before member.1 member.2)
    | some _ => false)

def Feeds (before after : EventTriggerRule) : Prop := feeds before after = true

def depth (event : Event) : Nat := (toValue event).depth

theorem depth_fired (stamp : Stamp) (rule : EventTriggerRule) (event : Event) :
    depth (fired stamp rule event) = depth event + 2 := by
  have target : (targetValue rule.targetAgent).depth = 0 := by
    cases rule.targetAgent with
    | none => rfl
    | some agent => rfl
  simp only [depth,fired,triggerEvent,toValue,Json.Value.depth,Json.membersDepth,target,Nat.zero_max,Nat.max_zero]

/-- How deep the values are nested that a rule's filter asks for. -/
def filterDepth (rule : EventTriggerRule) : Nat :=
  match rule.payloadFilter with
  | some (.object wanted) => Json.membersDepth wanted
  | _ => 0

def deepest (rules : List EventTriggerRule) : Nat := (rules.map filterDepth).foldr max 0

theorem filterDepth_le (rules : List EventTriggerRule) (rule : EventTriggerRule) (member : rule ∈ rules) :
    filterDepth rule ≤ deepest rules :=
  List.le_max_of_le (List.mem_map_of_mem member) (Nat.le_refl _)

theorem typeTagMatches_fired (watchEvent : String) (trigger : Json.Value)
    (tagged : typeTagMatches watchEvent (eventTypeTag (.triggerFired trigger)) (.triggerFired trigger) = true) :
    watchEvent = "trigger.fired" := by
  unfold typeTagMatches at tagged
  split_ifs at tagged with same
  · exact same
  · split at tagged
    · rename_i custom
      cases custom
    · cases tagged

theorem equals_asStr (text : String) (wanted : Json.Value) (equal : (Json.Value.string text).equals wanted = true) :
    wanted.asStr.isSome = true := by
  cases wanted with
  | string other => rfl
  | _ => cases equal

/-- What a filter finds in the answer to an event that is nested deeper than the value it
asks for is none of the two members that carry the event. -/
theorem accepts_of_found (stamp : Stamp) (rule : EventTriggerRule) (event : Event) (key : String)
    (wanted value : Json.Value) (deep : wanted.depth < depth event)
    (found : (payloadMap [("TriggerFired",triggerEvent stamp rule.triggerId (toValue event) rule.targetAgent)]).reverse.lookup
      key = some value)
    (equal : value.equals wanted = true) : accepts rule key wanted = true := by
  have shallow := Json.depth_le_of_equals value wanted equal
  have member := List.mem_reverse.mp (Json.mem_of_lookup key value _ found)
  have nested := depth_fired stamp rule event
  simp only [payloadMap,triggerEvent,List.flatMap_cons,List.flatMap_nil,List.append_nil,List.mem_cons,
    Prod.mk.injEq,List.not_mem_nil,or_false] at member
  rcases member with ⟨named,is⟩ | ⟨named,is⟩ | ⟨named,is⟩ | ⟨named,is⟩ | ⟨named,is⟩ | ⟨named,is⟩ | ⟨named,is⟩
  · rw [is] at shallow
    simp only [depth,fired,triggerEvent,toValue,Json.Value.depth,Json.membersDepth] at nested shallow deep
    omega
  · rw [is] at equal
    rw [named]
    exact equals_asStr stamp.firedAt wanted equal
  · rw [is] at equal
    rw [named]
    exact equals_asStr stamp.id wanted equal
  · rw [is] at shallow
    exact absurd (Nat.lt_of_lt_of_le deep shallow) (Nat.lt_irrefl _)
  · rw [is] at equal
    rw [named]
    exact equal
  · rw [is] at equal
    rw [named]
    exact equal
  · rw [is] at equal
    rw [named]
    exact equal

/-- A rule that answers the answer of another to a deeply nested event is fed by it. -/
theorem feeds_of_matches (stamp : Stamp) (before after : EventTriggerRule) (event : Event)
    (deep : filterDepth after < depth event) (answered : ruleMatches after (fired stamp before event) = true) :
    feeds before after = true := by
  obtain ⟨tag,passed⟩ := Bool.and_eq_true_iff.mp answered
  have watching := typeTagMatches_fired after.watchEvent _ tag
  unfold feeds
  rw [watching,beq_self_eq_true,Bool.true_and]
  unfold filterDepth at deep
  cases given : after.payloadFilter with
  | none => rfl
  | some filter =>
    simp only [given] at passed deep ⊢
    cases filter with
    | object wanted =>
      have all := List.all_eq_true.mp passed
      apply List.all_eq_true.mpr
      intro member listed
      have held := all member listed
      have bounded := Json.depth_le_members member.1 member.2 wanted listed
      split at held
      · rename_i value found
        exact accepts_of_found stamp before event member.1 member.2 value (Nat.lt_of_le_of_lt bounded deep) found held
      · cases held
    | _ => cases passed

section Acyclic
variable (rules : List EventTriggerRule) (acyclic : Acyclic rules Feeds)
include acyclic

theorem rank_falls (stamp : Stamp) (rule next : EventTriggerRule) (event : Event) (member : rule ∈ rules)
    (listed : next ∈ rules) (deep : deepest rules < depth event)
    (answered : ruleMatches next (fired stamp rule event) = true) :
    rank rules Feeds next < rank rules Feeds rule := by
  have shallow := Nat.lt_of_le_of_lt (filterDepth_le rules next listed) deep
  exact rank_lt rules Feeds acyclic rule next ⟨member,listed,feeds_of_matches stamp rule next event shallow answered⟩

/-- Answers to deeply nested events go along the order of the rules. -/
theorem fired_dies (n : Nat) (stamp : Stamp) (rule : EventTriggerRule) (event : Event) (member : rule ∈ rules)
    (deep : deepest rules < depth event) (ranked : rank rules Feeds rule ≤ n) :
    Dies rules ruleMatches fired n (fired stamp rule event) := by
  induction n generalizing stamp rule event with
  | zero =>
    intro next listed
    apply Bool.eq_false_iff.mpr
    intro answered
    have below := rank_falls rules acyclic stamp rule next event member listed deep answered
    omega
  | succ n ih =>
    intro next listed answered later
    have below := rank_falls rules acyclic stamp rule next event member listed deep answered
    have deeper : deepest rules < depth (fired stamp rule event) := by
      rw [depth_fired]
      omega
    exact ih later next (fired stamp rule event) listed deeper (by omega)

/-- Every cascade ends: until the filters can no longer reach what the answers carry, each
generation is nested deeper, and from there on the order of the rules counts down. -/
theorem event_dies (margin : Nat) (event : Event) (near : deepest rules < depth event + margin) :
    Dies rules ruleMatches fired (rules.length + 1 + margin) event := by
  induction margin generalizing event with
  | zero =>
    intro rule member _ stamp
    exact fired_dies rules acyclic rules.length stamp rule event member near (rank_le rules Feeds rule)
  | succ margin ih =>
    intro rule member _ stamp
    apply ih
    rw [depth_fired]
    omega

theorem all_die (event : Event) : ∃ n, Dies rules ruleMatches fired n event :=
  ⟨_,event_dies rules acyclic (deepest rules + 1) event (by omega)⟩

end Acyclic

/-- The most that one event from outside can lead to. -/
def ceiling (rules : List EventTriggerRule) : Nat :=
  rules.length * share rules.length (rules.length + 1 + (deepest rules + 1))

section Account
variable (rules : List EventTriggerRule) (acyclic : Acyclic rules Feeds)

theorem event_le_ceiling (event : Event) :
    rules.length * weight rules ruleMatches fired (all_die rules acyclic) event ≤ ceiling rules := by
  apply Nat.mul_le_mul_left
  apply share_le
  apply generations_le
  exact event_dies rules acyclic (deepest rules + 1) event (by omega)

/-- What has been published, with all that can still follow from what the registry holds. -/
noncomputable def account (s : State) : Nat :=
  s.published.length + owed rules ruleMatches fired (all_die rules acyclic) s.pending s.checks

def Known (s : State) : Prop := ∀ pair ∈ s.checks, pair.2 ∈ rules

theorem drop_account (s : State) (n : Nat) (stopped : Bool) :
    account rules acyclic { s with pending := s.pending.drop n, stopped := stopped } ≤ account rules acyclic s :=
  Nat.add_le_add_left (owed_drop rules ruleMatches fired (all_die rules acyclic) s.pending s.checks n) _

theorem receive_account (capacity : Nat) (strategy : LagStrategy) (s : State) (idle : s.checks = []) :
    Known rules (receive capacity strategy rules s) ∧
      account rules acyclic (receive capacity strategy rules s) ≤ account rules acyclic s := by
  have known : Known rules s := by
    unfold Known
    rw [idle]
    exact List.forall_mem_nil _
  unfold receive
  split_ifs with lagged
  · cases strategy with
    | error =>
      have lost := drop_account rules acyclic s s.pending.length true
      rw [List.drop_length] at lost
      exact ⟨known,lost⟩
    | skip => exact ⟨known,drop_account rules acyclic s _ s.stopped⟩
    | warn => exact ⟨known,drop_account rules acyclic s _ s.stopped⟩
  · cases queued : s.pending with
    | nil => exact ⟨known,Nat.le_refl _⟩
    | cons event rest =>
      constructor
      · intro pair listed
        obtain ⟨rule,member,is⟩ := List.mem_map.mp listed
        rw [← is]
        exact member
      · unfold account
        rw [owed_open,queued,idle]

theorem check_account (stamp : Stamp) (s : State) (known : Known rules s) :
    Known rules (check stamp s) ∧ account rules acyclic (check stamp s) ≤ account rules acyclic s := by
  unfold check
  cases first : s.checks with
  | nil => exact ⟨known,Nat.le_refl _⟩
  | cons pair rest =>
    obtain ⟨event,rule⟩ := pair
    have member : rule ∈ rules := known (event,rule) (by rw [first]; exact List.mem_cons_self)
    have others : ∀ pair ∈ rest, pair.2 ∈ rules := by
      intro pair listed
      apply known
      rw [first]
      exact List.mem_cons_of_mem _ listed
    have before : account rules acyclic s = s.published.length +
        (owed rules ruleMatches fired (all_die rules acyclic) s.pending rest +
          weight rules ruleMatches fired (all_die rules acyclic) event) := by
      unfold account
      rw [first,owed_check]
    simp only
    split_ifs with answered
    · have paid := answer_paid rules ruleMatches fired (all_die rules acyclic) rule event stamp member answered
      refine ⟨others,?_⟩
      rw [before]
      unfold account
      simp only [owed_push,List.length_append,List.length_singleton]
      omega
    · refine ⟨others,?_⟩
      rw [before]
      unfold account
      simp only
      omega

theorem step_account (capacity : Nat) (strategy : LagStrategy) (s : State) (i : Step) (known : Known rules s) :
    Known rules (step capacity strategy rules s i) ∧
      account rules acyclic (step capacity strategy rules s i) ≤
        account rules acyclic s + (externals [i]).length * ceiling rules := by
  cases i with
  | publish event =>
    have one : (externals [.publish event]).length * ceiling rules = ceiling rules := Nat.one_mul _
    rw [step,one]
    split_ifs
    · exact ⟨known,Nat.le_add_right _ _⟩
    · have cost := event_le_ceiling rules acyclic event
      refine ⟨known,?_⟩
      unfold account
      simp only [owed_push]
      omega
  | receive =>
    rw [step]
    split_ifs
    · exact ⟨known,Nat.le_add_right _ _⟩
    · cases idle : s.checks with
      | nil =>
        obtain ⟨kept,bounded⟩ := receive_account rules acyclic capacity strategy s idle
        exact ⟨kept,Nat.le_trans bounded (Nat.le_add_right _ _)⟩
      | cons pair rest => exact ⟨known,Nat.le_add_right _ _⟩
  | check stamp =>
    obtain ⟨kept,bounded⟩ := check_account rules acyclic stamp s known
    exact ⟨kept,Nat.le_trans bounded (Nat.le_add_right _ _)⟩

theorem externals_cons (i : Step) (rest : List Step) : externals (i :: rest) = externals [i] ++ externals rest := by
  cases i with
  | publish event => rfl
  | receive => rfl
  | check stamp => rfl

theorem run_account (capacity : Nat) (strategy : LagStrategy) (s : State) (steps : List Step) (known : Known rules s) :
    account rules acyclic (run (step capacity strategy rules) s steps) ≤
      account rules acyclic s + (externals steps).length * ceiling rules := by
  induction steps generalizing s with
  | nil => exact Nat.le_add_right _ _
  | cons i rest ih =>
    obtain ⟨kept,bounded⟩ := step_account rules acyclic capacity strategy s i known
    have later := ih (step capacity strategy rules s i) kept
    rw [externals_cons,List.length_append,Nat.add_mul,run,List.foldl_cons]
    exact Nat.le_trans later (by omega)

end Account

/-- In every run the registry publishes no more than so many events for each event that
others publish. -/
theorem published_le (rules : List EventTriggerRule) (acyclic : Acyclic rules Feeds) (capacity : Nat)
    (strategy : LagStrategy) (steps : List Step) :
    (run (step capacity strategy rules) State.start steps).published.length ≤
      (externals steps).length * ceiling rules := by
  have bounded := run_account rules acyclic capacity strategy State.start steps (List.forall_mem_nil _)
  have empty : account rules acyclic State.start = 0 := rfl
  rw [empty,Nat.zero_add] at bounded
  exact Nat.le_trans (Nat.le_add_right _ _) bounded

/-- Cascades are finite when no cycle of rules feeds itself, whatever the events, the
channel and the order in which they are published and received. -/
theorem acyclic_cascades_finite (rules : List EventTriggerRule) (acyclic : Acyclic rules Feeds) (capacity : Nat)
    (strategy : LagStrategy) : CascadesFinite capacity strategy rules := by
  intro events
  refine ⟨events.length * ceiling rules,?_⟩
  intro steps outside
  rw [← outside]
  exact published_le rules acyclic capacity strategy steps

def onStopped : EventTriggerRule := ⟨"on-agent-stopped","agent.stopped",none,some "cleanup-agent"⟩

/-- It answers the answers of the rule before and none of its own. -/
def audit : EventTriggerRule :=
  ⟨"audit","trigger.fired",some (.object [("trigger_id",.string "on-agent-stopped")]),none⟩

theorem acyclic_cascades_finite_audited : Acyclic [onStopped,audit] Feeds ∧ CascadesFinite 1024 .error [onStopped,audit] := by
  have acyclic : Acyclic [onStopped,audit] Feeds := by
    apply acyclic_of_level _ _ (fun rule => if rule.triggerId = "audit" then 0 else 1)
    intro before after edge
    obtain ⟨first,second,fed⟩ := edge
    simp only [List.mem_cons,List.not_mem_nil,or_false] at first second
    rcases first with rfl | rfl <;> rcases second with rfl | rfl <;> revert fed <;> unfold Feeds <;> decide
  exact ⟨acyclic,acyclic_cascades_finite [onStopped,audit] acyclic 1024 .error⟩

section Relay
variable (capacity : Nat) (strategy : LagStrategy) (rule : EventTriggerRule)

/-- The registry takes one event and checks its one rule, again and again. -/
def rounds (stamps : Nat → Stamp) : Nat → List Step
  | 0 => []
  | n + 1 => .receive :: .check (stamps n) :: rounds stamps n

theorem externals_rounds (stamps : Nat → Stamp) (n : Nat) : externals (rounds stamps n) = [] := by
  induction n with
  | zero => rfl
  | succ n ih => exact ih

/-- A rule without a filter that watches what triggers fire answers its own answer each
time; the channel never holds more than that one event. -/
theorem relay_rounds (room : 0 < capacity) (watching : rule.watchEvent = "trigger.fired")
    (unfiltered : rule.payloadFilter = none) (stamps : Nat → Stamp) (n : Nat) (trigger : Json.Value) (published : List Event) :
    (run (step capacity strategy [rule]) ⟨[.triggerFired trigger],[],false,published⟩ (rounds stamps n)).published.length =
      published.length + n := by
  induction n generalizing trigger published with
  | zero => rfl
  | succ n ih =>
    have answered : ruleMatches rule (.triggerFired trigger) = true := by
      unfold ruleMatches typeTagMatches
      rw [unfiltered,watching]
      rfl
    have received : step capacity strategy [rule] ⟨[.triggerFired trigger],[],false,published⟩ .receive =
        ⟨[],[(.triggerFired trigger,rule)],false,published⟩ := by
      have fits : ¬capacity < [Event.triggerFired trigger].length := by
        rw [List.length_singleton]
        omega
      simp only [step,receive,if_neg fits,Bool.false_eq_true,if_false,List.map_cons,List.map_nil]
    have checked : step capacity strategy [rule] ⟨[],[(.triggerFired trigger,rule)],false,published⟩ (.check (stamps n)) =
        ⟨[fired (stamps n) rule (.triggerFired trigger)],[],false,
          published ++ [fired (stamps n) rule (.triggerFired trigger)]⟩ := by
      simp only [step,check,if_pos answered,List.nil_append]
    rw [rounds,run,List.foldl_cons,List.foldl_cons,received,checked]
    have later := ih (triggerEvent (stamps n) rule.triggerId (toValue (.triggerFired trigger)) rule.targetAgent)
      (published ++ [fired (stamps n) rule (.triggerFired trigger)])
    rw [run] at later
    refine later.trans ?_
    rw [List.length_append,List.length_singleton]
    omega

/-- One trigger event from outside is enough to set such a rule off without end. -/
theorem relay_unbounded (room : 0 < capacity) (watching : rule.watchEvent = "trigger.fired")
    (unfiltered : rule.payloadFilter = none) (stamps : Nat → Stamp) (trigger : Json.Value) (bound : Nat) :
    ∃ steps, externals steps = [.triggerFired trigger] ∧
      bound < (run (step capacity strategy [rule]) State.start steps).published.length := by
  have count := relay_rounds capacity strategy rule room watching unfiltered stamps (bound + 1) trigger []
  refine ⟨.publish (.triggerFired trigger) :: rounds stamps (bound + 1),?_,?_⟩
  · rw [externals,externals_rounds]
  · have reached : run (step capacity strategy [rule]) State.start
        (.publish (.triggerFired trigger) :: rounds stamps (bound + 1)) =
        run (step capacity strategy [rule]) ⟨[.triggerFired trigger],[],false,[]⟩ (rounds stamps (bound + 1)) := rfl
    rw [reached,count,List.length_nil]
    omega

end Relay

def relay : EventTriggerRule := ⟨"relay","trigger.fired",none,none⟩

/-- The event of a cron trigger, which comes from outside the registry. -/
def cronTrigger : Json.Value :=
  .object [("fired_at",.string "2026-01-01T00:00:00Z"),("id",.string "8f14e45f-ceea-467f-9575-1b2a3c4d5e6f"),
    ("payload",.null),("target_agent",.null),("trigger_id",.string "daily-job"),("trigger_type",.string "Cron")]

theorem relay_cascade_endless : ¬CascadesFinite 1024 .error [relay] := by
  intro finite
  obtain ⟨bound,bounded⟩ := finite [.triggerFired cronTrigger]
  obtain ⟨steps,outside,more⟩ := relay_unbounded 1024 .error relay (by decide) rfl rfl
    (fun n => ⟨toString n,"2026-01-01T00:00:01Z"⟩) cronTrigger bound
  exact absurd more (Nat.not_lt_of_le (bounded steps outside))

end ClawKernel.Runtime.TriggerRegistry
