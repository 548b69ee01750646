import ClawKernel.Lib.Broadcast
import ClawKernel.Runtime.TriggerRegistry
import ClawKernel.Server.Outbound
import ClawKernel.Server.Triggers
import Mathlib.Data.Nat.Log

/-! The loops that read the event bus as long as the daemon runs: the registry of event
triggers, the dispatcher of fired triggers, the listeners of `trigger.add_event` and the
forwarders of the sessions. Each of them ends at the first error its receiver gives.
-/
namespace ClawKernel.Server.Listeners
open Lib Lib.Runs Lib.Broadcast EventTrigger
open Lib.LengthPrefix (be32)
open Outbound (eventNotification toVec)
open Runtime.TriggerRegistry (EventTriggerRule LagStrategy Stamp fired ruleMatches)
open Triggers (TriggerAddEventParams eventReaction)

structure EventBus where
  capacity : Nat
  lagStrategy : LagStrategy

def channelCapacity : Nat := 1024

def EventBus.new : EventBus := ⟨channelCapacity,.error⟩

def EventBus.withLagStrategy (strategy : LagStrategy) : EventBus := ⟨channelCapacity,strategy⟩

def EventBus.withCapacity (capacity : Nat) : EventBus := ⟨capacity,.error⟩

/-- `broadcast::channel` rounds its capacity up to a power of two. -/
def EventBus.slots (bus : EventBus) : Nat := 2 ^ Nat.clog 2 bus.capacity

theorem slots_new : EventBus.new.slots = 1024 :=
  congrArg (2 ^ ·) (Nat.clog_pow 2 10 (by decide))

/-- `recv` goes on after a loss. -/
def EventBus.tolerant (bus : EventBus) : Bool :=
  match bus.lagStrategy with
  | .error => false
  | .skip => true
  | .warn => true

inductive EventFilter where
  | all
  | agentLifecycle
  | toolCalls
  | llmRequests
  | memoryEvents
  | a2a
  | shutdownOnly
  | custom (matching : Event → Bool)

def EventFilter.matches (filter : EventFilter) (event : Event) : Bool :=
  match filter, event with
  | .all, _ => true
  | .agentLifecycle, .agentStarted _ => true
  | .agentLifecycle, .agentStopped .. => true
  | .toolCalls, .toolCalled .. => true
  | .toolCalls, .toolResult .. => true
  | .llmRequests, .llmRequestStarted .. => true
  | .llmRequests, .llmRequestCompleted .. => true
  | .memoryEvents, .contextWindowApproachingLimit .. => true
  | .memoryEvents, .memoryArchiveComplete .. => true
  | .a2a, .a2a _ => true
  | .shutdownOnly, .shutdown => true
  | .custom matching, event => matching event
  | _, _ => false

/-- `EventTriggerRegistry::run`: one job for each rule that an event is checked against. It takes
the registry by value, so that nothing adds or removes a rule while it runs. -/
def eventTriggerRegistry (rules : List EventTriggerRule) : Listener Event where
  Job := Event × EventTriggerRule
  Input := Stamp
  accepts _ := true
  jobs event := rules.map (fun rule => (event,rule))
  work check stamp := ⟨if ruleMatches check.2 check.1 then [fired stamp check.2 check.1] else [],[],true⟩

inductive DispatchJob where
  | dispatch (ev : Json.Value)
  | injectMessage (agentId message : String)

/-- The agents that are registered, and what `steer` publishes; its error is only logged. -/
structure Answer where
  agentIds : List String
  published : List Event

def dispatchMessage (ev : Json.Value) : String :=
  (((ev.get "payload").bind (Json.Value.get "message")).bind Json.Value.asStr).getD "triggered"

def targets (ev : Json.Value) (agentIds : List String) : List String :=
  match (ev.get "target_agent").bind Json.Value.asStr with
  | some agentId => [agentId]
  | none => agentIds

/-- `TriggerDispatcher::run`. -/
def triggerDispatcher : Listener Event where
  Job := DispatchJob
  Input := Answer
  accepts _ := true
  jobs
    | .triggerFired ev => [.dispatch ev]
    | _ => []
  work
    | .dispatch ev, answer => ⟨[],(targets ev answer.agentIds).map (.injectMessage · (dispatchMessage ev)),true⟩
    | .injectMessage _ _, answer => ⟨answer.published,[],true⟩

/-- The listener of `handle_trigger_add_event`: the job is the message that is injected. -/
def addEventListener (isMatch : String → Bool) (params : TriggerAddEventParams) : Listener Event where
  Job := String
  Input := List Event
  accepts _ := true
  jobs event := (eventReaction isMatch params event).toList
  work _ published := ⟨published,[],true⟩

/-- `spawn_event_forwarder`: two writes for each event, and the socket takes them or not. -/
def eventForwarder (filter : EventFilter) : Listener Event where
  Job := LengthPrefix.Bytes
  Input := Bool
  accepts := filter.matches
  jobs event :=
    let payload := toVec (eventNotification (toValue event)).json
    [be32 payload.length,payload]
  work _ written := ⟨[],[],written⟩

inductive Loop where
  | eventTriggerRegistry (rules : List EventTriggerRule)
  | triggerDispatcher
  | addEventListener (isMatch : String → Bool) (params : TriggerAddEventParams)
  | eventForwarder (filter : EventFilter)

def Loop.listener : Loop → Listener Event
  | .eventTriggerRegistry rules => Listeners.eventTriggerRegistry rules
  | .triggerDispatcher => Listeners.triggerDispatcher
  | .addEventListener isMatch params => Listeners.addEventListener isMatch params
  | .eventForwarder filter => Listeners.eventForwarder filter

/-- It listens, and what can end it besides the bus is a socket. -/
structure Outlives (loop : Loop) (s : State loop.listener) : Prop where
  listens : Listens s
  socket : s.failed = true → ∃ filter, loop = .eventForwarder filter

theorem fails_only_forwarding (loop : Loop) (others : ¬∃ filter, loop = .eventForwarder filter) (job : loop.listener.Job)
    (input : loop.listener.Input) : (loop.listener.work job input).goesOn = true := by
  cases loop with
  | eventTriggerRegistry rules => rfl
  | triggerDispatcher =>
    cases job with
    | dispatch ev => rfl
    | injectMessage agentId message => rfl
  | addEventListener isMatch params => rfl
  | eventForwarder filter => exact absurd ⟨filter,rfl⟩ others

theorem outlives_iff (loop : Loop) (bus : EventBus) (c : Channel Event) (turns : List (Turn loop.listener)) :
    Always (step bus.slots bus.tolerant) (Outlives loop) (subscribe loop.listener c) turns ↔
      Always (step bus.slots bus.tolerant) Listens (subscribe loop.listener c) turns := by
  apply always_congr (step bus.slots bus.tolerant) _ _ (fun s => s.failed = true → ∃ filter, loop = .eventForwarder filter)
  · intro s turn sound
    by_cases forwarder : ∃ filter, loop = .eventForwarder filter
    · exact fun _ => forwarder
    · have none : s.failed = false := Bool.eq_false_of_not_eq_true (fun failed => forwarder (sound failed))
      rw [step_failed bus.slots bus.tolerant (fails_only_forwarding loop forwarder) s turn none]
      exact fun clash => absurd clash Bool.false_ne_true
  · exact fun s sound => ⟨fun outlives => outlives.listens,fun listens => ⟨listens,sound⟩⟩
  · exact fun clash => absurd clash Bool.false_ne_true

/-- A loop outlives the bursts and goes on reading in a run exactly if a loss is no error to
its receiver, or it never falls behind by more than the bus keeps. -/
theorem listeners_outlive_bursts_iff (loop : Loop) (bus : EventBus) (c : Channel Event)
    (turns : List (Turn loop.listener)) :
    (Always (step bus.slots bus.tolerant) (Outlives loop) (subscribe loop.listener c) turns ∧
        Along (step bus.slots bus.tolerant) (Proceeds bus.slots bus.tolerant) (subscribe loop.listener c) turns) ↔
      Along (step bus.slots bus.tolerant) (KeepsUp bus.slots bus.tolerant) (subscribe loop.listener c) turns := by
  rw [outlives_iff]
  exact listens_iff bus.slots bus.tolerant c turns

/-- A burst of 1025 events between two reads of a bus made by `EventBus::new`. -/
theorem burst_ends_registry :
    ¬(Always (step EventBus.new.slots EventBus.new.tolerant) (Outlives (.eventTriggerRegistry []))
          (subscribe (Loop.eventTriggerRegistry []).listener ⟨[],false⟩)
          (List.replicate 1025 (.publish .shutdown) ++ [.poll]) ∧
        Along (step EventBus.new.slots EventBus.new.tolerant) (Proceeds EventBus.new.slots EventBus.new.tolerant)
          (subscribe (Loop.eventTriggerRegistry []).listener ⟨[],false⟩)
          (List.replicate 1025 (.publish .shutdown) ++ [.poll])) :=
  fun both => burst_stops (l := (Loop.eventTriggerRegistry []).listener) EventBus.new.slots ⟨[],false⟩ rfl Event.shutdown 1025
    (slots_new ▸ Nat.lt_succ_self 1024) both.2

end ClawKernel.Server.Listeners
