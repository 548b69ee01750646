import Mathlib.Data.Nat.Notation

/-! The agent loop's state machine: the transition table and its lookup.
-/
namespace ClawKernel.Loop.States

inductive AgentState where
  | idle
  | running
  | awaitingLLM
  | toolExecuting
  | paused
  | completed
  | error
  deriving DecidableEq, Repr

inductive StateEvent where
  | start
  | llmRequestSent
  | llmResponseReceived
  | toolsRequired
  | toolsCompleted
  | userInterrupt
  | stopConditionMet
  | error
  | reset
  deriving DecidableEq, Repr

inductive TransitionResult where
  | success (new : AgentState)
  | invalid (source : AgentState) (event : StateEvent) (allowed : List StateEvent)
  deriving DecidableEq, Repr

def buildTransitionTable : List ((AgentState × StateEvent) × AgentState) :=
  [((.idle,.start),.running),
   ((.idle,.reset),.idle),
   ((.running,.llmRequestSent),.awaitingLLM),
   ((.running,.stopConditionMet),.completed),
   ((.running,.error),.error),
   ((.running,.userInterrupt),.paused),
   ((.awaitingLLM,.llmResponseReceived),.running),
   ((.awaitingLLM,.toolsRequired),.toolExecuting),
   ((.awaitingLLM,.error),.error),
   ((.awaitingLLM,.userInterrupt),.paused),
   ((.toolExecuting,.toolsCompleted),.running),
   ((.toolExecuting,.error),.error),
   ((.toolExecuting,.userInterrupt),.paused),
   ((.paused,.start),.running),
   ((.paused,.reset),.idle),
   ((.completed,.reset),.idle),
   ((.error,.reset),.idle)]

def allowedEvents (source : AgentState) : List StateEvent :=
  (buildTransitionTable.filter (fun entry => entry.1.1 = source)).map (fun entry => entry.1.2)

structure StateMachine where
  current : AgentState
  deriving DecidableEq, Repr

namespace StateMachine

def new : StateMachine := ⟨.idle⟩

def transition (machine : StateMachine) (event : StateEvent) : StateMachine × TransitionResult :=
  match buildTransitionTable.lookup (machine.current,event) with
  | some state => (⟨state⟩,.success state)
  | none => (machine,.invalid machine.current event (allowedEvents machine.current))

end StateMachine

end ClawKernel.Loop.States
