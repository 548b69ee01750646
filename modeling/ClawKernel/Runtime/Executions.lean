import ClawKernel.Lib.Tables
import ClawKernel.Runtime.OneShot

/-! How often a `TokioScheduler` starts a handler while tasks are scheduled, paused and resumed:
the calls and the tasks they spawn take their steps in any order.
-/
namespace ClawKernel.Runtime.Executions
open Lib.Runs Lib.Tables TokioScheduler
open OneShot (put_states)

/-- `ScheduleError::TaskNotFound`. -/
structure TaskNotFound where
  id : String
  deriving DecidableEq, Repr

/-- Where a `pause` or `resume` call stands; the number of the task it has switched stands
for the `()` it returns. -/
inductive SwitchPhase where
  | entered
  | found (n : Nat)
  | marked (n : Nat)
  | returned (result : Except TaskNotFound Nat)

inductive Call where
  | schedule (config : TaskConfig) (phase : SchedulePhase)
  | switch (id : String) (paused : Bool) (phase : SwitchPhase)

inductive Request where
  | schedule (config : TaskConfig)
  | pause (id : String)
  | resume (id : String)
  deriving DecidableEq, Repr

def Request.call : Request → Call
  | .schedule config => .schedule config .entered
  | .pause id => .switch id true .entered
  | .resume id => .switch id false .entered

def setPaused (s : Scheduler) (n : Nat) (paused : Bool) : Scheduler :=
  match s.states n with
  | none => s
  | some state => s.put n { state with isPaused := paused }

def showPaused (s : Scheduler) (n : Nat) (paused : Bool) : Scheduler :=
  match s.states n with
  | none => s
  | some state => s.put n { state with stats := { state.stats with isPaused := paused } }

/-- `pause` and `resume`: the flag the task reads, then the one in its statistics. -/
def switchTurn (s : Scheduler) (id : String) (paused : Bool) : SwitchPhase → Scheduler × SwitchPhase
  | .entered =>
    match s.tasks id with
    | none => (s,.returned (.error ⟨id⟩))
    | some n => (s,.found n)
  | .found n => (setPaused s n paused,.marked n)
  | .marked n => (showPaused s n paused,.returned (.ok n))
  | .returned result => (s,.returned result)

structure Service where
  scheduler : Scheduler
  calls : Table Nat Call

inductive Turn where
  | enter (n : Nat) (request : Request)
  | advance (n : Nat)
  | task (n : Nat)
  | handler (n : Nat) (panics : Bool)
  | tick (elapsed : Nat)
  deriving DecidableEq, Repr

section Service
variable {Schedule : Type} (fromStr : String → Except String Schedule) (upcoming : Schedule → Nat → Option Nat)

def callTurn (s : Scheduler) (n : Nat) : Call → Scheduler × Call
  | .schedule config phase =>
    let after := scheduleTurn fromStr upcoming s n config phase
    (after.1,.schedule config after.2)
  | .switch id paused phase =>
    let after := switchTurn s id paused phase
    (after.1,.switch id paused after.2)

def step (s : Service) : Turn → Service
  | .enter n request => if n ∈ s.calls then s else { s with calls := s.calls.insert n request.call }
  | .advance n =>
    match s.calls.lookup n with
    | none => s
    | some call => ⟨(callTurn fromStr upcoming s.scheduler n call).1,
        s.calls.insert n (callTurn fromStr upcoming s.scheduler n call).2⟩
  | .task n => { s with scheduler := taskTurn fromStr upcoming s.scheduler n }
  | .handler n panics => { s with scheduler := handlerEnds s.scheduler n panics }
  | .tick elapsed => { s with scheduler := { s.scheduler with now := s.scheduler.now + elapsed } }

/-- `TokioScheduler::new`. -/
def start (now : Nat) : Service := ⟨⟨now,false,fun _ => none,fun _ => none⟩,∅⟩

/-- In `execute_task`, past the pause flag. -/
def InProgress : Phase → Prop
  | .counting => True
  | .starting => True
  | .handling => True
  | .recording => True
  | _ => False

structure Limited (state : TaskState) : Prop where
  atMost : ∀ max, state.config.maxExecutions = some max → state.starts ≤ max
  counts : ¬InProgress state.phase → state.stats.executionCount = state.starts ∧
    state.stats.successCount + state.stats.failureCount = state.stats.executionCount

def AllLimited (s : Service) : Prop :=
  ∀ n state, s.scheduler.states n = some state → Limited state

/-- No `resume` of this id is under way. -/
def Settled (id : String) (s : Service) : Prop :=
  ∀ k phase, s.calls.lookup k = some (.switch id false phase) → ∃ result, phase = .returned result

/-- After a `pause` that has returned, and until the next `resume` of its id is called, an
execution that the task begins does not come to its handler. -/
def HeldBack (s : Service) (turns : List Turn) : Prop :=
  ∀ before k id mid n rest, turns = before ++ Turn.enter k (.pause id) :: (mid ++ Turn.task n :: rest) →
    k ∉ (run (step fromStr upcoming) s before).calls → Settled id (run (step fromStr upcoming) s before) →
    (∀ j, Turn.enter j (.resume id) ∉ mid) →
    (run (step fromStr upcoming) s (before ++ Turn.enter k (.pause id) :: mid)).calls.lookup k =
      some (.switch id true (.returned (.ok n))) →
    ∀ state, (run (step fromStr upcoming) s (before ++ Turn.enter k (.pause id) :: mid)).scheduler.states n = some state →
      state.phase = .entered →
      ∃ after, (run (step fromStr upcoming) s
          (before ++ Turn.enter k (.pause id) :: (mid ++ [Turn.task n]))).scheduler.states n = some after ∧
        ¬InProgress after.phase ∧ after.starts = state.starts

/-- No handler panics. -/
def NoPanic (s : Service) (turn : Turn) : Prop :=
  ∀ n state, turn = .handler n true → s.scheduler.states n = some state → state.phase ≠ .handling

/-- A start that is not yet counted as a success or a failure. -/
def underWay : Phase → Nat
  | .handling => 1
  | .recording => 1
  | _ => 0

/-- The counters are right where the task stands, also where it has ended if `all` says so:
a panic ends the task with a start that is never counted. -/
structure Counted (all : Prop) (state : TaskState) : Prop where
  same : state.stats.executionCount = state.starts
  atMost : ∀ max, state.config.maxExecutions = some max → state.starts ≤ max
  starting : state.phase = .starting → ∀ max, state.config.maxExecutions = some max → state.starts < max
  results : all ∨ state.phase ≠ .ended →
    state.stats.successCount + state.stats.failureCount + underWay state.phase = state.stats.executionCount

/-- The task goes to a phase out of `execute_task`, its counters as they were. -/
def Idles (state after : TaskState) : Prop :=
  ∃ phase wakes, ¬InProgress phase ∧ after = { state with phase := phase, wakes := wakes }

theorem nextOccurrence_idles (state : TaskState) (expr : String) (now : Nat) :
    Idles state (state.nextOccurrence fromStr upcoming expr now) := by
  unfold TaskState.nextOccurrence
  split
  · exact ⟨.ended,state.wakes,id,rfl⟩
  · split
    · exact ⟨.ended,state.wakes,id,rfl⟩
    · exact ⟨.sleeping,_,id,rfl⟩

theorem left_idles (state : TaskState) (now : Nat) : Idles state (state.left fromStr upcoming now) := by
  unfold TaskState.left
  split
  · exact ⟨.sleeping,state.wakes,id,rfl⟩
  · exact nextOccurrence_idles fromStr upcoming state _ now
  · exact ⟨.removing,state.wakes,id,rfl⟩
  · exact ⟨.removing,state.wakes,id,rfl⟩

theorem spawned_idles (state : TaskState) (now : Nat) : Idles state (state.spawned fromStr upcoming now) := by
  unfold TaskState.spawned
  split
  · exact ⟨.ended,state.wakes,id,rfl⟩
  · exact ⟨.sleeping,_,id,rfl⟩
  · exact nextOccurrence_idles fromStr upcoming state _ now
  · split
    · exact ⟨.sleeping,_,id,rfl⟩
    · exact ⟨.woken,state.wakes,id,rfl⟩
  · exact ⟨.entered,state.wakes,id,rfl⟩

theorem wake_idles (state : TaskState) : Idles state state.wake := by
  unfold TaskState.wake
  split
  · exact ⟨.woken,_,id,rfl⟩
  · exact ⟨.woken,state.wakes,id,rfl⟩

theorem looked_idles (state : TaskState) (listed : Bool) : Idles state (state.looked listed) := by
  unfold TaskState.looked
  split
  · exact ⟨.ended,state.wakes,id,rfl⟩
  · split
    · exact ⟨.limit,state.wakes,id,rfl⟩
    · exact ⟨.limit,state.wakes,id,rfl⟩
    · exact ⟨.entered,state.wakes,id,rfl⟩

theorem underWay_idle (phase : Phase) (idle : ¬InProgress phase) : underWay phase = 0 ∧ phase ≠ .starting := by
  cases phase with
  | starting => exact absurd trivial idle
  | handling => exact absurd trivial idle
  | recording => exact absurd trivial idle
  | _ => exact ⟨rfl,Phase.noConfusion⟩

/-- A task whose starts are all counted may idle. -/
theorem idles_counted (state after : TaskState) (idles : Idles state after)
    (same : state.stats.executionCount = state.starts)
    (atMost : ∀ max, state.config.maxExecutions = some max → state.starts ≤ max)
    (results : state.stats.successCount + state.stats.failureCount = state.stats.executionCount) (all : Prop) :
    Counted all after := by
  obtain ⟨phase,wakes,idle,rfl⟩ := idles
  obtain ⟨none,apart⟩ := underWay_idle phase idle
  refine ⟨same,atMost,fun clash => absurd clash apart,fun _ => ?_⟩
  change state.stats.successCount + state.stats.failureCount + underWay phase = state.stats.executionCount
  rw [none]
  exact results

theorem below_of_exhausted (state : TaskState) (left : ¬state.exhausted = true) (max : Nat)
    (limit : state.config.maxExecutions = some max) : state.stats.executionCount < max := by
  unfold TaskState.exhausted at left
  rw [limit] at left
  exact Nat.lt_of_not_le (fun reached => left (decide_eq_true reached))

theorem turn_counted (state : TaskState) (now : Nat) (listed : Bool) (all : Prop) (counted : Counted all state) :
    Counted all (state.turn fromStr upcoming now listed) := by
  obtain ⟨same,atMost,starting,results⟩ := counted
  have idles := fun after idle done => idles_counted state after idle same atMost done all
  have leaves := left_idles fromStr upcoming state now
  unfold TaskState.turn
  cases phase : state.phase with
  | begun =>
    rw [phase] at results
    exact idles _ (spawned_idles fromStr upcoming state now) (results (Or.inr Phase.noConfusion))
  | sleeping =>
    rw [phase] at results
    dsimp only
    split
    · exact idles _ (wake_idles state) (results (Or.inr Phase.noConfusion))
    · exact idles _ ⟨.sleeping,state.wakes,id,by rw [← phase]⟩ (results (Or.inr Phase.noConfusion))
  | woken =>
    rw [phase] at results
    exact idles _ (looked_idles state listed) (results (Or.inr Phase.noConfusion))
  | limit =>
    rw [phase] at results
    dsimp only
    split
    · exact idles _ ⟨.removing,state.wakes,id,rfl⟩ (results (Or.inr Phase.noConfusion))
    · exact idles _ ⟨.entered,state.wakes,id,rfl⟩ (results (Or.inr Phase.noConfusion))
  | entered =>
    rw [phase] at results
    dsimp only
    split
    · exact idles _ leaves (results (Or.inr Phase.noConfusion))
    · split
      · exact ⟨same,atMost,Phase.noConfusion,fun _ => results (Or.inr Phase.noConfusion)⟩
      · rename_i unlimited
        refine ⟨same,atMost,?_,fun _ => results (Or.inr Phase.noConfusion)⟩
        intro _ max limit
        change state.config.maxExecutions = some max at limit
        rw [limit] at unlimited
        exact absurd rfl unlimited
  | counting =>
    rw [phase] at results
    dsimp only
    split
    · exact idles _ leaves (results (Or.inr Phase.noConfusion))
    · rename_i left
      refine ⟨same,atMost,?_,fun _ => results (Or.inr Phase.noConfusion)⟩
      intro _ max limit
      have below := below_of_exhausted state left max limit
      rw [same] at below
      exact below
  | starting =>
    rw [phase] at results
    exact ⟨congrArg Nat.succ same,starting phase,Phase.noConfusion,
      fun _ => congrArg Nat.succ (results (Or.inr Phase.noConfusion))⟩
  | handling => exact ⟨same,atMost,starting,results⟩
  | recording =>
    rw [phase] at results
    have recorded : state.stats.successCount + state.stats.failureCount + 1 = state.stats.executionCount :=
      results (Or.inr Phase.noConfusion)
    apply idles_counted { state with stats := { state.stats with successCount := state.stats.successCount + 1 } } _
      (left_idles fromStr upcoming _ now) same atMost _ all
    change state.stats.successCount + 1 + state.stats.failureCount = state.stats.executionCount
    omega
  | removing =>
    rw [phase] at results
    exact idles _ ⟨.ended,state.wakes,id,rfl⟩ (results (Or.inr Phase.noConfusion))
  | ended => exact ⟨same,atMost,starting,results⟩

/-- How a task came to its state in a step. -/
inductive Moved (s : Service) (turn : Turn) (n : Nat) : TaskState → Prop
  | stays (state : TaskState) (known : s.scheduler.states n = some state) : Moved s turn n state
  | new (config : TaskConfig) (turned : turn = .advance n) (call : s.calls.lookup n = some (.schedule config .fresh)) :
      Moved s turn n (.new config)
  | stored (state : TaskState) (known : s.scheduler.states n = some state) :
      Moved s turn n { state with handle := true }
  | switched (state : TaskState) (known : s.scheduler.states n = some state) (k : Nat) (id : String) (paused : Bool)
      (call : s.calls.lookup k = some (.switch id paused (.found n))) : Moved s turn n { state with isPaused := paused }
  | shown (state : TaskState) (known : s.scheduler.states n = some state) (paused : Bool) :
      Moved s turn n { state with stats := { state.stats with isPaused := paused } }
  | task (state : TaskState) (known : s.scheduler.states n = some state) :
      Moved s turn n (state.turn fromStr upcoming s.scheduler.now (s.scheduler.tasks state.config.id).isSome)
  | handler (state : TaskState) (known : s.scheduler.states n = some state) (panics : Bool)
      (turned : turn = .handler n panics) (handling : state.phase = .handling) :
      Moved s turn n { state with phase := if panics then .ended else .recording }

/-- What a step does to the states of the tasks. -/
def Effect (s : Service) (turn : Turn) (states : Nat → Option TaskState) : Prop :=
  states = s.scheduler.states ∨
    ∃ n state, Moved fromStr upcoming s turn n state ∧ states = Function.update s.scheduler.states n (some state)

theorem call_effect (s : Service) (n : Nat) (call : Call) (found : s.calls.lookup n = some call) :
    Effect fromStr upcoming s (.advance n) (callTurn fromStr upcoming s.scheduler n call).1.states := by
  cases call with
  | schedule config phase =>
    cases phase with
    | entered =>
      simp only [callTurn,scheduleTurn]
      split <;> exact Or.inl rfl
    | running =>
      simp only [callTurn,scheduleTurn]
      split <;> exact Or.inl rfl
    | fresh =>
      simp only [callTurn,scheduleTurn]
      split
      · exact Or.inl rfl
      · exact Or.inr ⟨n,_,.new config rfl found,rfl⟩
    | spawned =>
      simp only [callTurn,scheduleTurn]
      split
      · exact Or.inl rfl
      · exact Or.inr ⟨n,_,.stored _ ‹_›,rfl⟩
    | stored => exact Or.inl rfl
    | returned result => exact Or.inl rfl
  | switch id paused phase =>
    cases phase with
    | entered =>
      simp only [callTurn,switchTurn]
      split <;> exact Or.inl rfl
    | found other =>
      simp only [callTurn,switchTurn,setPaused]
      split
      · exact Or.inl rfl
      · exact Or.inr ⟨other,_,.switched _ ‹_› n id paused found,rfl⟩
    | marked other =>
      simp only [callTurn,switchTurn,showPaused]
      split
      · exact Or.inl rfl
      · exact Or.inr ⟨other,_,.shown _ ‹_› paused,rfl⟩
    | returned result => exact Or.inl rfl

theorem step_effect (s : Service) (turn : Turn) :
    Effect fromStr upcoming s turn (step fromStr upcoming s turn).scheduler.states := by
  cases turn with
  | enter n request =>
    rw [step]
    split <;> exact Or.inl rfl
  | advance n =>
    rw [step]
    split
    · exact Or.inl rfl
    · exact call_effect fromStr upcoming s n _ ‹_›
  | task n =>
    simp only [step,taskTurn]
    split
    · exact Or.inl rfl
    · split
      · exact Or.inr ⟨n,_,.task _ ‹_›,rfl⟩
      · exact Or.inr ⟨n,_,.task _ ‹_›,rfl⟩
  | handler n panics =>
    simp only [step,handlerEnds]
    split
    · exact Or.inl rfl
    · split
      · exact Or.inr ⟨n,_,.handler _ ‹_› panics rfl ‹_›,rfl⟩
      · exact Or.inl rfl
  | tick elapsed => exact Or.inl rfl

theorem moved (s : Service) (turn : Turn) (n : Nat) (after : TaskState)
    (known : (step fromStr upcoming s turn).scheduler.states n = some after) : Moved fromStr upcoming s turn n after := by
  rcases step_effect fromStr upcoming s turn with same | ⟨k,state,way,put⟩
  · rw [same] at known
    exact .stays after known
  · rw [put,Function.update_apply] at known
    split at known
    · rename_i same
      cases known
      rw [same]
      exact way
    · exact .stays after known

theorem moved_counted (s : Service) (turn : Turn) (n : Nat) (after : TaskState) (all : Prop)
    (moved : Moved fromStr upcoming s turn n after) (calm : all → NoPanic s turn)
    (counted : ∀ state, s.scheduler.states n = some state → Counted all state) : Counted all after := by
  cases moved with
  | stays _ known => exact counted after known
  | new config turned call => exact ⟨rfl,fun max _ => Nat.zero_le max,Phase.noConfusion,fun _ => rfl⟩
  | stored state known =>
    have before := counted state known
    exact ⟨before.same,before.atMost,before.starting,before.results⟩
  | switched state known k id paused call =>
    have before := counted state known
    exact ⟨before.same,before.atMost,before.starting,before.results⟩
  | shown state known paused =>
    have before := counted state known
    exact ⟨before.same,before.atMost,before.starting,before.results⟩
  | task state known => exact turn_counted fromStr upcoming state _ _ all (counted state known)
  | handler state known panics turned handling =>
    have before := counted state known
    have results := before.results
    rw [handling] at results
    cases panics with
    | false =>
      exact ⟨before.same,before.atMost,Phase.noConfusion,fun _ => results (Or.inr Phase.noConfusion)⟩
    | true =>
      refine ⟨before.same,before.atMost,Phase.noConfusion,?_⟩
      rintro (every | clash)
      · exact absurd handling (calm every n state turned known)
      · exact absurd rfl clash

/-- The counters of every task are right, of those that have ended if `all` says so. -/
def AllCounted (all : Prop) (s : Service) : Prop :=
  ∀ n state, s.scheduler.states n = some state → Counted all state

theorem step_counted (s : Service) (turn : Turn) (counted : AllCounted False s) :
    AllCounted False (step fromStr upcoming s turn) :=
  fun n after known => moved_counted fromStr upcoming s turn n after False
    (moved fromStr upcoming s turn n after known) False.elim (counted n)

theorem limited_iff (s : Service) (counted : AllCounted False s) : AllLimited s ↔ AllCounted True s := by
  constructor
  · intro limited n state known
    have before := counted n state known
    refine ⟨before.same,before.atMost,before.starting,fun _ => ?_⟩
    by_cases ended : state.phase = .ended
    · have counts := (limited n state known).counts (by rw [ended]; exact id)
      rw [ended]
      exact counts.2
    · exact before.results (Or.inr ended)
  · intro counted n state known
    have now := counted n state known
    refine ⟨now.atMost,fun idle => ⟨now.same,?_⟩⟩
    have results := now.results (Or.inl trivial)
    rw [(underWay_idle state.phase idle).1] at results
    exact results

theorem step_limited_iff (s : Service) (turn : Turn) (counted : AllCounted False s) (limited : AllCounted True s) :
    AllCounted True (step fromStr upcoming s turn) ↔ NoPanic s turn := by
  constructor
  · rintro after n state rfl known handling
    have ends : (step fromStr upcoming s (.handler n true)).scheduler.states n = some { state with phase := .ended } := by
      have reads := (OneShot.handlerEnds_reads n s.scheduler state true known).1
      rw [if_pos handling] at reads
      exact reads
    have before := (counted n state known).results (Or.inr (by rw [handling]; exact Phase.noConfusion))
    have lost := (after n _ ends).results (Or.inl trivial)
    rw [handling] at before
    exact absurd (before.trans lost.symm) (Nat.succ_ne_self _)
  · exact fun calm n after known => moved_counted fromStr upcoming s turn n after True
      (moved fromStr upcoming s turn n after known) (fun _ => calm) (limited n)

/-! A task that is paused stays so until the next `resume` of its id. -/

/-- The number stands for a task of this id. -/
def Names (s : Scheduler) (n : Nat) (id : String) : Prop :=
  ∃ state, s.states n = some state ∧ state.config.id = id

def Scheduled (s : Scheduler) (n : Nat) (config : TaskConfig) : SchedulePhase → Prop
  | .entered => s.states n = none
  | .running => s.states n = none
  | .fresh => s.states n = none
  | .spawned => Names s n config.id
  | .stored => Names s n config.id
  | .returned _ => True

def Switched (s : Scheduler) (id : String) : SwitchPhase → Prop
  | .found n => Names s n id
  | .marked n => Names s n id
  | .returned (.ok n) => Names s n id
  | _ => True

/-- What the map and the calls know of the tasks. -/
structure Linked (s : Service) : Prop where
  listed : ∀ id n, s.scheduler.tasks id = some n → Names s.scheduler n id
  unknown : ∀ n, n ∉ s.calls → s.scheduler.states n = none
  schedules : ∀ n config phase, s.calls.lookup n = some (.schedule config phase) → Scheduled s.scheduler n config phase
  switches : ∀ k id paused phase, s.calls.lookup k = some (.switch id paused phase) → Switched s.scheduler id phase

/-- Of this `pause`: the flag of the task it has found is set. -/
def Marks (k : Nat) (id : String) (s : Service) : Prop :=
  ∀ phase, s.calls.lookup k = some (.switch id true phase) →
    match phase with
    | .marked n => ∀ state, s.scheduler.states n = some state → state.isPaused = true
    | .returned (.ok n) => ∀ state, s.scheduler.states n = some state → state.isPaused = true
    | _ => True

theorem turn_keeps (state : TaskState) (now : Nat) (listed : Bool) :
    (state.turn fromStr upcoming now listed).config = state.config ∧
      (state.turn fromStr upcoming now listed).isPaused = state.isPaused := by
  have of := fun (before after : TaskState) (idles : Idles before after) =>
    show after.config = before.config ∧ after.isPaused = before.isPaused by
      obtain ⟨phase,wakes,_,rfl⟩ := idles
      exact ⟨rfl,rfl⟩
  unfold TaskState.turn
  split
  · exact of _ _ (spawned_idles fromStr upcoming state now)
  · split
    · exact of _ _ (wake_idles state)
    · exact ⟨rfl,rfl⟩
  · exact of _ _ (looked_idles state listed)
  · split <;> exact ⟨rfl,rfl⟩
  · split
    · exact of _ _ (left_idles fromStr upcoming state now)
    · split <;> exact ⟨rfl,rfl⟩
  · split
    · exact of _ _ (left_idles fromStr upcoming state now)
    · exact ⟨rfl,rfl⟩
  · exact ⟨rfl,rfl⟩
  · exact ⟨rfl,rfl⟩
  · exact of { state with stats := { state.stats with successCount := state.stats.successCount + 1 } } _
      (left_idles fromStr upcoming _ now)
  · exact ⟨rfl,rfl⟩
  · exact ⟨rfl,rfl⟩

/-- A task that is known stays known, under its id. -/
theorem names_step (s : Service) (turn : Turn) (linked : Linked s) (n : Nat) (id : String)
    (names : Names s.scheduler n id) : Names (step fromStr upcoming s turn).scheduler n id := by
  obtain ⟨state,known,named⟩ := names
  have there : ∃ after, (step fromStr upcoming s turn).scheduler.states n = some after := by
    rcases step_effect fromStr upcoming s turn with same | ⟨k,put,_,states⟩
    · rw [same]
      exact ⟨state,known⟩
    · rw [states,Function.update_apply]
      split
      · exact ⟨put,rfl⟩
      · exact ⟨state,known⟩
  obtain ⟨after,later⟩ := there
  refine ⟨after,later,?_⟩
  cases moved fromStr upcoming s turn n after later with
  | stays _ before =>
    rw [known] at before
    cases before
    exact named
  | new config turned call =>
    have none : s.scheduler.states n = none := linked.schedules n config .fresh call
    rw [known] at none
    cases none
  | stored state before =>
    rw [known] at before
    cases before
    exact named
  | switched state before k id paused call =>
    rw [known] at before
    cases before
    exact named
  | shown state before paused =>
    rw [known] at before
    cases before
    exact named
  | task state before =>
    rw [known] at before
    cases before
    rw [(turn_keeps fromStr upcoming _ _ _).1]
    exact named
  | handler state before panics turned handling =>
    rw [known] at before
    cases before
    exact named

theorem unknown_step (s : Service) (turn : Turn) (n : Nat) (absent : s.scheduler.states n = none)
    (unspawned : ∀ config, turn = .advance n → s.calls.lookup n ≠ some (.schedule config .fresh)) :
    (step fromStr upcoming s turn).scheduler.states n = none := by
  apply Option.eq_none_iff_forall_ne_some.mpr
  intro after known
  cases moved fromStr upcoming s turn n after known with
  | new config turned call => exact unspawned config turned call
  | stays _ before | stored _ before | switched _ before | shown _ before | task _ before | handler _ before =>
    rw [absent] at before
    cases before

theorem tasks_step (s : Service) (turn : Turn) (id : String) (n : Nat)
    (listed : (step fromStr upcoming s turn).scheduler.tasks id = some n) :
    s.scheduler.tasks id = some n ∨ ∃ config, s.calls.lookup n = some (.schedule config .stored) ∧ config.id = id := by
  cases turn with
  | enter k request =>
    rw [step] at listed
    split at listed <;> exact Or.inl listed
  | advance k =>
    rw [step] at listed
    split at listed
    · exact Or.inl listed
    · rename_i call found
      cases call with
      | schedule config phase =>
        cases phase with
        | stored =>
          simp only [callTurn,scheduleTurn,Function.update_apply] at listed
          split at listed
          · cases listed
            exact Or.inr ⟨config,found,Eq.symm ‹_›⟩
          · exact Or.inl listed
        | returned result => exact Or.inl listed
        | _ =>
          simp only [callTurn,scheduleTurn] at listed
          split at listed <;> exact Or.inl listed
      | switch id paused phase =>
        cases phase with
        | returned result => exact Or.inl listed
        | _ =>
          simp only [callTurn,switchTurn,setPaused,showPaused] at listed
          split at listed <;> exact Or.inl listed
  | task k =>
    simp only [step,taskTurn] at listed
    split at listed
    · exact Or.inl listed
    · split at listed
      · simp only [Function.update_apply] at listed
        split at listed
        · cases listed
        · exact Or.inl listed
      · exact Or.inl listed
  | handler k panics =>
    simp only [step,handlerEnds] at listed
    split at listed
    · exact Or.inl listed
    · split at listed <;> exact Or.inl listed
  | tick elapsed => exact Or.inl listed

theorem lookup_step (s : Service) (turn : Turn) (k : Nat) (call : Call)
    (found : (step fromStr upcoming s turn).calls.lookup k = some call) :
    turn ≠ .advance k ∧ s.calls.lookup k = some call ∨
      (∃ request, turn = .enter k request ∧ k ∉ s.calls ∧ call = request.call) ∨
      ∃ earlier, turn = .advance k ∧ s.calls.lookup k = some earlier ∧
        call = (callTurn fromStr upcoming s.scheduler k earlier).2 := by
  cases turn with
  | enter n request =>
    rw [step] at found
    split at found
    · exact Or.inl ⟨Turn.noConfusion,found⟩
    · rcases lookup_of_insert s.calls n k _ call found with ⟨rfl,enters⟩ | ⟨_,before⟩
      · exact Or.inr (Or.inl ⟨request,rfl,‹_›,enters⟩)
      · exact Or.inl ⟨Turn.noConfusion,before⟩
  | advance n =>
    rw [step] at found
    split at found
    · rename_i absent
      refine Or.inl ⟨?_,found⟩
      rintro ⟨⟩
      rw [absent] at found
      cases found
    · rcases lookup_of_insert s.calls n k _ call found with ⟨rfl,next⟩ | ⟨other,before⟩
      · exact Or.inr (Or.inr ⟨_,rfl,‹_›,next⟩)
      · exact Or.inl ⟨fun same => other (Turn.advance.inj same).symm,before⟩
  | task n => exact Or.inl ⟨Turn.noConfusion,found⟩
  | handler n panics => exact Or.inl ⟨Turn.noConfusion,found⟩
  | tick elapsed => exact Or.inl ⟨Turn.noConfusion,found⟩

theorem mem_step (s : Service) (turn : Turn) (n : Nat) (member : n ∈ s.calls) :
    n ∈ (step fromStr upcoming s turn).calls := by
  cases turn with
  | enter k request =>
    rw [step]
    split
    · exact member
    · exact (AList.mem_insert _).mpr (Or.inr member)
  | advance k =>
    rw [step]
    split
    · exact member
    · exact (AList.mem_insert _).mpr (Or.inr member)
  | task k => exact member
  | handler k panics => exact member
  | tick elapsed => exact member

theorem step_advance (s : Service) (n : Nat) (call : Call) (found : s.calls.lookup n = some call) :
    (step fromStr upcoming s (.advance n)).scheduler = (callTurn fromStr upcoming s.scheduler n call).1 := by
  rw [step,found]

theorem schedules_step (s : Service) (linked : Linked s) (n : Nat) (config : TaskConfig) (phase : SchedulePhase)
    (found : s.calls.lookup n = some (.schedule config phase)) :
    Scheduled (step fromStr upcoming s (.advance n)).scheduler n config
      (scheduleTurn fromStr upcoming s.scheduler n config phase).2 := by
  have before := linked.schedules n config phase found
  have after := step_advance fromStr upcoming s n _ found
  cases phase with
  | entered =>
    rw [after]
    simp only [callTurn,scheduleTurn]
    split
    · trivial
    · exact before
  | running =>
    rw [after]
    simp only [callTurn,scheduleTurn]
    split
    · trivial
    · exact before
  | fresh =>
    rw [after]
    simp only [callTurn,scheduleTurn]
    split
    · trivial
    · exact ⟨_,put_states n s.scheduler _,rfl⟩
  | spawned =>
    have kept := names_step fromStr upcoming s (.advance n) linked n config.id before
    simp only [scheduleTurn]
    split
    · exact kept
    · exact kept
  | stored => trivial
  | returned result => trivial

theorem switches_step (s : Service) (linked : Linked s) (k : Nat) (id : String) (paused : Bool) (phase : SwitchPhase)
    (found : s.calls.lookup k = some (.switch id paused phase)) :
    Switched (step fromStr upcoming s (.advance k)).scheduler id (switchTurn s.scheduler id paused phase).2 := by
  have before := linked.switches k id paused phase found
  have kept := fun n => names_step fromStr upcoming s (.advance k) linked n id
  cases phase with
  | entered =>
    simp only [switchTurn]
    cases listed : s.scheduler.tasks id with
    | none => trivial
    | some n => exact kept n (linked.listed id n listed)
  | found n => exact kept n before
  | marked n => exact kept n before
  | returned result =>
    cases result with
    | error missing => trivial
    | ok n => exact kept n before

theorem linked_step (s : Service) (turn : Turn) (linked : Linked s) : Linked (step fromStr upcoming s turn) := by
  refine ⟨?_,?_,?_,?_⟩
  · intro id n listed
    apply names_step fromStr upcoming s turn linked n id
    rcases tasks_step fromStr upcoming s turn id n listed with before | ⟨config,call,rfl⟩
    · exact linked.listed id n before
    · exact linked.schedules n config .stored call
  · intro n fresh
    have before : n ∉ s.calls := fun member => fresh (mem_step fromStr upcoming s turn n member)
    apply unknown_step fromStr upcoming s turn n (linked.unknown n before)
    intro config _ call
    exact before (AList.lookup_isSome.mp (Option.isSome_of_eq_some call))
  · intro n config phase found
    rcases lookup_step fromStr upcoming s turn n _ found with ⟨other,before⟩ | ⟨request,rfl,fresh,enters⟩ |
      ⟨earlier,rfl,before,next⟩
    · have was := linked.schedules n config phase before
      have kept := names_step fromStr upcoming s turn linked n config.id
      have absent := fun none => unknown_step fromStr upcoming s turn n none (fun _ turned => absurd turned other)
      cases phase with
      | entered => exact absent was
      | running => exact absent was
      | fresh => exact absent was
      | spawned => exact kept was
      | stored => exact kept was
      | returned result => trivial
    · cases request with
      | schedule given =>
        cases enters
        exact unknown_step fromStr upcoming s _ n (linked.unknown n fresh) (fun _ clash => Turn.noConfusion clash)
      | pause id => cases enters
      | resume id => cases enters
    · cases earlier with
      | schedule given phase' =>
        cases next
        exact schedules_step fromStr upcoming s linked n config phase' before
      | switch id paused phase' => cases next
  · intro k id paused phase found
    rcases lookup_step fromStr upcoming s turn k _ found with ⟨other,before⟩ | ⟨request,rfl,fresh,enters⟩ |
      ⟨earlier,rfl,before,next⟩
    · have was := linked.switches k id paused phase before
      have kept := fun n => names_step fromStr upcoming s turn linked n id
      cases phase with
      | entered => trivial
      | found n => exact kept n was
      | marked n => exact kept n was
      | returned result =>
        cases result with
        | error missing => trivial
        | ok n => exact kept n was
    · cases request with
      | schedule given => cases enters
      | pause other =>
        cases enters
        trivial
      | resume other =>
        cases enters
        trivial
    · cases earlier with
      | schedule given phase' => cases next
      | switch other paused' phase' =>
        cases next
        exact switches_step fromStr upcoming s linked k id paused phase' before

theorem start_linked (now : Nat) : Linked (start now) := by
  refine ⟨?_,fun _ _ => rfl,?_,?_⟩
  · intro id n listed
    cases listed
  · intro n config phase found
    cases found
  · intro k id paused phase found
    cases found

theorem settled_step (s : Service) (turn : Turn) (id : String) (other : ∀ j, turn ≠ .enter j (.resume id))
    (settled : Settled id s) : Settled id (step fromStr upcoming s turn) := by
  intro k phase found
  rcases lookup_step fromStr upcoming s turn k _ found with ⟨_,before⟩ | ⟨request,rfl,_,enters⟩ | ⟨earlier,rfl,before,next⟩
  · exact settled k phase before
  · cases request with
    | schedule config => cases enters
    | pause given => cases enters
    | resume given =>
      cases enters
      exact absurd rfl (other k)
  · cases earlier with
    | schedule config given => cases next
    | switch given paused earlier =>
      cases next
      obtain ⟨result,rfl⟩ := settled k earlier before
      exact ⟨result,rfl⟩

/-- A flag that is set stays set: no call that would clear it is under way. -/
theorem paused_step (s : Service) (turn : Turn) (linked : Linked s) (id : String) (settled : Settled id s) (n : Nat)
    (names : Names s.scheduler n id) (paused : ∀ state, s.scheduler.states n = some state → state.isPaused = true)
    (after : TaskState) (known : (step fromStr upcoming s turn).scheduler.states n = some after) :
    after.isPaused = true := by
  cases moved fromStr upcoming s turn n after known with
  | stays _ before => exact paused after before
  | new config turned call =>
    obtain ⟨state,before,_⟩ := names
    have absent : s.scheduler.states n = none := linked.schedules n config .fresh call
    rw [before] at absent
    cases absent
  | stored state before => exact paused state before
  | switched state before k given flag call =>
    have same : given = id := by
      obtain ⟨first,one,rfl⟩ := linked.switches k given flag _ call
      obtain ⟨second,other,rfl⟩ := names
      rw [one] at other
      cases other
      rfl
    subst same
    cases flag with
    | true => rfl
    | false =>
      obtain ⟨result,clash⟩ := settled k _ call
      cases clash
  | shown state before flag => exact paused state before
  | task state before => exact (turn_keeps fromStr upcoming state _ _).2.trans (paused state before)
  | handler state before panics turned handling => exact paused state before

theorem marks_step (s : Service) (turn : Turn) (linked : Linked s) (k : Nat) (id : String) (settled : Settled id s)
    (marks : Marks k id s) : Marks k id (step fromStr upcoming s turn) := by
  have stays := fun n => paused_step fromStr upcoming s turn linked id settled n
  intro phase found
  rcases lookup_step fromStr upcoming s turn k _ found with ⟨_,before⟩ | ⟨request,rfl,_,enters⟩ | ⟨earlier,rfl,before,next⟩
  · have was := marks phase before
    have switched := linked.switches k id true phase before
    cases phase with
    | marked n => exact stays n switched was
    | returned result =>
      cases result with
      | error missing => trivial
      | ok n => exact stays n switched was
    | _ => trivial
  · cases request with
    | schedule config => cases enters
    | resume given => cases enters
    | pause given =>
      cases enters
      trivial
  · cases earlier with
    | schedule config given => cases next
    | switch given paused earlier =>
      cases next
      have switched := linked.switches k id true earlier before
      have was := marks earlier before
      cases earlier with
      | entered =>
        simp only [switchTurn]
        cases s.scheduler.tasks id with
        | none => trivial
        | some n => trivial
      | found n =>
        intro after known
        rw [step_advance fromStr upcoming s k _ before] at known
        simp only [callTurn,switchTurn,setPaused] at known
        obtain ⟨state,there,_⟩ := switched
        rw [there] at known
        simp only [put_states,Option.some.injEq] at known
        rw [← known]
      | marked n => exact stays n switched was
      | returned result =>
        cases result with
        | error missing => trivial
        | ok n => exact stays n switched was

theorem attempt_held (s : Service) (n : Nat) (state : TaskState) (known : s.scheduler.states n = some state)
    (entered : state.phase = .entered) (paused : state.isPaused = true) :
    ∃ after, (step fromStr upcoming s (.task n)).scheduler.states n = some after ∧
      ¬InProgress after.phase ∧ after.starts = state.starts := by
  have reads := (OneShot.taskTurn_reads fromStr upcoming n s.scheduler state known rfl).1
  refine ⟨_,reads,?_⟩
  have leaves : state.turn fromStr upcoming s.scheduler.now (s.scheduler.tasks state.config.id).isSome =
      state.left fromStr upcoming s.scheduler.now := by
    unfold TaskState.turn
    rw [entered]
    exact if_pos paused
  obtain ⟨phase,wakes,idle,same⟩ := left_idles fromStr upcoming state s.scheduler.now
  rw [leaves,same]
  exact ⟨idle,rfl⟩

theorem held_back (now : Nat) (turns : List Turn) : HeldBack fromStr upcoming (start now) turns := by
  intro before k id mid n rest _ fresh settled quiet returned state known entered
  have marks : Marks k id (run (step fromStr upcoming) (start now) before) := by
    intro phase found
    exact absurd (AList.lookup_isSome.mp (Option.isSome_of_eq_some found)) fresh
  have kept : ∀ s turn, Linked s ∧ Settled id s ∧ Marks k id s → (∀ j, turn ≠ .enter j (.resume id)) →
      Linked (step fromStr upcoming s turn) ∧ Settled id (step fromStr upcoming s turn) ∧
        Marks k id (step fromStr upcoming s turn) :=
    fun s turn all other => ⟨linked_step fromStr upcoming s turn all.1,
      settled_step fromStr upcoming s turn id other all.2.1,marks_step fromStr upcoming s turn all.1 k id all.2.1 all.2.2⟩
  have others : ∀ turn ∈ Turn.enter k (.pause id) :: mid, ∀ j, turn ≠ .enter j (.resume id) := by
    rintro turn member j rfl
    cases member with
    | tail _ later => exact quiet j later
  have last := run_invariant (step fromStr upcoming) _ _ kept (run (step fromStr upcoming) (start now) before) _
    ⟨run_always (step fromStr upcoming) Linked (linked_step fromStr upcoming) (start now) before (start_linked now),
      settled,marks⟩ (along_inputs (step fromStr upcoming) _ _ _ others)
  rw [← run_append] at last
  have attempt := attempt_held fromStr upcoming _ n state known entered (last.2.2 _ returned state known)
  rw [← List.cons_append,← List.append_assoc,run_append]
  exact attempt

/-- The limits hold, the counters are right and a paused task is held back in a run exactly
if no handler panics in it. -/
theorem executions_limited_iff (now : Nat) (turns : List Turn) :
    (Always (step fromStr upcoming) AllLimited (start now) turns ∧ HeldBack fromStr upcoming (start now) turns) ↔
      Along (step fromStr upcoming) NoPanic (start now) turns := by
  have limits : Always (step fromStr upcoming) AllLimited (start now) turns ↔
      Along (step fromStr upcoming) NoPanic (start now) turns := by
    apply always_iff_along (step fromStr upcoming) NoPanic AllLimited (AllCounted False) (fun _ => True)
    · exact fun s turn counted _ => step_counted fromStr upcoming s turn counted
    · intro s turn counted _ limited
      rw [limited_iff _ (step_counted fromStr upcoming s turn counted)]
      exact step_limited_iff fromStr upcoming s turn counted ((limited_iff s counted).mp limited)
    · exact fun _ _ => trivial
    · intro n state known
      cases known
    · intro n state known
      cases known
  exact ⟨fun both => limits.mp both.1,fun calm => ⟨limits.mpr calm,held_back fromStr upcoming now turns⟩⟩

end Service

/-- The handler of a task panics in its first execution. -/
def panicking : List Turn :=
  [.enter 0 (.schedule OneShot.immediateJob),.advance 0,.advance 0,.advance 0,.advance 0,.advance 0,
    .task 0,.task 0,.task 0,.handler 0 true]

theorem panic_is_not_counted :
    ¬(Always (step OneShot.noCron OneShot.never) AllLimited (start 0) panicking ∧
      HeldBack OneShot.noCron OneShot.never (start 0) panicking) := by
  intro both
  have limited := always_end (step OneShot.noCron OneShot.never) AllLimited (start 0) panicking both.1
  have counts := (limited 0 _ rfl).counts id
  cases counts.2

end ClawKernel.Runtime.Executions
