import ClawKernel.Runtime.TokioScheduler

/-! A `schedule` call for a task that runs once, and the task it spawns: the call enters the
task into the map only after the spawn, so the task may come to the map first.
-/
namespace ClawKernel.Runtime.OneShot
open Lib.Runs TokioScheduler
open Cron (nanos timestamp)

structure Race where
  scheduler : Scheduler
  schedule : SchedulePhase

inductive Turn where
  | schedule
  | task
  | handler (panics : Bool)
  | tick (elapsed : Nat)
  deriving DecidableEq, Repr

def IsOneShot (config : TaskConfig) : Prop :=
  match config.trigger with
  | .once _ => True
  | .immediate => True
  | _ => False

/-- A second after its time the task cannot be asleep: the delay is counted in full seconds. -/
def dueBy (config : TaskConfig) : Nat :=
  match config.trigger with
  | .once unixSecs => (unixSecs + 1) * nanos
  | _ => 0

section Race
variable {Schedule : Type} (fromStr : String → Except String Schedule) (upcoming : Schedule → Nat → Option Nat)
  (n : Nat) (config : TaskConfig)

def step (r : Race) : Turn → Race
  | .schedule =>
    let after := scheduleTurn fromStr upcoming r.scheduler n config r.schedule
    ⟨after.1,after.2⟩
  | .task => { r with scheduler := taskTurn fromStr upcoming r.scheduler n }
  | .handler panics => { r with scheduler := handlerEnds r.scheduler n panics }
  | .tick elapsed => { r with scheduler := { r.scheduler with now := r.scheduler.now + elapsed } }

/-- The call has returned, and the task it has spawned, if any, has ended. -/
structure Over (r : Race) : Prop where
  returned : ∃ result, r.schedule = .returned result
  ended : ∀ state, r.scheduler.states n = some state → state.phase = .ended

/-- In each round the call, the task and the end of the handler have a turn. -/
def Fair (rounds : List (List Turn)) : Prop :=
  ∀ round ∈ rounds, .schedule ∈ round ∧ .task ∈ round ∧ .handler false ∈ round

def enoughRounds : Nat := 15

/-- Once its time has come the task comes to an end however the turns fall, it has then
called the handler exactly once, and its id is free again. -/
structure RunsOnce (r : Race) : Prop where
  ends : dueBy config ≤ r.scheduler.now → ∀ rounds, Fair rounds → enoughRounds ≤ rounds.length →
    Over n (run (step fromStr upcoming n config) r rounds.flatten)
  atMost : ∀ state, r.scheduler.states n = some state → state.starts ≤ 1
  once : ∀ state, r.scheduler.states n = some state → state.phase = .ended → state.starts = 1
  leaves : ∀ state, r.scheduler.states n = some state → state.phase = .ended →
    r.scheduler.accepts config.id = true

/-- The entry is made before the task ends and before it looks for it, the limit is not
zero, and the handler of a listed task does not panic. -/
def InOrder (r : Race) (turn : Turn) : Prop :=
  ∀ state, r.scheduler.states n = some state →
    match turn with
    | .schedule => r.schedule = .stored → state.phase ≠ .ended
    | .task => (state.phase = .woken → (r.scheduler.tasks config.id).isSome) ∧
        (state.phase = .removing → config.maxExecutions ≠ some 0)
    | .handler panics => panics = true → state.phase = .handling → r.scheduler.tasks config.id = none
    | .tick _ => True

/-- What a task that runs once has done where it stands. -/
def Fits (state : TaskState) : Prop :=
  state.config = config ∧ state.isPaused = false ∧
    match state.phase with
    | .begun => state.starts = 0 ∧ state.stats.executionCount = 0
    | .sleeping => state.starts = 0 ∧ state.stats.executionCount = 0 ∧ state.wakes ≤ dueBy config
    | .woken => state.starts = 0 ∧ state.stats.executionCount = 0
    | .limit => False
    | .entered => state.starts = 0 ∧ state.stats.executionCount = 0
    | .counting => state.starts = 0 ∧ state.stats.executionCount = 0
    | .starting => state.starts = 0 ∧ config.maxExecutions ≠ some 0
    | .handling => state.starts = 1 ∧ config.maxExecutions ≠ some 0
    | .recording => state.starts = 1 ∧ config.maxExecutions ≠ some 0
    | .removing => state.starts ≤ 1 ∧ (state.starts = 1 ↔ config.maxExecutions ≠ some 0)
    | .ended => state.starts ≤ 1

/-- What the call has done where it stands. -/
structure Inv (r : Race) : Prop where
  fits : ∀ state, r.scheduler.states n = some state → Fits config state
  call :
    match r.schedule with
    | .entered => r.scheduler.states n = none
    | .running => r.scheduler.states n = none ∧ r.scheduler.shutdown = false
    | .fresh => r.scheduler.states n = none ∧ r.scheduler.accepts config.id = true
    | .spawned => (∃ state, r.scheduler.states n = some state) ∧ r.scheduler.accepts config.id = true
    | .stored => (∃ state, r.scheduler.states n = some state) ∧ r.scheduler.accepts config.id = true
    | .returned (.error _) => r.scheduler.states n = none
    | .returned (.ok _) => r.scheduler.shutdown = false ∧
        ∃ state, r.scheduler.states n = some state ∧
          (state.phase ≠ .ended → (r.scheduler.tasks config.id).isSome)

def phaseRank : Phase → Nat
  | .begun => 9
  | .sleeping => 8
  | .woken => 7
  | .limit => 7
  | .entered => 6
  | .counting => 5
  | .starting => 4
  | .handling => 3
  | .recording => 2
  | .removing => 1
  | .ended => 0

def scheduleRank : SchedulePhase → Nat
  | .entered => 5
  | .running => 4
  | .fresh => 3
  | .spawned => 2
  | .stored => 1
  | .returned _ => 0

theorem wakes_in_time (now unixSecs : Nat) (ahead : timestamp now < unixSecs) :
    now + (unixSecs - timestamp now) * nanos ≤ (unixSecs + 1) * nanos := by
  have within : now < (timestamp now + 1) * nanos := Nat.lt_mul_of_div_lt (Nat.lt_succ_self _) (by decide)
  have whole : (timestamp now + 1) * nanos + (unixSecs - timestamp now) * nanos = (unixSecs + 1) * nanos := by
    rw [← Nat.add_mul]
    congr 1
    omega
  omega

variable {config}

theorem oneShot_cases (oneShot : IsOneShot config) :
    (∃ unixSecs, config.trigger = .once unixSecs) ∨ config.trigger = .immediate := by
  unfold IsOneShot at oneShot
  cases trigger : config.trigger with
  | once unixSecs => exact Or.inl ⟨unixSecs,rfl⟩
  | immediate => exact Or.inr rfl
  | _ =>
    rw [trigger] at oneShot
    cases oneShot

theorem left_eq (state : TaskState) (now : Nat) (oneShot : IsOneShot config) (same : state.config = config) :
    state.left fromStr upcoming now = { state with phase := .removing } := by
  unfold TaskState.left
  rw [same]
  rcases oneShot_cases oneShot with ⟨unixSecs,trigger⟩ | trigger
  · rw [trigger]
  · rw [trigger]

theorem looked_eq (state : TaskState) (listed : Bool) (oneShot : IsOneShot config) (same : state.config = config) :
    state.looked listed = { state with phase := if listed then .entered else .ended } := by
  unfold TaskState.looked
  rw [same]
  cases listed with
  | false => rfl
  | true =>
    rcases oneShot_cases oneShot with ⟨unixSecs,trigger⟩ | trigger
    · rw [trigger]
      rfl
    · rw [trigger]
      rfl

theorem wake_phase (state : TaskState) (oneShot : IsOneShot config) (same : state.config = config) :
    state.wake = { state with phase := .woken } := by
  unfold TaskState.wake
  rw [same]
  rcases oneShot_cases oneShot with ⟨unixSecs,trigger⟩ | trigger
  · rw [trigger]
  · rw [trigger]

theorem exhausted_iff (state : TaskState) (same : state.config = config) (none : state.stats.executionCount = 0) :
    state.exhausted = true ↔ config.maxExecutions = some 0 := by
  unfold TaskState.exhausted
  rw [same,none]
  cases config.maxExecutions with
  | none => simp only [Bool.false_eq_true,reduceCtorEq]
  | some max => simp only [decide_eq_true_eq,Nat.le_zero,Option.some.injEq]

theorem spawned_fits (state : TaskState) (now : Nat) (oneShot : IsOneShot config) (same : state.config = config)
    (goesOn : state.isPaused = false) (nothing : state.starts = 0 ∧ state.stats.executionCount = 0) :
    Fits config (state.spawned fromStr upcoming now) ∧
      phaseRank (state.spawned fromStr upcoming now).phase < phaseRank .begun ∧
      (state.spawned fromStr upcoming now).phase ≠ .ended := by
  subst same
  unfold TaskState.spawned
  rcases oneShot_cases oneShot with ⟨unixSecs,trigger⟩ | trigger
  · simp only [trigger]
    split_ifs with ahead
    · refine ⟨⟨rfl,goesOn,nothing.1,nothing.2,?_⟩,show 8 < 9 by decide,Phase.noConfusion⟩
      simp only [dueBy,trigger]
      exact wakes_in_time now unixSecs ahead
    · exact ⟨⟨rfl,goesOn,nothing⟩,show 7 < 9 by decide,Phase.noConfusion⟩
  · simp only [trigger]
    exact ⟨⟨rfl,goesOn,nothing⟩,show 6 < 9 by decide,Phase.noConfusion⟩

/-- One step of the task: it goes on, unless it waits for its timer or its handler, and ends
only after `remove` or where it does not find itself in the map. -/
theorem turn_fits (state : TaskState) (now : Nat) (listed : Bool) (oneShot : IsOneShot config)
    (fits : Fits config state) :
    Fits config (state.turn fromStr upcoming now listed) ∧
      (phaseRank (state.turn fromStr upcoming now listed).phase < phaseRank state.phase ∧
          ((state.turn fromStr upcoming now listed).phase = .ended →
            state.phase = .removing ∨ state.phase = .woken ∧ listed = false) ∨
        state.turn fromStr upcoming now listed = state ∧
          (state.phase = .sleeping ∧ now < state.wakes ∨ state.phase = .handling ∨ state.phase = .ended)) := by
  obtain ⟨same,goesOn,done⟩ := fits
  subst same
  have leaves := left_eq fromStr upcoming state now oneShot rfl
  obtain ⟨config,stats,handle,isPaused,phase,wakes,starts⟩ := state
  change isPaused = false at goesOn
  subst goesOn
  unfold TaskState.turn
  cases phase with
  | begun =>
    have begun := spawned_fits fromStr upcoming _ now oneShot rfl rfl done
    exact ⟨begun.1,Or.inl ⟨begun.2.1,fun ended => absurd ended begun.2.2⟩⟩
  | sleeping =>
    dsimp only
    rw [wake_phase _ oneShot rfl]
    split_ifs with past
    · exact ⟨⟨rfl,rfl,done.1,done.2.1⟩,Or.inl ⟨show 7 < 8 by decide,nofun⟩⟩
    · exact ⟨⟨rfl,rfl,done⟩,Or.inr ⟨rfl,Or.inl ⟨rfl,Nat.lt_of_not_le past⟩⟩⟩
  | woken =>
    dsimp only
    rw [looked_eq _ listed oneShot rfl]
    cases listed with
    | true => exact ⟨⟨rfl,rfl,done⟩,Or.inl ⟨show 6 < 7 by decide,nofun⟩⟩
    | false =>
      have none : starts ≤ 1 := Nat.le_trans (Nat.le_of_eq done.1) (Nat.zero_le 1)
      exact ⟨⟨rfl,rfl,none⟩,Or.inl ⟨show 0 < 7 by decide,fun _ => Or.inr ⟨rfl,rfl⟩⟩⟩
  | limit => cases done
  | entered =>
    simp only [Bool.false_eq_true,if_false]
    split_ifs with limited
    · exact ⟨⟨rfl,rfl,done⟩,Or.inl ⟨show 5 < 6 by decide,nofun⟩⟩
    · refine ⟨⟨rfl,rfl,done.1,?_⟩,Or.inl ⟨show 4 < 6 by decide,nofun⟩⟩
      intro zero
      rw [zero] at limited
      exact limited rfl
  | counting =>
    have zero := exhausted_iff ⟨config,stats,handle,false,.counting,wakes,starts⟩ rfl done.2
    have none : starts = 0 := done.1
    dsimp only at leaves ⊢
    rw [leaves]
    split_ifs with used
    · refine ⟨⟨rfl,rfl,Nat.le_trans (Nat.le_of_eq none) (Nat.zero_le 1),?_⟩,Or.inl ⟨show 1 < 5 by decide,nofun⟩⟩
      dsimp only
      rw [none]
      exact ⟨fun clash => Nat.noConfusion clash,fun clash => absurd (zero.mp used) clash⟩
    · exact ⟨⟨rfl,rfl,none,fun zeroMax => used (zero.mpr zeroMax)⟩,Or.inl ⟨show 4 < 5 by decide,nofun⟩⟩
  | starting =>
    exact ⟨⟨rfl,rfl,congrArg Nat.succ done.1,done.2⟩,Or.inl ⟨show 3 < 4 by decide,nofun⟩⟩
  | handling => exact ⟨⟨rfl,rfl,done⟩,Or.inr ⟨rfl,Or.inr (Or.inl rfl)⟩⟩
  | recording =>
    have counted := left_eq fromStr upcoming
      ⟨config,{ stats with successCount := stats.successCount + 1 },handle,false,.recording,wakes,starts⟩ now oneShot rfl
    dsimp only
    rw [counted]
    exact ⟨⟨rfl,rfl,Nat.le_of_eq done.1,fun _ => done.2,fun _ => done.1⟩,Or.inl ⟨show 1 < 2 by decide,nofun⟩⟩
  | removing => exact ⟨⟨rfl,rfl,done.1⟩,Or.inl ⟨show 0 < 1 by decide,fun _ => Or.inl rfl⟩⟩
  | ended => exact ⟨⟨rfl,rfl,done⟩,Or.inr ⟨rfl,Or.inr (Or.inr rfl)⟩⟩

/-- What the race has still to do. -/
def togo (r : Race) : Nat :=
  match r.scheduler.states n with
  | some state => scheduleRank r.schedule + phaseRank state.phase
  | none =>
    match r.schedule with
    | .returned _ => 0
    | phase => scheduleRank phase + 10

/-- The party it waits for. -/
def helpful (r : Race) : Turn :=
  match r.schedule with
  | .returned _ =>
    match (r.scheduler.states n).map TaskState.phase with
    | some .handling => .handler false
    | _ => .task
  | _ => .schedule

@[simp] theorem put_states (s : Scheduler) (state : TaskState) : (s.put n state).states n = some state :=
  Function.update_self n _ _

theorem taskTurn_reads (s : Scheduler) (state : TaskState) (known : s.states n = some state)
    (same : state.config = config) :
    (taskTurn fromStr upcoming s n).states n =
        some (state.turn fromStr upcoming s.now (s.tasks config.id).isSome) ∧
      (taskTurn fromStr upcoming s n).tasks config.id =
        (if state.phase = .removing then none else s.tasks config.id) ∧
      (taskTurn fromStr upcoming s n).shutdown = s.shutdown ∧ (taskTurn fromStr upcoming s n).now = s.now := by
  unfold taskTurn
  rw [known]
  simp only [same]
  split_ifs
  · exact ⟨put_states n s _,Function.update_self _ _ _,rfl,rfl⟩
  · exact ⟨put_states n s _,rfl,rfl,rfl⟩

theorem handlerEnds_reads (s : Scheduler) (state : TaskState) (panics : Bool) (known : s.states n = some state) :
    (handlerEnds s n panics).states n =
        some (if state.phase = .handling then { state with phase := if panics then .ended else .recording } else state) ∧
      (handlerEnds s n panics).tasks = s.tasks ∧ (handlerEnds s n panics).shutdown = s.shutdown ∧
      (handlerEnds s n panics).now = s.now := by
  unfold handlerEnds
  rw [known]
  simp only
  cases phase : state.phase with
  | handling =>
    rw [if_pos rfl]
    exact ⟨put_states n s _,rfl,rfl,rfl⟩
  | _ =>
    refine ⟨?_,rfl,rfl,rfl⟩
    simp only [reduceCtorEq,if_false]
    exact known

theorem unspawned (s : Scheduler) (panics : Bool) (unknown : s.states n = none) :
    taskTurn fromStr upcoming s n = s ∧ handlerEnds s n panics = s := by
  unfold taskTurn handlerEnds
  rw [unknown]
  exact ⟨rfl,rfl⟩

/-- The task or its handler has moved: what the call has done is kept if the task is
listed as long as it has not ended. -/
theorem moved_inv (r : Race) (after : Scheduler) (state moved : TaskState) (inv : Inv n config r)
    (known : r.scheduler.states n = some state) (now : after.states n = some moved) (fits : Fits config moved)
    (shutdown : after.shutdown = r.scheduler.shutdown)
    (unlisted : r.scheduler.tasks config.id = none → after.tasks config.id = none)
    (listed : moved.phase ≠ .ended → state.phase ≠ .ended ∧ after.tasks config.id = r.scheduler.tasks config.id) :
    Inv n config { r with scheduler := after } := by
  have free : r.scheduler.accepts config.id = true → after.accepts config.id = true := by
    simp only [Scheduler.accepts,shutdown,Bool.and_eq_true,Option.isNone_iff_eq_none]
    exact fun both => ⟨both.1,unlisted both.2⟩
  refine ⟨?_,?_⟩
  · intro other found
    rw [now] at found
    cases found
    exact fits
  · have call := inv.call
    cases phase : r.schedule with
    | entered =>
      rw [phase,known] at call
      cases call
    | running =>
      rw [phase,known] at call
      cases call.1
    | fresh =>
      rw [phase,known] at call
      cases call.1
    | spawned =>
      rw [phase] at call
      exact ⟨⟨moved,now⟩,free call.2⟩
    | stored =>
      rw [phase] at call
      exact ⟨⟨moved,now⟩,free call.2⟩
    | returned result =>
      cases result with
      | error error =>
        rw [phase,known] at call
        cases call
      | ok done =>
        rw [phase] at call
        obtain ⟨running,other,found,there⟩ := call
        rw [known] at found
        cases found
        refine ⟨shutdown.trans running,moved,now,?_⟩
        intro goesOn
        obtain ⟨before,same⟩ := listed goesOn
        rw [same]
        exact there before

theorem task_inv (r : Race) (oneShot : IsOneShot config) (inv : Inv n config r) :
    Inv n config (step fromStr upcoming n config r .task) := by
  cases known : r.scheduler.states n with
  | none =>
    rw [step,(unspawned fromStr upcoming n r.scheduler false known).1]
    exact inv
  | some state =>
    have fits := inv.fits state known
    obtain ⟨states,tasks,shutdown,_⟩ := taskTurn_reads fromStr upcoming n r.scheduler state known fits.1
    obtain ⟨after,goes⟩ := turn_fits fromStr upcoming state r.scheduler.now
      (r.scheduler.tasks config.id).isSome oneShot fits
    apply moved_inv n r _ state _ inv known states after shutdown
    · intro none
      rw [tasks,none,ite_self]
    · intro goesOn
      have notEnded : state.phase ≠ .ended := by
        intro ended
        rw [TaskState.turn,ended] at goesOn
        exact goesOn ended
      have notRemoving : state.phase ≠ .removing := by
        intro removing
        rw [TaskState.turn,removing] at goesOn
        exact goesOn rfl
      rw [tasks,if_neg notRemoving]
      exact ⟨notEnded,rfl⟩

theorem handler_inv (r : Race) (panics : Bool) (inv : Inv n config r) :
    Inv n config (step fromStr upcoming n config r (.handler panics)) := by
  cases known : r.scheduler.states n with
  | none =>
    rw [step,(unspawned fromStr upcoming n r.scheduler panics known).2]
    exact inv
  | some state =>
    have fits := inv.fits state known
    obtain ⟨states,tasks,shutdown,_⟩ := handlerEnds_reads n r.scheduler state panics known
    apply moved_inv n r _ state _ inv known states _ shutdown
    · intro none
      rw [tasks,none]
    · intro goesOn
      refine ⟨?_,congrFun tasks config.id⟩
      intro ended
      rw [if_neg (fun handling => Phase.noConfusion (ended.symm.trans handling))] at goesOn
      exact goesOn ended
    · by_cases handling : state.phase = .handling
      · rw [if_pos handling]
        obtain ⟨same,goesOn,done⟩ := fits
        rw [handling] at done
        cases panics with
        | false => exact ⟨same,goesOn,done⟩
        | true => exact ⟨same,goesOn,Nat.le_of_eq done.1⟩
      · rw [if_neg handling]
        exact fits

theorem new_fits : Fits config (.new config) :=
  ⟨rfl,rfl,rfl,rfl⟩

theorem schedule_inv (r : Race) (inv : Inv n config r) :
    Inv n config (step fromStr upcoming n config r .schedule) := by
  obtain ⟨scheduler,phase⟩ := r
  obtain ⟨fits,call⟩ := inv
  unfold step
  cases phase with
  | entered =>
    simp only [scheduleTurn]
    split_ifs with closing
    · exact ⟨fits,call⟩
    · exact ⟨fits,call,Bool.eq_false_iff.mpr closing⟩
  | running =>
    simp only [scheduleTurn]
    split_ifs with taken
    · exact ⟨fits,call.1⟩
    · refine ⟨fits,call.1,?_⟩
      have running : scheduler.shutdown = false := call.2
      simp only [Scheduler.accepts,running,Bool.not_false,Bool.true_and]
      exact Option.isNone_iff_eq_none.mpr (Option.not_isSome_iff_eq_none.mp taken)
  | fresh =>
    simp only [scheduleTurn]
    cases spawnError fromStr upcoming scheduler.now config.trigger with
    | some error => exact ⟨fits,call.1⟩
    | none =>
      refine ⟨?_,⟨_,put_states n scheduler _⟩,call.2⟩
      intro state found
      rw [put_states] at found
      cases found
      exact new_fits
  | spawned =>
    obtain ⟨⟨state,known⟩,free⟩ := call
    change scheduler.states n = some state at known
    simp only [scheduleTurn,known]
    refine ⟨?_,⟨_,put_states n scheduler _⟩,free⟩
    intro other found
    rw [put_states] at found
    cases found
    exact fits state known
  | stored =>
    obtain ⟨⟨state,known⟩,free⟩ := call
    change scheduler.states n = some state at known
    have running : scheduler.shutdown = false := by
      rw [Scheduler.accepts,Bool.and_eq_true,Bool.not_eq_true'] at free
      exact free.1
    refine ⟨fits,running,state,known,?_⟩
    intro _
    simp only [scheduleTurn,Function.update_self]
    rfl
  | returned result => exact ⟨fits,call⟩

theorem step_inv (r : Race) (turn : Turn) (oneShot : IsOneShot config) (inv : Inv n config r) :
    Inv n config (step fromStr upcoming n config r turn) := by
  cases turn with
  | schedule => exact schedule_inv fromStr upcoming n r inv
  | task => exact task_inv fromStr upcoming n r oneShot inv
  | handler panics => exact handler_inv fromStr upcoming n r panics inv
  | tick elapsed => exact ⟨inv.fits,inv.call⟩

variable (config)

/-- What an ended task leaves. -/
def Left (r : Race) : Prop :=
  ∀ state, r.scheduler.states n = some state → state.phase = .ended →
    state.starts = 1 ∧ r.scheduler.accepts config.id = true

variable {config}

theorem running_of_spawned (r : Race) (state : TaskState) (inv : Inv n config r)
    (known : r.scheduler.states n = some state) : r.scheduler.shutdown = false := by
  have call := inv.call
  have free : r.scheduler.accepts config.id = true → r.scheduler.shutdown = false := by
    rw [Scheduler.accepts,Bool.and_eq_true,Bool.not_eq_true']
    exact And.left
  cases phase : r.schedule with
  | entered =>
    rw [phase,known] at call
    cases call
  | running =>
    rw [phase] at call
    exact call.2
  | fresh =>
    rw [phase] at call
    exact free call.2
  | spawned =>
    rw [phase] at call
    exact free call.2
  | stored =>
    rw [phase] at call
    exact free call.2
  | returned result =>
    rw [phase] at call
    cases result with
    | error error =>
      rw [known] at call
      cases call
    | ok done => exact call.1

theorem accepts_iff (s : Scheduler) (id : String) (running : s.shutdown = false) :
    s.accepts id = true ↔ s.tasks id = none := by
  rw [Scheduler.accepts,running,Bool.not_false,Bool.true_and,Option.isNone_iff_eq_none]

/-- Where the step of one party leaves the task as `moved`. -/
theorem left_moved_iff (r : Race) (moved : TaskState) (now : r.scheduler.states n = some moved) :
    Left n config r ↔ (moved.phase = .ended → moved.starts = 1 ∧ r.scheduler.accepts config.id = true) := by
  constructor
  · exact fun left => left moved now
  · intro own state found
    rw [now] at found
    cases found
    exact own

theorem inOrder_iff (r : Race) (turn : Turn) (state : TaskState) (known : r.scheduler.states n = some state)
    (meets : TaskState → Prop)
    (reads : InOrder n config r turn ↔ ∀ state, r.scheduler.states n = some state → meets state) :
    InOrder n config r turn ↔ meets state := by
  rw [reads]
  constructor
  · exact fun given => given state known
  · intro own other found
    rw [known] at found
    cases found
    exact own

theorem task_left_iff (r : Race) (oneShot : IsOneShot config) (inv : Inv n config r) (left : Left n config r) :
    Left n config (step fromStr upcoming n config r .task) ↔ InOrder n config r .task := by
  cases known : r.scheduler.states n with
  | none =>
    rw [step,(unspawned fromStr upcoming n r.scheduler false known).1]
    refine ⟨fun _ state found => ?_,fun _ => left⟩
    rw [known] at found
    cases found
  | some state =>
    have fits := inv.fits state known
    have running := running_of_spawned n r state inv known
    obtain ⟨states,tasks,shutdown,_⟩ := taskTurn_reads fromStr upcoming n r.scheduler state known fits.1
    obtain ⟨after,goes⟩ := turn_fits fromStr upcoming state r.scheduler.now
      (r.scheduler.tasks config.id).isSome oneShot fits
    rw [left_moved_iff n _ _ states,inOrder_iff n r .task state known _ Iff.rfl]
    have free := accepts_iff (taskTurn fromStr upcoming r.scheduler n) config.id (shutdown.trans running)
    change (_ → _ ∧ (taskTurn fromStr upcoming r.scheduler n).accepts config.id = true) ↔ _
    rw [free,tasks]
    by_cases woken : state.phase = .woken
    · have turned : state.turn fromStr upcoming r.scheduler.now (r.scheduler.tasks config.id).isSome =
          { state with phase := if (r.scheduler.tasks config.id).isSome then .entered else .ended } := by
        rw [TaskState.turn,woken]
        exact looked_eq state _ oneShot fits.1
      have done := fits.2.2
      rw [woken] at done
      have none : state.starts = 0 := done.1
      rw [turned,woken]
      cases listed : r.scheduler.tasks config.id with
      | some other => exact ⟨fun _ => ⟨fun _ => rfl,nofun⟩,fun _ => nofun⟩
      | none =>
        constructor
        · intro once
          have one := (once rfl).1
          rw [none] at one
          cases one
        · intro given
          cases given.1 rfl
    · by_cases removing : state.phase = .removing
      · have done := fits.2.2
        rw [removing] at done
        have turned : state.turn fromStr upcoming r.scheduler.now (r.scheduler.tasks config.id).isSome =
            { state with phase := .ended } := by
          rw [TaskState.turn,removing]
        rw [turned,removing,if_pos rfl]
        constructor
        · exact fun once => ⟨nofun,fun _ => done.2.mp (once rfl).1⟩
        · exact fun given _ => ⟨done.2.mpr (given.2 rfl),rfl⟩
      · rw [if_neg removing]
        refine ⟨fun _ => ⟨fun clash => absurd clash woken,fun clash => absurd clash removing⟩,fun _ ended => ?_⟩
        cases goes with
        | inl goes =>
          cases goes.2 ended with
          | inl clash => exact absurd clash removing
          | inr clash => exact absurd clash.1 woken
        | inr stays =>
          rw [stays.1] at ended ⊢
          have before := left state known ended
          exact ⟨before.1,(accepts_iff r.scheduler config.id running).mp before.2⟩

theorem handler_left_iff (r : Race) (panics : Bool) (inv : Inv n config r) (left : Left n config r) :
    Left n config (step fromStr upcoming n config r (.handler panics)) ↔ InOrder n config r (.handler panics) := by
  cases known : r.scheduler.states n with
  | none =>
    rw [step,(unspawned fromStr upcoming n r.scheduler panics known).2]
    refine ⟨fun _ state found => ?_,fun _ => left⟩
    rw [known] at found
    cases found
  | some state =>
    have fits := inv.fits state known
    have running := running_of_spawned n r state inv known
    obtain ⟨states,tasks,shutdown,_⟩ := handlerEnds_reads n r.scheduler state panics known
    rw [left_moved_iff n _ _ states,inOrder_iff n r (.handler panics) state known _ Iff.rfl]
    have free := accepts_iff (handlerEnds r.scheduler n panics) config.id (shutdown.trans running)
    change (_ → _ ∧ (handlerEnds r.scheduler n panics).accepts config.id = true) ↔ _
    rw [free,tasks]
    by_cases handling : state.phase = .handling
    · have done := fits.2.2
      rw [handling] at done
      rw [if_pos handling]
      cases panics with
      | false => exact ⟨fun _ => nofun,fun _ => nofun⟩
      | true => exact ⟨fun once _ _ => (once rfl).2,fun given _ => ⟨done.1,given rfl handling⟩⟩
    · rw [if_neg handling]
      refine ⟨fun _ _ clash => absurd clash handling,fun _ ended => ?_⟩
      have before := left state known ended
      exact ⟨before.1,(accepts_iff r.scheduler config.id running).mp before.2⟩

theorem schedule_left_iff (r : Race) (inv : Inv n config r) (left : Left n config r) :
    Left n config (step fromStr upcoming n config r .schedule) ↔ InOrder n config r .schedule := by
  obtain ⟨scheduler,phase⟩ := r
  obtain ⟨fits,call⟩ := inv
  have early : phase ≠ .stored → InOrder n config ⟨scheduler,phase⟩ .schedule :=
    fun other state _ stored => absurd stored other
  unfold step
  cases phase with
  | entered =>
    simp only [scheduleTurn]
    split_ifs
    · exact ⟨fun _ => early nofun,fun _ => left⟩
    · exact ⟨fun _ => early nofun,fun _ => left⟩
  | running =>
    simp only [scheduleTurn]
    split_ifs
    · exact ⟨fun _ => early nofun,fun _ => left⟩
    · exact ⟨fun _ => early nofun,fun _ => left⟩
  | fresh =>
    simp only [scheduleTurn]
    cases spawnError fromStr upcoming scheduler.now config.trigger with
    | some error => exact ⟨fun _ => early nofun,fun _ => left⟩
    | none =>
      refine ⟨fun _ => early nofun,fun _ => ?_⟩
      rw [left_moved_iff n _ _ (put_states n scheduler _)]
      exact nofun
  | spawned =>
    obtain ⟨⟨state,known⟩,free⟩ := call
    change scheduler.states n = some state at known
    simp only [scheduleTurn,known]
    refine ⟨fun _ => early nofun,fun _ => ?_⟩
    rw [left_moved_iff n _ _ (put_states n scheduler _)]
    exact left state known
  | stored =>
    obtain ⟨⟨state,known⟩,free⟩ := call
    rw [inOrder_iff n _ .schedule state known _ Iff.rfl]
    refine Iff.trans (left_moved_iff n _ state known) ?_
    constructor
    · intro once _ ended
      have listed := (once ended).2
      simp only [scheduleTurn,Scheduler.accepts,Function.update_self,Option.isNone_some,Bool.and_false] at listed
      cases listed
    · exact fun given ended => absurd ended (given rfl)
  | returned result => exact ⟨fun _ => early nofun,fun _ => left⟩

theorem step_left_iff (r : Race) (turn : Turn) (oneShot : IsOneShot config) (inv : Inv n config r)
    (left : Left n config r) :
    Left n config (step fromStr upcoming n config r turn) ↔ InOrder n config r turn := by
  cases turn with
  | schedule => exact schedule_left_iff fromStr upcoming n r inv left
  | task => exact task_left_iff fromStr upcoming n r oneShot inv left
  | handler panics => exact handler_left_iff fromStr upcoming n r panics inv left
  | tick elapsed => exact ⟨fun _ _ _ => True.intro,fun _ => left⟩

theorem schedule_lowers (r : Race) (inv : Inv n config r) (pending : ∀ result, r.schedule ≠ .returned result) :
    togo n (step fromStr upcoming n config r .schedule) < togo n r := by
  obtain ⟨scheduler,phase⟩ := r
  have call := inv.call
  unfold step
  cases phase with
  | entered =>
    have unknown : scheduler.states n = none := call
    simp only [scheduleTurn]
    split_ifs
    · simp only [togo,unknown]
      decide
    · simp only [togo,unknown]
      decide
  | running =>
    have unknown : scheduler.states n = none := call.1
    simp only [scheduleTurn]
    split_ifs
    · simp only [togo,unknown]
      decide
    · simp only [togo,unknown]
      decide
  | fresh =>
    have unknown : scheduler.states n = none := call.1
    simp only [scheduleTurn]
    cases spawnError fromStr upcoming scheduler.now config.trigger with
    | some error =>
      simp only [togo,unknown]
      decide
    | none =>
      simp only [togo,unknown,put_states]
      exact show 11 < 13 by decide
  | spawned =>
    obtain ⟨⟨state,known⟩,_⟩ := call
    change scheduler.states n = some state at known
    simp only [scheduleTurn,known,togo,put_states,scheduleRank]
    exact Nat.add_lt_add_right (by decide) _
  | stored =>
    obtain ⟨⟨state,known⟩,_⟩ := call
    change scheduler.states n = some state at known
    simp only [scheduleTurn,known,togo,scheduleRank]
    exact Nat.add_lt_add_right (by decide) _
  | returned result => exact absurd rfl (pending result)

/-- A step brings the end nearer, or leaves both parties where they stand. -/
theorem step_waits (r : Race) (turn : Turn) (oneShot : IsOneShot config) (inv : Inv n config r) :
    togo n (step fromStr upcoming n config r turn) < togo n r ∨
      togo n (step fromStr upcoming n config r turn) = togo n r ∧
        helpful n (step fromStr upcoming n config r turn) = helpful n r := by
  cases turn with
  | schedule =>
    by_cases returned : ∃ result, r.schedule = .returned result
    · obtain ⟨result,returned⟩ := returned
      right
      rw [step,returned]
      unfold togo helpful
      rw [returned]
      exact ⟨rfl,rfl⟩
    · exact Or.inl (schedule_lowers fromStr upcoming n r inv (fun result given => returned ⟨result,given⟩))
  | task =>
    cases known : r.scheduler.states n with
    | none =>
      rw [step,(unspawned fromStr upcoming n r.scheduler false known).1]
      exact Or.inr ⟨rfl,rfl⟩
    | some state =>
      have fits := inv.fits state known
      obtain ⟨states,_⟩ := taskTurn_reads fromStr upcoming n r.scheduler state known fits.1
      obtain ⟨_,goes⟩ := turn_fits fromStr upcoming state r.scheduler.now
        (r.scheduler.tasks config.id).isSome oneShot fits
      cases goes with
      | inl goes =>
        left
        simp only [step,togo,states,known]
        exact Nat.add_lt_add_left goes.1 _
      | inr stays =>
        right
        simp only [step,togo,helpful,states,known,stays.1]
        exact ⟨True.intro,True.intro⟩
  | handler panics =>
    cases known : r.scheduler.states n with
    | none =>
      rw [step,(unspawned fromStr upcoming n r.scheduler panics known).2]
      exact Or.inr ⟨rfl,rfl⟩
    | some state =>
      obtain ⟨states,_⟩ := handlerEnds_reads n r.scheduler state panics known
      by_cases handling : state.phase = .handling
      · left
        rw [if_pos handling] at states
        simp only [step,togo,states,known,handling]
        apply Nat.add_lt_add_left
        cases panics with
        | false => exact show 2 < 3 by decide
        | true => exact show 0 < 3 by decide
      · right
        rw [if_neg handling] at states
        simp only [step,togo,helpful,states,known]
        exact ⟨True.intro,True.intro⟩
  | tick elapsed => exact Or.inr ⟨rfl,rfl⟩

theorem helpful_lowers (r : Race) (oneShot : IsOneShot config) (inv : Inv n config r)
    (due : dueBy config ≤ r.scheduler.now) (left : 0 < togo n r) :
    togo n (step fromStr upcoming n config r (helpful n r)) < togo n r := by
  by_cases returned : ∃ result, r.schedule = .returned result
  · obtain ⟨result,returned⟩ := returned
    cases known : r.scheduler.states n with
    | none =>
      rw [togo,known,returned] at left
      cases left
    | some state =>
      have fits := inv.fits state known
      by_cases handling : state.phase = .handling
      · have turn : helpful n r = .handler false := by
          rw [helpful,returned,known,Option.map_some,handling]
        obtain ⟨states,_⟩ := handlerEnds_reads n r.scheduler state false known
        rw [if_pos handling] at states
        rw [turn]
        simp only [step,togo,states,known,handling]
        exact Nat.add_lt_add_left (show 2 < 3 by decide) _
      · have turn : helpful n r = .task := by
          rw [helpful,returned,known,Option.map_some]
          cases phase : state.phase with
          | handling => exact absurd phase handling
          | _ => rfl
        obtain ⟨states,_⟩ := taskTurn_reads fromStr upcoming n r.scheduler state known fits.1
        obtain ⟨_,goes⟩ := turn_fits fromStr upcoming state r.scheduler.now
          (r.scheduler.tasks config.id).isSome oneShot fits
        rw [turn]
        cases goes with
        | inl goes =>
          simp only [step,togo,states,known]
          exact Nat.add_lt_add_left goes.1 _
        | inr stays =>
          rcases stays with ⟨_,asleep | clash | ended⟩
          · have done := fits.2.2
            rw [asleep.1] at done
            exact absurd (Nat.le_trans done.2.2 due) (Nat.not_le_of_lt asleep.2)
          · exact absurd clash handling
          · rw [togo,known,returned] at left
            simp only [ended] at left
            cases left
  · have turn : helpful n r = .schedule := by
      cases phase : r.schedule with
      | returned result => exact absurd ⟨result,phase⟩ returned
      | _ => rw [helpful,phase]
    rw [turn]
    exact schedule_lowers fromStr upcoming n r inv (fun result given => returned ⟨result,given⟩)

theorem togo_le (r : Race) : togo n r ≤ enoughRounds := by
  have task : ∀ phase, phaseRank phase ≤ 9 := by
    intro phase
    cases phase <;> decide
  have call : ∀ phase, scheduleRank phase ≤ 5 := by
    intro phase
    cases phase with
    | returned result => exact Nat.zero_le 5
    | _ => decide
  unfold togo enoughRounds
  cases r.scheduler.states n with
  | some state =>
    have bound := Nat.add_le_add (call r.schedule) (task state.phase)
    exact Nat.le_trans bound (by decide)
  | none =>
    cases r.schedule with
    | returned result => exact Nat.zero_le 15
    | _ => decide

theorem over_of_done (r : Race) (done : togo n r = 0) : Over n r := by
  unfold togo at done
  cases known : r.scheduler.states n with
  | some state =>
    rw [known] at done
    obtain ⟨call,task⟩ := Nat.add_eq_zero_iff.mp done
    constructor
    · cases phase : r.schedule with
      | returned result => exact ⟨result,rfl⟩
      | _ =>
        rw [phase] at call
        cases call
    · intro other found
      rw [known] at found
      cases found
      cases phase : state.phase with
      | ended => rfl
      | _ =>
        rw [phase] at task
        cases task
  | none =>
    rw [known] at done
    constructor
    · cases phase : r.schedule with
      | returned result => exact ⟨result,rfl⟩
      | _ =>
        rw [phase] at done
        cases done
    · intro other found
      rw [known] at found
      cases found

theorem step_now (r : Race) (turn : Turn) : r.scheduler.now ≤ (step fromStr upcoming n config r turn).scheduler.now := by
  cases turn with
  | schedule =>
    obtain ⟨scheduler,phase⟩ := r
    unfold step scheduleTurn
    dsimp only
    split
    · split_ifs <;> exact Nat.le_refl _
    · split_ifs <;> exact Nat.le_refl _
    · split <;> exact Nat.le_refl _
    · split <;> exact Nat.le_refl _
    · exact Nat.le_refl _
    · exact Nat.le_refl _
  | task =>
    unfold step taskTurn
    dsimp only
    split
    · exact Nat.le_refl _
    · split_ifs <;> exact Nat.le_refl _
  | handler panics =>
    unfold step handlerEnds
    dsimp only
    split
    · exact Nat.le_refl _
    · split <;> exact Nat.le_refl _
  | tick elapsed => exact Nat.le_add_right _ _

theorem fair_ends (r : Race) (oneShot : IsOneShot config) (inv : Inv n config r)
    (due : dueBy config ≤ r.scheduler.now) (rounds : List (List Turn)) (fair : Fair rounds)
    (enough : enoughRounds ≤ rounds.length) :
    Over n (run (step fromStr upcoming n config) r rounds.flatten) := by
  apply over_of_done
  apply rounds_done (step fromStr upcoming n config) (togo n) (helpful n)
    (fun r => Inv n config r ∧ dueBy config ≤ r.scheduler.now)
  · intro s turn both
    exact ⟨step_inv fromStr upcoming n s turn oneShot both.1,
      Nat.le_trans both.2 (step_now fromStr upcoming n s turn)⟩
  · exact fun s both left => helpful_lowers fromStr upcoming n s oneShot both.1 both.2 left
  · exact fun s turn both => step_waits fromStr upcoming n s turn oneShot both.1
  · exact ⟨inv,due⟩
  · intro round member s
    obtain ⟨schedule,task,handler⟩ := fair round member
    unfold helpful
    split
    · split
      · exact handler
      · exact task
    · exact schedule
  · exact Nat.le_trans (togo_le n r) enough

theorem runsOnce_iff (r : Race) (oneShot : IsOneShot config) (inv : Inv n config r) :
    RunsOnce fromStr upcoming n config r ↔ Left n config r := by
  constructor
  · exact fun once state known ended => ⟨once.once state known ended,once.leaves state known ended⟩
  · intro left
    refine ⟨?_,?_,?_,?_⟩
    · exact fun due rounds fair enough => fair_ends fromStr upcoming n r oneShot inv due rounds fair enough
    · intro state known
      have done := (inv.fits state known).2.2
      cases phase : state.phase with
      | limit =>
        rw [phase] at done
        cases done
      | removing =>
        rw [phase] at done
        exact done.1
      | ended =>
        rw [phase] at done
        exact done
      | _ =>
        rw [phase] at done
        exact Nat.le_trans (Nat.le_of_eq done.1) (by decide)
    · exact fun state known ended => (left state known ended).1
    · exact fun state known ended => (left state known ended).2

variable (config)

/-- A new call, numbered `n`, on a scheduler in any state. -/
def enter (s : Scheduler) : Race := ⟨s,.entered⟩

theorem one_shot_runs_once_iff (s : Scheduler) (steps : List Turn) (oneShot : IsOneShot config)
    (new : s.states n = none) :
    Always (step fromStr upcoming n config) (RunsOnce fromStr upcoming n config) (enter s) steps ↔
      Along (step fromStr upcoming n config) (InOrder n config) (enter s) steps := by
  have start : Inv n config (enter s) := by
    refine ⟨?_,new⟩
    intro state known
    rw [enter,new] at known
    cases known
  apply always_iff_along (step fromStr upcoming n config) (InOrder n config) _ (Inv n config) (fun _ => True)
  · exact fun r turn inv _ => step_inv fromStr upcoming n r turn oneShot inv
  · intro r turn inv _ once
    have after := step_inv fromStr upcoming n r turn oneShot inv
    rw [runsOnce_iff fromStr upcoming n _ oneShot after]
    exact step_left_iff fromStr upcoming n r turn oneShot inv ((runsOnce_iff fromStr upcoming n r oneShot inv).mp once)
  · exact fun _ _ => True.intro
  · exact start
  · apply (runsOnce_iff fromStr upcoming n _ oneShot start).mpr
    intro state known
    rw [enter,new] at known
    cases known

end Race

/-! The task overtakes the call that has spawned it. -/
section Overtaken

def noCron (_ : String) : Except String Unit := .error "Invalid expression"

def never (_ : Unit) (_ : Nat) : Option Nat := none

def idle : Scheduler := ⟨6 * nanos,false,fun _ => none,fun _ => none⟩

def onceJob : TaskConfig := ⟨"job",.once 5,none⟩

def immediateJob : TaskConfig := ⟨"job",.immediate,none⟩

/-- The spawned task looks for its entry before `schedule` makes it. -/
def looksEarly : List Turn :=
  [.schedule,.schedule,.schedule,.task,.task,.schedule,.schedule]

/-- The spawned task removes its entry before `schedule` makes it. -/
def removesEarly : List Turn :=
  [.schedule,.schedule,.schedule,.task,.task,.task,.handler false,.task,.task,.schedule,.schedule]

/-- The entry is made first. -/
def looksLate : List Turn :=
  [.schedule,.schedule,.schedule,.schedule,.schedule,.task,.task,.task,.task,.handler false,.task,.task]

theorem one_shot_runs_once_iff_late :
    IsOneShot onceJob ∧ idle.states 0 = none ∧
      Always (step noCron never 0 onceJob) (RunsOnce noCron never 0 onceJob) (enter idle) looksLate := by
  have unlimited : onceJob.maxExecutions ≠ some 0 := by decide
  have along : Along (step noCron never 0 onceJob) (InOrder 0 onceJob) (enter idle) looksLate := by
    refine ⟨?_,?_,?_,?_,?_,?_,?_,?_,?_,?_,?_,?_,True.intro⟩
    all_goals
      intro state known
      cases known
    · exact fun clash => SchedulePhase.noConfusion clash
    · exact fun _ => Phase.noConfusion
    · exact ⟨fun _ => rfl,fun _ => unlimited⟩
    · exact ⟨fun _ => rfl,fun _ => unlimited⟩
    · exact ⟨fun _ => rfl,fun _ => unlimited⟩
    · exact ⟨fun _ => rfl,fun _ => unlimited⟩
    · exact fun clash => Bool.noConfusion clash
    · exact ⟨fun _ => rfl,fun _ => unlimited⟩
    · exact ⟨fun _ => rfl,fun _ => unlimited⟩
  exact ⟨True.intro,rfl,(one_shot_runs_once_iff noCron never 0 onceJob idle looksLate True.intro rfl).mpr along⟩

theorem overtaken_entry_stays :
    ¬RunsOnce noCron never 0 onceJob (run (step noCron never 0 onceJob) (enter idle) looksEarly) ∧
      ¬RunsOnce noCron never 0 immediateJob
        (run (step noCron never 0 immediateJob) (enter idle) removesEarly) := by
  constructor
  · intro once
    have none := once.once _ rfl rfl
    cases none
  · intro once
    have listed := once.leaves _ rfl rfl
    cases listed

end Overtaken
end ClawKernel.Runtime.OneShot
