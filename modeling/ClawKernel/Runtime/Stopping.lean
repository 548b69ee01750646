import ClawKernel.Runtime.Cancellation

/-! Of the calls that schedule one id one succeeds while it is listed, what runs is listed, and
what `shutdown` has stopped stays so.
-/
namespace ClawKernel.Runtime.Stopping
open Lib Lib.Runs Lib.Tables Cancellation
open TokioScheduler hiding taskTurn
open Lib.Interleaving hiding step start

/-- The task is at work or at its handler, and neither waits to begin nor for its timer. -/
def running : Phase → Bool
  | .begun => false
  | .sleeping => false
  | .ended => false
  | _ => true

section Scheduler
variable {shards : Nat} (shard : String → Fin shards)

/-- The task a call has in hand, to list it or, as it is no longer listed, to abort it. -/
def holding : Call shards → Option Nat
  | .schedule _ n .spawned => some n
  | .schedule _ n .stored => some n
  | .cancel _ _ (.taken n) => some n
  | _ => none

/-- Two calls that have scheduled one id have not both an entry left; a task that runs is listed,
and one that has not ended is listed or in the hands of a call; and after `shutdown` nothing is
listed and every task has ended. -/
structure Orderly (s : System (Shared shards) (Call shards)) : Prop where
  exclusive : ∀ k other config config' n n', k ≠ other →
    s.calls.lookup k = some (.schedule config n (.returned (.ok ()))) →
    s.calls.lookup other = some (.schedule config' n' (.returned (.ok ()))) → config.id = config'.id →
    n ∈ s.shared.removed ∨ n' ∈ s.shared.removed
  listed : ∀ n state, s.shared.states n = some state → running state.phase = true →
    s.shared.tasks.lookup state.config.id = some n
  cancellable : ∀ n state, s.shared.states n = some state → state.phase ≠ .ended →
    s.shared.tasks.lookup state.config.id = some n ∨ ∃ k call, s.calls.lookup k = some call ∧ holding call = some n
  stopped : ∀ k parked rank, s.calls.lookup k = some (.shutdown parked rank .returned) →
    (∀ id, s.shared.tasks.lookup id = none) ∧ ∀ n state, s.shared.states n = some state → state.phase = .ended

/-- The call is past what it asks of the flag or the map, and is to spawn, to list or to abort. -/
def midway : Call shards → Bool
  | .schedule _ _ .running => true
  | .schedule _ _ .fresh => true
  | .schedule _ _ .spawned => true
  | .schedule _ _ .stored => true
  | .cancel _ _ (.taken _) => true
  | _ => false

/-- The iteration has yet to come to the shard. -/
def ahead (i : Fin shards) : ShutdownPhase shards → Prop
  | .entered => True
  | .flagged => True
  | .visiting _ _ later => i ∈ later
  | _ => False

/-- The next step of the task makes it run. -/
def starts (state : TaskState) (now : Nat) : Bool :=
  match state.phase, state.config.trigger with
  | .begun, .immediate => true
  | .begun, .once unixSecs => decide (unixSecs ≤ Cron.timestamp now)
  | .sleeping, _ => decide (state.wakes ≤ now)
  | _, _ => false

/-- The task, if it has not ended, is found suspended. -/
def stops (s : Shared shards) (n : Nat) (parked : Bool) : Prop :=
  ∀ state, s.states n = some state → state.phase = .ended ∨ parked = true ∧ suspends state.phase = true

/-- An entry is made where there is none and no iteration has been, what is removed does not run, what is aborted is
suspended, and `shutdown` returns when no other call is midway. -/
def Finds (s : System (Shared shards) (Call shards)) : Call shards → Prop
  | .schedule config _ .stored => s.shared.tasks.lookup config.id = none ∧
    ∀ other parked rank phase, s.calls.lookup other = some (.shutdown parked rank phase) → ahead (shard config.id) phase
  | .cancel id _ .entered => ∀ n state, s.shared.tasks.lookup id = some n → s.shared.states n = some state →
    running state.phase = false
  | .cancel _ parked (.taken n) => stops s.shared n parked
  | .shutdown parked _ (.visiting _ (n :: _) _) => stops s.shared n (parked n)
  | .shutdown _ _ (.clearing []) => ∀ other call, s.calls.lookup other = some call → midway call = false
  | _ => True

/-- The calls find what they rely on, and a task that starts to run is listed. -/
def Exclusive (s : System (Shared shards) (Call shards)) : Turn → Prop
  | .call (.advance k) => ∀ call, s.calls.lookup k = some call → Finds shard s call
  | .task n => ∀ state, s.shared.states n = some state → starts state s.shared.now = true →
    s.shared.tasks.lookup state.config.id = some n
  | _ => True

/-! What the map and the tasks have in common at any time. -/

/-- There is a handle to abort the task with, if it has not ended. -/
def Kept (state : TaskState) : Prop := state.handle = true ∨ state.phase = .ended

def Ended (s : Shared shards) (n : Nat) : Prop := ∀ state, s.states n = some state → state.phase = .ended

structure Ledger (s : Shared shards) : Prop where
  entries : ∀ id n, s.tasks.lookup id = some n → ∃ state, s.states n = some state ∧ state.config.id = id ∧ Kept state
  issued : ∀ n state, s.states n = some state → n < s.issued
  removed : ∀ n ∈ s.removed, n < s.issued ∧ ∀ id, s.tasks.lookup id ≠ some n
  listed : ∀ n state, s.states n = some state → running state.phase = true → s.tasks.lookup state.config.id = some n

/-- The task is spawned and not yet listed. -/
structure Unlisted (s : Shared shards) (config : TaskConfig) (n : Nat) : Prop where
  there : ∃ state, s.states n = some state ∧ state.config.id = config.id
  new : n ∉ s.removed
  absent : ∀ id, s.tasks.lookup id ≠ some n

/-- What a call knows of the map and the tasks. -/
def Sound (s : Shared shards) : Call shards → Prop
  | .schedule config n .spawned => Unlisted s config n
  | .schedule config n .stored => Unlisted s config n ∧ ∃ state, s.states n = some state ∧ Kept state
  | .schedule config n (.returned (.ok ())) =>
    n < s.issued ∧ (n ∈ s.removed ∨ s.tasks.lookup config.id = some n)
  | .cancel _ _ (.taken n) => ∃ state, s.states n = some state ∧ Kept state
  | .shutdown _ _ .flagged => s.shutdown = true
  | .shutdown _ _ (.visiting i left later) => s.shutdown = true ∧ ∀ id n, s.tasks.lookup id = some n →
    shard id ∉ later → (shard id = i → n ∉ left) → Ended s n
  | .shutdown _ _ (.clearing left) => s.shutdown = true ∧ ∀ id n, s.tasks.lookup id = some n →
    shard id ∈ left ∧ Ended s n
  | .shutdown _ _ .returned => s.shutdown = true ∧ ∀ id, s.tasks.lookup id = none
  | _ => True

/-- The number a `schedule` call has given to its task. -/
def number : Call shards → Option Nat
  | .schedule _ n .spawned => some n
  | .schedule _ n .stored => some n
  | .schedule _ n (.returned (.ok ())) => some n
  | _ => none

def isReturned : Call shards → Bool
  | .shutdown _ _ .returned => true
  | _ => false

structure Inv (s : System (Shared shards) (Call shards)) : Prop where
  ledger : Ledger s.shared
  sound : ∀ k call, s.calls.lookup k = some call → Sound shard s.shared call
  apart : ∀ k other call call' n, s.calls.lookup k = some call → s.calls.lookup other = some call' →
    number call = some n → number call' = some n → k = other
  alive : ∀ n state, s.shared.states n = some state → state.phase ≠ .ended →
    s.shared.tasks.lookup state.config.id = some n ∨ ∃ k call, s.calls.lookup k = some call ∧ holding call = some n
  final : ∀ k call, s.calls.lookup k = some call → isReturned call = true →
    ∀ other call', s.calls.lookup other = some call' → midway call' = false

theorem sound_number (s : Shared shards) (call : Call shards) (n : Nat) (ledger : Ledger s) (sound : Sound shard s call)
    (has : number call = some n) : n < s.issued := by
  unfold number at has
  split at has
  · cases has
    obtain ⟨state,found,_⟩ := sound.there
    exact ledger.issued n state found
  · cases has
    obtain ⟨state,found,_⟩ := sound.1.there
    exact ledger.issued n state found
  · cases has
    exact sound.1
  · cases has

theorem midway_of_holding (call : Call shards) (n : Nat) (holds : holding call = some n) : midway call = true := by
  unfold holding at holds
  split at holds
  · rfl
  · rfl
  · rfl
  · cases holds

theorem midway_of_returned (call : Call shards) (returned : isReturned call = true) : midway call = false := by
  unfold isReturned at returned
  split at returned
  · rfl
  · cases returned

theorem orderly_of_inv (s : System (Shared shards) (Call shards)) (inv : Inv shard s) : Orderly s := by
  refine ⟨?_,inv.ledger.listed,inv.alive,?_⟩
  · intro k other config config' n n' distinct found found' same
    obtain ⟨_,gone | there⟩ := inv.sound k _ found
    · exact Or.inl gone
    · obtain ⟨_,gone' | there'⟩ := inv.sound other _ found'
      · exact Or.inr gone'
      · rw [same,there'] at there
        cases there
        exact absurd (inv.apart k other _ _ n found found' rfl rfl) distinct
  · intro k parked rank found
    have empty : ∀ id, s.shared.tasks.lookup id = none := (inv.sound k _ found).2
    refine ⟨empty,fun n state there => ?_⟩
    by_contra alive
    rcases inv.alive n state there alive with listed | ⟨other,call,found',holds⟩
    · rw [empty] at listed
      cases listed
    · exact Bool.noConfusion ((inv.final k _ found rfl other call found').symm.trans (midway_of_holding call n holds))

/-! What a step leaves as it was. -/

/-- What becomes of a task: it keeps its handle or ends, does not come back, and runs only if it did or is listed. -/
structure Evolved (listed : Prop) (state after : TaskState) : Prop where
  config : after.config = state.config
  kept : Kept state → Kept after
  ended : state.phase = .ended → after.phase = .ended
  running : running after.phase = true → running state.phase = true ∨ listed

theorem evolved_refl (listed : Prop) (state : TaskState) : Evolved listed state state := ⟨rfl,id,id,Or.inl⟩

/-- Entries may go, to `removed`, and `added` says which come; what the calls know of the tasks stays true. -/
structure Frame (added : String → Nat → Prop) (s after : Shared shards) : Prop where
  flag : s.shutdown = true → after.shutdown = true
  issued : s.issued ≤ after.issued
  states : ∀ n state, s.states n = some state → ∃ state', after.states n = some state' ∧
    state'.config = state.config ∧ (Kept state → Kept state') ∧ (state.phase = .ended → state'.phase = .ended)
  old : ∀ n state', after.states n = some state' → s.issued ≤ n ∨ ∃ state, s.states n = some state
  stays : ∀ id n, s.tasks.lookup id = some n → after.tasks.lookup id = some n ∨ n ∈ after.removed
  enters : ∀ id n, after.tasks.lookup id = some n → s.tasks.lookup id = some n ∨ added id n
  gone : ∀ n ∈ s.removed, n ∈ after.removed
  removed : ∀ n ∈ after.removed, n ∈ s.removed ∨ ∃ id, s.tasks.lookup id = some n

/-- No entry comes. -/
def Nothing : String → Nat → Prop := fun _ _ => False

theorem ended_frame (added : String → Nat → Prop) (s after : Shared shards) (n : Nat) (frame : Frame added s after)
    (there : ∃ state, s.states n = some state) (ended : Ended s n) : Ended after n := by
  obtain ⟨state,known⟩ := there
  intro state' known'
  obtain ⟨state'',known'',_,_,stays⟩ := frame.states n state known
  rw [known'] at known''
  cases known''
  exact stays (ended state known)

theorem unlisted_frame (added : String → Nat → Prop) (s after : Shared shards) (config : TaskConfig) (n : Nat)
    (frame : Frame added s after) (other : ∀ id, ¬added id n) (unlisted : Unlisted s config n) :
    Unlisted after config n := by
  obtain ⟨state,known,named⟩ := unlisted.there
  obtain ⟨state',known',same,_⟩ := frame.states n state known
  refine ⟨⟨state',known',(congrArg TaskConfig.id same).trans named⟩,?_,?_⟩
  · intro member
    rcases frame.removed n member with before | ⟨id,listed⟩
    · exact unlisted.new before
    · exact unlisted.absent id listed
  · intro id listed
    rcases frame.enters id n listed with before | comes
    · exact unlisted.absent id before
    · exact other id comes

theorem kept_frame (added : String → Nat → Prop) (s after : Shared shards) (n : Nat) (frame : Frame added s after)
    (has : ∃ state, s.states n = some state ∧ Kept state) : ∃ state, after.states n = some state ∧ Kept state := by
  obtain ⟨state,known,kept⟩ := has
  obtain ⟨state',known',_,keeps,_⟩ := frame.states n state known
  exact ⟨state',known',keeps kept⟩

/-- A call that has not itself moved knows what it knew: what comes into the map is not its task, and comes where its
iteration has yet to be. -/
theorem sound_frame (added : String → Nat → Prop) (s after : Shared shards) (call : Call shards) (ledger : Ledger s)
    (frame : Frame added s after) (other : ∀ id n, added id n → number call ≠ some n)
    (before : ∀ id n parked rank phase, added id n → call = .shutdown parked rank phase → ahead (shard id) phase)
    (sound : Sound shard s call) : Sound shard after call := by
  have ends : ∀ id n, s.tasks.lookup id = some n → Ended s n → Ended after n := by
    intro id n listed ended
    obtain ⟨state,known,_⟩ := ledger.entries id n listed
    exact ended_frame added s after n frame ⟨state,known⟩ ended
  cases call with
  | schedule config n phase =>
    cases phase with
    | spawned => exact unlisted_frame added s after config n frame (fun id comes => other id n comes rfl) sound
    | stored =>
      exact ⟨unlisted_frame added s after config n frame (fun id comes => other id n comes rfl) sound.1,
        kept_frame added s after n frame sound.2⟩
    | returned result =>
      cases result with
      | error _ => trivial
      | ok _ =>
        refine ⟨Nat.lt_of_lt_of_le sound.1 frame.issued,?_⟩
        rcases sound.2 with gone | listed
        · exact Or.inl (frame.gone n gone)
        · exact (frame.stays config.id n listed).symm
    | _ => trivial
  | cancel id parked phase =>
    cases phase with
    | taken n => exact kept_frame added s after n frame sound
    | _ => trivial
  | shutdown parked rank phase =>
    cases phase with
    | entered => trivial
    | flagged => exact frame.flag sound
    | visiting i left later =>
      refine ⟨frame.flag sound.1,fun id n listed past done => ?_⟩
      rcases frame.enters id n listed with old | comes
      · exact ends id n old (sound.2 id n old past done)
      · exact absurd (before id n parked rank _ comes rfl) past
    | clearing left =>
      refine ⟨frame.flag sound.1,fun id n listed => ?_⟩
      rcases frame.enters id n listed with old | comes
      · exact ⟨(sound.2 id n old).1,ends id n old (sound.2 id n old).2⟩
      · exact (before id n parked rank _ comes rfl).elim
    | returned =>
      refine ⟨frame.flag sound.1,fun id => ?_⟩
      cases listed : after.tasks.lookup id with
      | none => rfl
      | some n =>
        rcases frame.enters id n listed with old | comes
        · rw [sound.2] at old
          cases old
        · exact (before id n parked rank _ comes rfl).elim

/-- The map is as it was, and so is every task or it has gone on. -/
structure Evolves (s after : Shared shards) : Prop where
  flag : s.shutdown = true → after.shutdown = true
  tasks : after.tasks = s.tasks
  issued : after.issued = s.issued
  removed : after.removed = s.removed
  states : ∀ n, after.states n = s.states n ∨ ∃ state state', s.states n = some state ∧ after.states n = some state' ∧
    Evolved (s.tasks.lookup state.config.id = some n) state state'

theorem evolves_known (s after : Shared shards) (evolves : Evolves s after) (n : Nat) (state' : TaskState)
    (known' : after.states n = some state') :
    ∃ state, s.states n = some state ∧ Evolved (s.tasks.lookup state.config.id = some n) state state' := by
  rcases evolves.states n with same | ⟨state,state'',known,known'',evolved⟩
  · exact ⟨state',same ▸ known',evolved_refl _ state'⟩
  · rw [known'] at known''
    cases known''
    exact ⟨state,known,evolved⟩

theorem evolves_forward (s after : Shared shards) (evolves : Evolves s after) (n : Nat) (state : TaskState)
    (known : s.states n = some state) :
    ∃ state', after.states n = some state' ∧ Evolved (s.tasks.lookup state.config.id = some n) state state' := by
  rcases evolves.states n with same | ⟨state',state'',known',known'',evolved⟩
  · exact ⟨state,same.trans known,evolved_refl _ state⟩
  · rw [known] at known'
    cases known'
    exact ⟨state'',known'',evolved⟩

theorem evolves_frame (s after : Shared shards) (evolves : Evolves s after) : Frame Nothing s after where
  flag := evolves.flag
  issued := evolves.issued.ge
  states := fun n state known => by
    obtain ⟨state',known',evolved⟩ := evolves_forward s after evolves n state known
    exact ⟨state',known',evolved.config,evolved.kept,evolved.ended⟩
  old := fun n state' known' => by
    obtain ⟨state,known,_⟩ := evolves_known s after evolves n state' known'
    exact Or.inr ⟨state,known⟩
  stays := fun id n listed => Or.inl (evolves.tasks ▸ listed)
  enters := fun id n listed => Or.inl (evolves.tasks ▸ listed)
  gone := fun n member => evolves.removed ▸ member
  removed := fun n member => Or.inl (evolves.removed ▸ member)

theorem evolves_ledger (s after : Shared shards) (evolves : Evolves s after) (ledger : Ledger s) : Ledger after := by
  refine ⟨?_,?_,?_,?_⟩
  · intro id n listed
    rw [evolves.tasks] at listed
    obtain ⟨state,known,named,kept⟩ := ledger.entries id n listed
    obtain ⟨state',known',evolved⟩ := evolves_forward s after evolves n state known
    exact ⟨state',known',(congrArg TaskConfig.id evolved.config).trans named,evolved.kept kept⟩
  · intro n state' known'
    obtain ⟨state,known,_⟩ := evolves_known s after evolves n state' known'
    rw [evolves.issued]
    exact ledger.issued n state known
  · intro n member
    rw [evolves.removed] at member
    rw [evolves.issued,evolves.tasks]
    exact ledger.removed n member
  · intro n state' known' runs
    obtain ⟨state,known,evolved⟩ := evolves_known s after evolves n state' known'
    rw [evolves.tasks,evolved.config]
    rcases evolved.running runs with before | listed
    · exact ledger.listed n state known before
    · exact listed

/-- Entries of tasks that do not run are taken out of the map. -/
structure Drops (s after : Shared shards) : Prop where
  flag : after.shutdown = s.shutdown
  issued : after.issued = s.issued
  states : after.states = s.states
  fewer : ∀ id n, after.tasks.lookup id = some n → s.tasks.lookup id = some n
  stays : ∀ id n, s.tasks.lookup id = some n → after.tasks.lookup id = some n ∨ n ∈ after.removed ∧
    ∀ state, s.states n = some state → running state.phase = false
  gone : ∀ n ∈ s.removed, n ∈ after.removed
  removed : ∀ n ∈ after.removed, n ∈ s.removed ∨ ∃ id, s.tasks.lookup id = some n ∧ after.tasks.lookup id = none

theorem drops_frame (s after : Shared shards) (drops : Drops s after) : Frame Nothing s after where
  flag := fun up => drops.flag.trans up
  issued := drops.issued.ge
  states := fun n state known => ⟨state,(congrFun drops.states n).trans known,rfl,id,id⟩
  old := fun n state' known' => Or.inr ⟨state',(congrFun drops.states n).symm.trans known'⟩
  stays := fun id n listed => (drops.stays id n listed).imp_right And.left
  enters := fun id n listed => Or.inl (drops.fewer id n listed)
  gone := drops.gone
  removed := fun n member => (drops.removed n member).imp_right fun ⟨id,listed,_⟩ => ⟨id,listed⟩

/-- A task is listed under its own id only. -/
theorem listed_once (s : Shared shards) (ledger : Ledger s) (id other : String) (n : Nat)
    (listed : s.tasks.lookup id = some n) (listed' : s.tasks.lookup other = some n) : id = other := by
  obtain ⟨state,known,named,_⟩ := ledger.entries id n listed
  obtain ⟨state',known',named',_⟩ := ledger.entries other n listed'
  rw [known] at known'
  cases known'
  exact named.symm.trans named'

theorem drops_ledger (s after : Shared shards) (drops : Drops s after) (ledger : Ledger s) : Ledger after := by
  refine ⟨?_,?_,?_,?_⟩
  · intro id n listed
    rw [drops.states]
    exact ledger.entries id n (drops.fewer id n listed)
  · intro n state known
    rw [drops.states] at known
    rw [drops.issued]
    exact ledger.issued n state known
  · intro n member
    rw [drops.issued]
    rcases drops.removed n member with before | ⟨id,listed,absent⟩
    · exact ⟨(ledger.removed n before).1,fun other listed =>
        (ledger.removed n before).2 other (drops.fewer other n listed)⟩
    · obtain ⟨state,known,_⟩ := ledger.entries id n listed
      refine ⟨ledger.issued n state known,fun other listed' => ?_⟩
      rw [listed_once s ledger id other n listed (drops.fewer other n listed'),listed'] at absent
      cases absent
  · intro n state known runs
    rw [drops.states] at known
    rcases drops.stays _ n (ledger.listed n state known runs) with stays | ⟨_,quiet⟩
    · exact stays
    · rw [quiet state known] at runs
      cases runs

/-! What the calls and the tasks leave as it was. -/

/-- Nothing changes but the clock, the iterations and the flag, which may be set. -/
theorem evolves_still (s after : Shared shards) (flag : s.shutdown = true → after.shutdown = true)
    (tasks : after.tasks = s.tasks) (issued : after.issued = s.issued) (removed : after.removed = s.removed)
    (states : after.states = s.states) :
    Evolves s after := ⟨flag,tasks,issued,removed,fun n => Or.inl (congrFun states n)⟩

theorem evolves_refl (s : Shared shards) : Evolves s s := evolves_still s s id rfl rfl rfl rfl

theorem evolves_put (s : Shared shards) (n : Nat) (state state' : TaskState) (known : s.states n = some state)
    (evolved : Evolved (s.tasks.lookup state.config.id = some n) state state') : Evolves s (s.put n state') := by
  refine ⟨id,rfl,rfl,rfl,fun m => ?_⟩
  by_cases same : m = n
  · subst same
    exact Or.inr ⟨state,state',known,put_self s m state',evolved⟩
  · exact Or.inl (put_other s n m state' same)

theorem evolved_ended (listed : Prop) (state after : TaskState) (same : after.config = state.config)
    (ended : after.phase = .ended) : Evolved listed state after := by
  refine ⟨same,fun _ => Or.inr ended,fun _ => ended,fun runs => ?_⟩
  rw [ended] at runs
  cases runs

/-- A task that is stopped keeps its handle or ends by it. -/
theorem takeHandle_evolves (s : Shared shards) (n : Nat) (parked : Bool) (met : stops s n parked) :
    Evolves s (takeHandle s n parked) := by
  unfold takeHandle
  split
  · exact evolves_refl s
  · rename_i state known
    split
    · unfold abort
      split
      · rename_i ended
        exact evolves_put s n state _ known (evolved_ended _ state _ rfl ended)
      · rename_i alive
        rcases met state known with ended | ⟨waits,suspended⟩
        · exact absurd ended alive
        · rw [if_pos (by rw [waits,suspended]; rfl)]
          exact evolves_put s n state _ known (evolved_ended _ state _ rfl rfl)
    · exact evolves_refl s

theorem takeHandle_ends (s : Shared shards) (n : Nat) (parked : Bool) (met : stops s n parked)
    (kept : ∃ state, s.states n = some state ∧ Kept state) : Ended (takeHandle s n parked) n := by
  obtain ⟨state,known,kept⟩ := kept
  intro state' known'
  rw [takeHandle,known] at known'
  dsimp only at known'
  split at known'
  · unfold abort at known'
    split at known'
    · rename_i ended
      rw [put_self] at known'
      cases known'
      exact ended
    · rename_i alive
      rcases met state known with ended | ⟨waits,suspended⟩
      · exact absurd ended alive
      · rw [if_pos (by rw [waits,suspended]; rfl),put_self] at known'
        cases known'
        rfl
  · rename_i taken
    rw [known] at known'
    cases known'
    exact kept.resolve_left taken

theorem remove_drops (s : Shared shards) (id : String)
    (quiet : ∀ n state, s.tasks.lookup id = some n → s.states n = some state → running state.phase = false) :
    Drops s (s.remove id) := by
  refine ⟨rfl,rfl,rfl,?_,?_,?_,?_⟩
  · exact fun other n listed => (lookup_of_erase s.tasks id other n listed).2
  · intro other n listed
    by_cases same : other = id
    · subst same
      refine Or.inr ⟨List.mem_append_right _ ?_,fun state known => quiet n state listed known⟩
      rw [listed]
      exact List.mem_singleton_self n
    · exact Or.inl ((lookup_erase_if s.tasks id other).trans ((if_neg same).trans listed))
  · exact fun n member => List.mem_append_left _ member
  · intro n member
    rcases List.mem_append.mp member with before | taken
    · exact Or.inl before
    · exact Or.inr ⟨id,Option.mem_toList.mp taken,AList.lookup_erase id s.tasks⟩

theorem lookup_clearShard (s : Shared shards) (i : Fin shards) (id : String) (n : Nat) :
    (clearShard shard s i).tasks.lookup id = some n ↔ s.tasks.lookup id = some n ∧ shard id ≠ i := by
  unfold clearShard
  rw [lookup_retain (fun id _ => shard id ≠ i) s.tasks id,Option.filter_eq_some_iff,decide_eq_true_iff]

theorem clearShard_drops (s : Shared shards) (i : Fin shards)
    (ended : ∀ id n, s.tasks.lookup id = some n → Ended s n) : Drops s (clearShard shard s i) := by
  refine ⟨rfl,rfl,rfl,?_,?_,?_,?_⟩
  · exact fun id n listed => ((lookup_clearShard shard s i id n).mp listed).1
  · intro id n listed
    by_cases here : shard id = i
    · refine Or.inr ⟨List.mem_append_right _ (List.mem_map.mpr ⟨⟨id,n⟩,?_,rfl⟩),fun state known => ?_⟩
      · exact List.mem_filter.mpr ⟨(entry_iff s.tasks id n).mpr listed,decide_eq_true here⟩
      · rw [ended id n listed state known]
        rfl
    · exact Or.inl ((lookup_clearShard shard s i id n).mpr ⟨listed,here⟩)
  · exact fun n member => List.mem_append_left _ member
  · intro n member
    rcases List.mem_append.mp member with before | taken
    · exact Or.inl before
    · obtain ⟨entry,picked,rfl⟩ := List.mem_map.mp taken
      obtain ⟨present,here⟩ := List.mem_filter.mp picked
      refine Or.inr ⟨entry.1,(entry_iff s.tasks entry.1 entry.2).mp present,?_⟩
      cases left : (clearShard shard s i).tasks.lookup entry.1 with
      | none => rfl
      | some m => exact absurd (of_decide_eq_true here) ((lookup_clearShard shard s i entry.1 m).mp left).2

theorem mem_visits (s : Shared shards) (rank : String → Nat) (id : String) (n : Nat)
    (listed : s.tasks.lookup id = some n) : n ∈ visits shard s rank (shard id) := by
  unfold visits
  refine List.mem_map.mpr ⟨⟨id,n⟩,(List.mem_insertionSort _).mpr ?_,rfl⟩
  exact List.mem_filter.mpr ⟨(entry_iff s.tasks id n).mpr listed,decide_eq_true rfl⟩

theorem nextShard_evolves (s : Shared shards) (rank : String → Nat) (held : Option (Fin shards))
    (later : List (Fin shards)) :
    Evolves s (nextShard shard s rank held later).1 := by
  cases later with
  | nil => cases held <;> exact evolves_still s _ id rfl rfl rfl rfl
  | cons i later => cases held <;> exact evolves_still s _ id rfl rfl rfl rfl

theorem nextShard_goes (s : Shared shards) (parked : Nat → Bool) (rank : String → Nat) (held : Option (Fin shards))
    (later : List (Fin shards)) : isReturned (.shutdown parked rank (nextShard shard s rank held later).2) = false := by
  cases later with
  | nil => rfl
  | cons i later => rfl

/-- The iteration has ended the tasks of the shards it does not come to any more. -/
theorem nextShard_sound (s : Shared shards) (parked : Nat → Bool) (rank : String → Nat) (held : Option (Fin shards))
    (later : List (Fin shards)) (flag : s.shutdown = true)
    (done : ∀ id n, s.tasks.lookup id = some n → shard id ∉ later → Ended s n) :
    Sound shard (nextShard shard s rank held later).1 (.shutdown parked rank (nextShard shard s rank held later).2) := by
  cases later with
  | nil => cases held <;> exact ⟨flag,fun id n listed => ⟨List.mem_finRange _,done id n listed List.not_mem_nil⟩⟩
  | cons i later =>
    have past : ∀ id n, s.tasks.lookup id = some n → shard id ∉ later →
        (shard id = i → n ∉ visits shard s rank i) → Ended s n := by
      intro id n listed absent unvisited
      apply done id n listed
      intro member
      rcases List.mem_cons.mp member with here | there
      · exact unvisited here (here ▸ mem_visits shard s rank id n listed)
      · exact absent there
    cases held <;> exact ⟨flag,past⟩

/-- From where it waits a task comes to run only as `starts` says. -/
theorem turn_running {Schedule : Type} (fromStr : String → Except String Schedule) (upcoming : Schedule → Nat → Option Nat)
    (state : TaskState) (now : Nat) (listed : Bool)
    (runs : running (state.turn fromStr upcoming now listed).phase = true) :
    running state.phase = true ∨ starts state now = true := by
  unfold TaskState.turn at runs
  cases phase : state.phase with
  | begun =>
    rw [phase] at runs
    right
    unfold starts
    rw [phase]
    unfold TaskState.spawned TaskState.nextOccurrence at runs
    dsimp only at runs
    split at runs
    · cases runs
    · cases runs
    · split at runs
      · cases runs
      · split at runs <;> cases runs
    · rename_i unixSecs once
      split at runs
      · cases runs
      · rename_i due
        rw [once]
        exact decide_eq_true (Nat.le_of_not_lt due)
    · rename_i immediate
      rw [immediate]
  | sleeping =>
    rw [phase] at runs
    right
    unfold starts
    rw [phase]
    dsimp only at runs
    split at runs
    · exact decide_eq_true ‹_›
    · rw [phase] at runs
      cases runs
  | ended =>
    rw [phase] at runs
    dsimp only at runs
    rw [phase] at runs
    cases runs
  | _ => exact Or.inl rfl

theorem turn_handle {Schedule : Type} (fromStr : String → Except String Schedule) (upcoming : Schedule → Nat → Option Nat)
    (state : TaskState) (now : Nat) (listed : Bool) : (state.turn fromStr upcoming now listed).handle = state.handle := by
  unfold TaskState.turn TaskState.spawned TaskState.wake TaskState.looked TaskState.left
    TaskState.nextOccurrence TaskState.start
  grind

theorem turn_evolved {Schedule : Type} (fromStr : String → Except String Schedule) (upcoming : Schedule → Nat → Option Nat)
    (state : TaskState) (now : Nat) (found : Bool) (listed : Prop) (met : starts state now = true → listed) :
    Evolved listed state (state.turn fromStr upcoming now found) := by
  have stays : state.phase = .ended → (state.turn fromStr upcoming now found).phase = .ended := by
    intro ended
    unfold TaskState.turn
    rw [ended]
    exact ended
  refine ⟨(Executions.turn_keeps fromStr upcoming state now found).1,?_,stays,?_⟩
  · rintro (handle | ended)
    · exact Or.inl ((turn_handle fromStr upcoming state now found).trans handle)
    · exact Or.inr (stays ended)
  · exact fun runs => (turn_running fromStr upcoming state now found runs).imp id met

/-! What a step keeps of the whole. -/

def Held (calls : Table Nat (Call shards)) (n : Nat) : Prop :=
  ∃ k call, calls.lookup k = some call ∧ holding call = some n

/-- The task has ended or is listed. -/
def Placed (s : Shared shards) (n : Nat) : Prop :=
  ∀ state, s.states n = some state → state.phase = .ended ∨ s.tasks.lookup state.config.id = some n

theorem alive_frame (added : String → Nat → Prop) (s after : Shared shards) (held held' : Nat → Prop)
    (frame : Frame added s after)
    (alive : ∀ n state, s.states n = some state → state.phase ≠ .ended →
      s.tasks.lookup state.config.id = some n ∨ held n)
    (born : ∀ n state, s.issued ≤ n → after.states n = some state → held' n)
    (listed : ∀ id n, s.tasks.lookup id = some n → Placed after n ∨ held' n)
    (handed : ∀ n, held n → Placed after n ∨ held' n)
    (n : Nat) (state' : TaskState) (known' : after.states n = some state') (left : state'.phase ≠ .ended) :
    after.tasks.lookup state'.config.id = some n ∨ held' n := by
  have placed : Placed after n ∨ held' n := by
    rcases frame.old n state' known' with new | ⟨state,known⟩
    · exact Or.inr (born n state' new known')
    · obtain ⟨state'',known'',_,_,ended⟩ := frame.states n state known
      rw [known'] at known''
      cases known''
      rcases alive n state known (fun ends => left (ended ends)) with there | held
      · exact listed _ n there
      · exact handed n held
  exact placed.imp (fun either => (either state' known').resolve_left left) id

theorem frame_placed (s after : Shared shards) (ledger : Ledger s) (frame : Frame Nothing s after)
    (id : String) (n : Nat) (listed : s.tasks.lookup id = some n)
    (stays : after.tasks.lookup id = some n ∨ Ended after n) : Placed after n := by
  intro state' known'
  obtain ⟨state,known,named,_⟩ := ledger.entries id n listed
  obtain ⟨state'',known'',same,_⟩ := frame.states n state known
  rw [known'] at known''
  cases known''
  rcases stays with there | ended
  · rw [same,named]
    exact Or.inr there
  · exact Or.inl (ended state' known')

theorem evolves_placed (s after : Shared shards) (ledger : Ledger s) (evolves : Evolves s after) (id : String) (n : Nat)
    (listed : s.tasks.lookup id = some n) : Placed after n :=
  frame_placed s after ledger (evolves_frame s after evolves) id n listed (Or.inl (evolves.tasks ▸ listed))

/-- Where no call moves it is enough that no task is lost that has not ended. -/
theorem inv_shared (s : System (Shared shards) (Call shards)) (after : Shared shards) (inv : Inv shard s)
    (frame : Frame Nothing s.shared after) (ledger : Ledger after)
    (born : ∀ n state, s.shared.issued ≤ n → after.states n ≠ some state)
    (placed : ∀ id n, s.shared.tasks.lookup id = some n → Placed after n) : Inv shard ⟨after,s.calls⟩ := by
  refine ⟨ledger,?_,inv.apart,?_,inv.final⟩
  · exact fun k call found => sound_frame shard Nothing s.shared after call inv.ledger frame (fun _ _ comes => comes.elim)
      (fun _ _ _ _ _ comes => comes.elim) (inv.sound k call found)
  · exact alive_frame Nothing s.shared after (Held s.calls) (Held s.calls) frame inv.alive
      (fun n state new known => absurd known (born n state new)) (fun id n listed => Or.inl (placed id n listed))
      (fun _ held => Or.inr held)

theorem inv_evolves (s : System (Shared shards) (Call shards)) (after : Shared shards) (inv : Inv shard s)
    (evolves : Evolves s.shared after) : Inv shard ⟨after,s.calls⟩ := by
  apply inv_shared shard s after inv (evolves_frame _ _ evolves) (evolves_ledger _ _ evolves inv.ledger)
  · intro n state new known
    obtain ⟨state',known',_⟩ := evolves_known _ _ evolves n state known
    exact absurd (inv.ledger.issued n state' known') (Nat.not_lt.mpr new)
  · exact evolves_placed _ _ inv.ledger evolves

/-- What is to be shown of a call that moves on: the others keep what they know. -/
structure Moves (added : String → Nat → Prop) (s : System (Shared shards) (Call shards)) (k : Nat) (call : Call shards)
    (after : Shared shards) (call' : Call shards) : Prop where
  frame : Frame added s.shared after
  ledger : Ledger after
  sound : Sound shard after call'
  own : ∀ id n, added id n → number call = some n
  before : ∀ id n other parked rank phase, added id n → s.calls.lookup other = some (.shutdown parked rank phase) →
    ahead (shard id) phase
  number : ∀ n, number call' = some n → number call = some n ∨ s.shared.issued ≤ n
  born : ∀ n state, s.shared.issued ≤ n → after.states n = some state → holding call' = some n
  listed : ∀ id n, s.shared.tasks.lookup id = some n → Placed after n ∨ holding call' = some n
  handed : ∀ n, holding call = some n → Placed after n ∨ holding call' = some n
  midway : midway call' = true → midway call = true ∨
    ∀ other call'', s.calls.lookup other = some call'' → isReturned call'' = false
  returned : isReturned call' = true → isReturned call = true ∨
    ∀ other call'', s.calls.lookup other = some call'' → Stopping.midway call'' = false

theorem inv_moves (added : String → Nat → Prop) (s : System (Shared shards) (Call shards)) (k : Nat) (call : Call shards)
    (after : Shared shards) (call' : Call shards) (inv : Inv shard s) (found : s.calls.lookup k = some call)
    (moves : Moves shard added s k call after call') : Inv shard ⟨after,s.calls.insert k call'⟩ := by
  refine ⟨moves.ledger,?_,?_,?_,?_⟩
  · intro other call'' found'
    rcases lookup_of_insert s.calls k other _ call'' found' with ⟨rfl,rfl⟩ | ⟨apart,found'⟩
    · exact moves.sound
    · apply sound_frame shard added s.shared after call'' inv.ledger moves.frame _ _ (inv.sound other call'' found')
      · exact fun id n comes same => apart (inv.apart other k call'' call n found' found same (moves.own id n comes))
      · rintro id n parked rank phase comes rfl
        exact moves.before id n other parked rank phase comes found'
  · have fresh : ∀ other call'' n, other ≠ k → s.calls.lookup other = some call'' → number call' = some n →
        number call'' ≠ some n := by
      intro other call'' n apart found' mine same
      rcases moves.number n mine with earlier | new
      · exact apart (inv.apart other k call'' call n found' found same earlier)
      · have below := sound_number shard s.shared call'' n inv.ledger (inv.sound other call'' found') same
        exact absurd below (Nat.not_lt.mpr new)
    intro j other first second n found' found'' same same'
    rcases lookup_of_insert s.calls k j _ first found' with ⟨here,rfl⟩ | ⟨apart,old⟩
    · rcases lookup_of_insert s.calls k other _ second found'' with ⟨here',_⟩ | ⟨apart',old'⟩
      · exact here.trans here'.symm
      · exact absurd same' (fresh other second n apart' old' same)
    · rcases lookup_of_insert s.calls k other _ second found'' with ⟨_,rfl⟩ | ⟨_,old'⟩
      · exact absurd same (fresh j first n apart old same')
      · exact inv.apart j other first second n old old' same same'
  · have mine : ∀ n, holding call' = some n → Held (s.calls.insert k call') n :=
      fun n holds => ⟨k,call',AList.lookup_insert s.calls,holds⟩
    apply alive_frame added s.shared after (Held s.calls) (Held (s.calls.insert k call')) moves.frame inv.alive
      (fun n state new known => mine n (moves.born n state new known))
      (fun name n listed => (moves.listed name n listed).imp id (mine n))
    rintro n ⟨other,call'',found',holds⟩
    by_cases same : other = k
    · subst same
      rw [found] at found'
      cases found'
      exact (moves.handed n holds).imp id (mine n)
    · exact Or.inr ⟨other,call'',(AList.lookup_insert_ne same).trans found',holds⟩
  · intro j first found' returned other second found''
    rcases lookup_of_insert s.calls k j _ first found' with ⟨_,rfl⟩ | ⟨_,old⟩
    · rcases lookup_of_insert s.calls k other _ second found'' with ⟨_,rfl⟩ | ⟨_,old'⟩
      · exact midway_of_returned _ returned
      · rcases moves.returned returned with before | quiet
        · exact inv.final k call found before other second old'
        · exact quiet other second old'
    · rcases lookup_of_insert s.calls k other _ second found'' with ⟨_,rfl⟩ | ⟨_,old'⟩
      · by_contra between
        rcases moves.midway (Bool.eq_true_of_not_eq_false between) with before | none
        · rw [inv.final j first old returned k call found] at before
          cases before
        · rw [none j first old] at returned
          cases returned
      · exact inv.final j first old returned other second old'

/-- A call that moves on while the map and the tasks stay, or the tasks go on. -/
theorem moves_evolves (s : System (Shared shards) (Call shards)) (k : Nat) (call : Call shards) (after : Shared shards)
    (call' : Call shards) (inv : Inv shard s) (evolves : Evolves s.shared after) (sound : Sound shard after call')
    (same : ∀ n, number call' = some n → number call = some n)
    (handed : ∀ n, holding call = some n → Placed after n ∨ holding call' = some n)
    (between : midway call' = true → midway call = true ∨
      ∀ other call'', s.calls.lookup other = some call'' → isReturned call'' = false)
    (returned : isReturned call' = true → isReturned call = true ∨
      ∀ other call'', s.calls.lookup other = some call'' → midway call'' = false) :
    Moves shard Nothing s k call after call' where
  frame := evolves_frame _ _ evolves
  ledger := evolves_ledger _ _ evolves inv.ledger
  sound := sound
  own := fun _ _ comes => comes.elim
  before := fun _ _ _ _ _ _ comes => comes.elim
  number := fun n mine => Or.inl (same n mine)
  born := fun n state new known => by
    obtain ⟨state',known',_⟩ := evolves_known _ _ evolves n state known
    exact absurd (inv.ledger.issued n state' known') (Nat.not_lt.mpr new)
  listed := fun id n listed => Or.inl (evolves_placed _ _ inv.ledger evolves id n listed)
  handed := handed
  midway := between
  returned := returned

/-- A call that moves on and takes entries out. -/
theorem moves_drops (s : System (Shared shards) (Call shards)) (k : Nat) (call : Call shards) (after : Shared shards)
    (call' : Call shards) (inv : Inv shard s) (drops : Drops s.shared after) (sound : Sound shard after call')
    (same : ∀ n, number call' = some n → number call = some n) (empty : holding call = none)
    (stays : ∀ id n, s.shared.tasks.lookup id = some n → after.tasks.lookup id = some n ∨ Ended after n ∨
      holding call' = some n)
    (between : midway call' = true → midway call = true ∨
      ∀ other call'', s.calls.lookup other = some call'' → isReturned call'' = false)
    (returned : isReturned call' = false) : Moves shard Nothing s k call after call' where
  frame := drops_frame _ _ drops
  ledger := drops_ledger _ _ drops inv.ledger
  sound := sound
  own := fun _ _ comes => comes.elim
  before := fun _ _ _ _ _ _ comes => comes.elim
  number := fun n mine => Or.inl (same n mine)
  born := fun n state new known => by
    rw [drops.states] at known
    exact absurd (inv.ledger.issued n state known) (Nat.not_lt.mpr new)
  listed := fun id n listed => by
    have placed := frame_placed _ _ inv.ledger (drops_frame _ _ drops) id n listed
    rcases stays id n listed with there | ended | hands
    · exact Or.inl (placed (Or.inl there))
    · exact Or.inl (placed (Or.inr ended))
    · exact Or.inr hands
  handed := fun n holds => by
    rw [empty] at holds
    cases holds
  midway := between
  returned := fun clash => by
    rw [returned] at clash
    cases clash

theorem none_returned (s : System (Shared shards) (Call shards)) (inv : Inv shard s)
    (up : s.shared.shutdown = false ∨ ∃ id n, s.shared.tasks.lookup id = some n) (other : Nat) (call : Call shards)
    (found : s.calls.lookup other = some call) : isReturned call = false := by
  by_contra returned
  unfold isReturned at returned
  split at returned
  · obtain ⟨down,empty⟩ := inv.sound other _ found
    rcases up with up | ⟨id,n,listed⟩
    · rw [down] at up
      cases up
    · rw [empty] at listed
      cases listed
  · exact returned rfl

/-! The steps of the calls. -/

section Tasks
variable {Schedule : Type} (fromStr : String → Except String Schedule) (upcoming : Schedule → Nat → Option Nat)

/-- The task of a call that spawns. -/
theorem spawn_moves (s : System (Shared shards) (Call shards)) (k : Nat) (config : TaskConfig) (n : Nat)
    (inv : Inv shard s) :
    Moves shard Nothing s k (.schedule config n .fresh)
      { s.shared with
        states := Function.update s.shared.states s.shared.issued (some (.new config))
        issued := s.shared.issued + 1 }
      (.schedule config s.shared.issued .spawned) := by
  have older : ∀ m state, s.shared.states m = some state →
      Function.update s.shared.states s.shared.issued (some (.new config)) m = some state := by
    intro m state known
    rw [Function.update_of_ne (Nat.ne_of_lt (inv.ledger.issued m state known))]
    exact known
  have known : ∀ m state, Function.update s.shared.states s.shared.issued (some (.new config)) m = some state →
      m = s.shared.issued ∧ state = .new config ∨ s.shared.states m = some state := by
    intro m state known
    by_cases new : m = s.shared.issued
    · rw [new,Function.update_self] at known
      exact Or.inl ⟨new,(Option.some.inj known).symm⟩
    · rw [Function.update_of_ne new] at known
      exact Or.inr known
  refine ⟨?_,?_,?_,fun _ _ comes => comes.elim,fun _ _ _ _ _ _ comes => comes.elim,?_,?_,?_,?_,fun _ => Or.inl rfl,?_⟩
  · refine ⟨id,Nat.le_succ _,?_,?_,fun _ _ => Or.inl,fun _ _ => Or.inl,fun _ => id,fun _ => Or.inl⟩
    · exact fun m state before => ⟨state,older m state before,rfl,id,id⟩
    · intro m state found
      rcases known m state found with ⟨rfl,_⟩ | before
      · exact Or.inl (Nat.le_refl _)
      · exact Or.inr ⟨state,before⟩
  · refine ⟨?_,?_,?_,?_⟩
    · intro id m listed
      obtain ⟨state,before,kept⟩ := inv.ledger.entries id m listed
      exact ⟨state,older m state before,kept⟩
    · intro m state found
      rcases known m state found with ⟨rfl,_⟩ | before
      · exact Nat.lt_succ_self _
      · exact Nat.lt_succ_of_lt (inv.ledger.issued m state before)
    · exact fun m member => ⟨Nat.lt_succ_of_lt (inv.ledger.removed m member).1,(inv.ledger.removed m member).2⟩
    · intro m state found runs
      rcases known m state found with ⟨_,rfl⟩ | before
      · cases runs
      · exact inv.ledger.listed m state before runs
  · refine ⟨⟨.new config,Function.update_self _ _ _,rfl⟩,?_,?_⟩
    · exact fun member => absurd (inv.ledger.removed _ member).1 (Nat.lt_irrefl _)
    · intro id listed
      obtain ⟨state,before,_⟩ := inv.ledger.entries id _ listed
      exact absurd (inv.ledger.issued _ state before) (Nat.lt_irrefl _)
  · intro m mine
    cases mine
    exact Or.inr (Nat.le_refl _)
  · intro m state new found
    rcases known m state found with ⟨rfl,_⟩ | before
    · rfl
    · exact absurd (inv.ledger.issued m state before) (Nat.not_lt.mpr new)
  · intro id m listed
    left
    intro state found
    obtain ⟨state',before,named,_⟩ := inv.ledger.entries id m listed
    have same := (older m state' before).symm.trans found
    cases same
    exact Or.inr (named ▸ listed)
  · exact fun _ clash => by cases clash
  · exact fun clash => by cases clash

/-- The task of a call that makes its entry, where none is. -/
theorem insert_moves (s : System (Shared shards) (Call shards)) (k : Nat) (config : TaskConfig) (n : Nat) (inv : Inv shard s)
    (found : s.calls.lookup k = some (.schedule config n .stored)) (free : s.shared.tasks.lookup config.id = none)
    (before : ∀ other parked rank phase, s.calls.lookup other = some (.shutdown parked rank phase) →
      ahead (shard config.id) phase) :
    Moves shard (fun id m => id = config.id ∧ m = n) s k (.schedule config n .stored)
      { s.shared with tasks := s.shared.tasks.insert config.id n } (.schedule config n (.returned (.ok ()))) := by
  obtain ⟨unlisted,state,there,kept⟩ := inv.sound k _ found
  obtain ⟨_,known,named⟩ := unlisted.there
  rw [there] at known
  cases known
  have stays : ∀ id m, s.shared.tasks.lookup id = some m → (s.shared.tasks.insert config.id n).lookup id = some m := by
    intro id m listed
    rw [AList.lookup_insert_ne]
    · exact listed
    · rintro rfl
      rw [free] at listed
      cases listed
  refine ⟨?_,?_,?_,?_,?_,fun _ => Or.inl,?_,?_,?_,(fun clash => by cases clash),(fun clash => by cases clash)⟩
  · refine ⟨id,Nat.le_refl _,?_,?_,?_,?_,fun _ => id,fun _ => Or.inl⟩
    · exact fun m state known => ⟨state,known,rfl,id,id⟩
    · exact fun m state known => Or.inr ⟨state,known⟩
    · exact fun id m listed => Or.inl (stays id m listed)
    · intro id m listed
      rcases lookup_of_insert s.shared.tasks config.id id n m listed with comes | ⟨_,old⟩
      · exact Or.inr comes
      · exact Or.inl old
  · refine ⟨?_,inv.ledger.issued,?_,?_⟩
    · intro id m listed
      rcases lookup_of_insert s.shared.tasks config.id id n m listed with ⟨rfl,rfl⟩ | ⟨_,old⟩
      · exact ⟨state,there,named,kept⟩
      · exact inv.ledger.entries id m old
    · intro m member
      refine ⟨(inv.ledger.removed m member).1,fun id listed => ?_⟩
      rcases lookup_of_insert s.shared.tasks config.id id n m listed with ⟨_,rfl⟩ | ⟨_,old⟩
      · exact unlisted.new member
      · exact (inv.ledger.removed m member).2 id old
    · exact fun m state known runs => stays _ m (inv.ledger.listed m state known runs)
  · exact ⟨inv.ledger.issued n state there,Or.inr (AList.lookup_insert s.shared.tasks)⟩
  · rintro id m ⟨_,rfl⟩
    rfl
  · rintro id m other parked rank phase ⟨rfl,_⟩ found'
    exact before other parked rank phase found'
  · exact fun m state new known => absurd (inv.ledger.issued m state known) (Nat.not_lt.mpr new)
  · intro id m listed
    left
    intro state' known
    obtain ⟨state'',known',named',_⟩ := inv.ledger.entries id m listed
    rw [known'] at known
    cases known
    exact Or.inr (stays _ m (named' ▸ listed))
  · intro m holds
    cases holds
    left
    intro state' known
    have same := there.symm.trans known
    cases same
    rw [named]
    exact Or.inr (AList.lookup_insert s.shared.tasks)

theorem inv_schedule (s : System (Shared shards) (Call shards)) (k : Nat) (config : TaskConfig) (n : Nat)
    (phase : SchedulePhase) (inv : Inv shard s) (found : s.calls.lookup k = some (.schedule config n phase))
    (met : Exclusive shard s (.call (.advance k))) :
    Inv shard ⟨(schedulingTurn shard fromStr upcoming s.shared config n phase).1,s.calls.insert k
      (.schedule config (schedulingTurn shard fromStr upcoming s.shared config n phase).2.1
        (schedulingTurn shard fromStr upcoming s.shared config n phase).2.2)⟩ := by
  have still (call' : Call shards) (sound : Sound shard s.shared call')
      (same : ∀ m, number call' = some m → number (.schedule config n phase : Call shards) = some m)
      (handed : ∀ m, holding (.schedule config n phase : Call shards) = some m → holding call' = some m)
      (between : midway call' = true → midway (.schedule config n phase : Call shards) = true ∨ s.shared.shutdown = false)
      (returned : isReturned call' = false) : Inv shard ⟨s.shared,s.calls.insert k call'⟩ := by
    apply inv_moves shard Nothing s k _ s.shared call' inv found
    apply moves_evolves shard s k _ s.shared call' inv (evolves_refl s.shared) sound same
      (fun m holds => Or.inr (handed m holds))
    · exact fun between' => (between between').imp_right (fun up => none_returned shard s inv (Or.inl up))
    · rw [returned]
      exact fun clash => by cases clash
  cases phase with
  | entered =>
    unfold schedulingTurn scheduleTurn
    dsimp only
    split
    · exact still _ trivial (fun _ clash => by cases clash) (fun _ clash => by cases clash) (fun clash => by cases clash) rfl
    · rename_i up
      exact still _ trivial (fun _ clash => by cases clash) (fun _ clash => by cases clash)
        (fun _ => Or.inr (Bool.eq_false_of_not_eq_true up)) rfl
  | running =>
    unfold schedulingTurn scheduleTurn
    dsimp only
    split
    · exact still _ trivial (fun _ clash => by cases clash) (fun _ clash => by cases clash) (fun clash => by cases clash) rfl
    · exact still _ trivial (fun _ clash => by cases clash) (fun _ clash => by cases clash) (fun _ => Or.inl rfl) rfl
  | fresh =>
    unfold schedulingTurn scheduleTurn
    cases spawnError fromStr upcoming s.shared.scheduler.now config.trigger with
    | some error =>
      exact still _ trivial (fun _ clash => by cases clash) (fun _ clash => by cases clash) (fun clash => by cases clash) rfl
    | none => exact inv_moves shard Nothing s k _ _ _ inv found (spawn_moves shard s k config n inv)
  | spawned =>
    obtain ⟨state,known,named⟩ := (inv.sound k _ found).there
    have stores : schedulingTurn shard fromStr upcoming s.shared config n .spawned =
        (s.shared.put n { state with handle := true },n,.stored) := by
      unfold schedulingTurn scheduleTurn
      dsimp only [Shared.scheduler]
      rw [known]
      rfl
    rw [stores]
    have evolves := evolves_put s.shared n state { state with handle := true } known
      ⟨rfl,fun _ => Or.inl rfl,id,Or.inl⟩
    apply inv_moves shard Nothing s k _ _ _ inv found
    apply moves_evolves shard s k (.schedule config n .spawned) _ (.schedule config n .stored) inv evolves _
      (fun _ => id) (fun _ => Or.inr) (fun _ => Or.inl rfl) (fun clash => by cases clash)
    refine ⟨?_,_,put_self s.shared n _,Or.inl rfl⟩
    exact unlisted_frame Nothing _ _ config n (evolves_frame _ _ evolves) (fun _ => id) (inv.sound k _ found)
  | stored =>
    obtain ⟨free,before⟩ := met _ found
    unfold schedulingTurn
    dsimp only
    split
    · exact inv_moves shard _ s k _ _ _ inv found (insert_moves shard s k config n inv found free before)
    · exact still _ (inv.sound k _ found) (fun _ => id) (fun _ => id) (fun _ => Or.inl rfl) rfl
  | returned result =>
    exact still _ (inv.sound k _ found) (fun _ => id) (fun _ => id) (fun _ => Or.inl ‹_›) rfl

omit fromStr upcoming in
theorem inv_cancel (s : System (Shared shards) (Call shards)) (k : Nat) (id : String) (parked : Bool) (phase : CancelPhase)
    (inv : Inv shard s) (found : s.calls.lookup k = some (.cancel id parked phase))
    (met : Exclusive shard s (.call (.advance k))) :
    Inv shard ⟨(cancelTurn shard s.shared id parked phase).1,s.calls.insert k
      (.cancel id parked (cancelTurn shard s.shared id parked phase).2)⟩ := by
  have still (phase' : CancelPhase) (sound : Sound shard s.shared (.cancel id parked phase'))
      (same : holding (.cancel id parked phase' : Call shards) = holding (.cancel id parked phase : Call shards))
      (between : midway (.cancel id parked phase' : Call shards) = midway (.cancel id parked phase : Call shards)) :
      Inv shard ⟨s.shared,s.calls.insert k (.cancel id parked phase')⟩ := by
    apply inv_moves shard Nothing s k _ s.shared _ inv found
    apply moves_evolves shard s k _ s.shared _ inv (evolves_refl s.shared) sound (fun _ clash => by cases clash)
      (fun m holds => Or.inr (same.trans holds)) (fun between' => Or.inl (between.symm.trans between'))
      (fun clash => by cases clash)
  cases phase with
  | entered =>
    dsimp only [cancelTurn]
    split
    · split
      · exact still (.returned _) trivial rfl rfl
      · rename_i n listed
        have quiet := met _ found
        have drops := remove_drops s.shared id (fun m state listed known => quiet m state listed known)
        obtain ⟨state,known,_,kept⟩ := inv.ledger.entries id n listed
        apply inv_moves shard Nothing s k _ _ _ inv found
        apply moves_drops shard s k _ _ (.cancel id parked (.taken n)) inv drops ⟨state,known,kept⟩
          (fun _ clash => by cases clash) rfl _ (fun _ => Or.inr (none_returned shard s inv (Or.inr ⟨id,n,listed⟩))) rfl
        intro other m listed'
        by_cases same : other = id
        · rw [same,listed] at listed'
          exact Or.inr (Or.inr listed')
        · exact Or.inl ((lookup_erase_if s.shared.tasks id other).trans ((if_neg same).trans listed'))
    · exact still .entered trivial rfl rfl
  | taken n =>
    have met : stops s.shared n parked := met _ found
    apply inv_moves shard Nothing s k _ _ _ inv found
    apply moves_evolves shard s k (.cancel id parked (.taken n)) _ (.cancel id parked (.returned (.ok ()))) inv
      (takeHandle_evolves s.shared n parked met) trivial (fun _ clash => by cases clash) _ (fun clash => by cases clash)
      (fun clash => by cases clash)
    intro m holds
    cases holds
    exact Or.inl (fun state known => Or.inl (takeHandle_ends s.shared n parked met (inv.sound k _ found) state known))
  | returned result => exact still (.returned result) trivial rfl rfl

omit fromStr upcoming in
theorem inv_shutdown (s : System (Shared shards) (Call shards)) (k : Nat) (parked : Nat → Bool) (rank : String → Nat)
    (phase : ShutdownPhase shards) (inv : Inv shard s) (found : s.calls.lookup k = some (.shutdown parked rank phase))
    (met : Exclusive shard s (.call (.advance k))) :
    Inv shard ⟨(shutdownTurn shard s.shared parked rank phase).1,s.calls.insert k
      (.shutdown parked rank (shutdownTurn shard s.shared parked rank phase).2)⟩ := by
  have goes (after : Shared shards) (phase' : ShutdownPhase shards) (evolves : Evolves s.shared after)
      (sound : Sound shard after (.shutdown parked rank phase'))
      (returned : isReturned (.shutdown parked rank phase' : Call shards) = true →
        isReturned (.shutdown parked rank phase : Call shards) = true ∨
        ∀ other call'', s.calls.lookup other = some call'' → midway call'' = false) :
      Inv shard ⟨after,s.calls.insert k (.shutdown parked rank phase')⟩ := by
    apply inv_moves shard Nothing s k _ after _ inv found
    exact moves_evolves shard s k _ after _ inv evolves sound (fun _ clash => by cases clash)
      (fun _ clash => by cases clash) (fun clash => by cases clash) returned
  have sound := inv.sound k _ found
  have met := met _ found
  cases phase with
  | entered => exact goes _ .flagged (evolves_still _ _ (fun _ => rfl) rfl rfl rfl rfl) rfl (fun clash => by cases clash)
  | flagged =>
    apply goes _ _ (nextShard_evolves shard s.shared rank none _)
    · apply nextShard_sound shard s.shared parked rank none _ sound
      exact fun id n _ absent => absurd (List.mem_finRange _) absent
    · exact fun back => Bool.noConfusion (back.symm.trans
        (nextShard_goes shard s.shared parked rank none (List.finRange shards)))
  | visiting i left later =>
    cases left with
    | nil =>
      apply goes _ _ (nextShard_evolves shard s.shared rank (some i) later)
      · apply nextShard_sound shard s.shared parked rank (some i) later sound.1
        exact fun id n listed absent => sound.2 id n listed absent (fun _ => List.not_mem_nil)
      · exact fun back => Bool.noConfusion (back.symm.trans (nextShard_goes shard s.shared parked rank (some i) later))
    | cons n left =>
      have evolves := takeHandle_evolves s.shared n (parked n) met
      apply goes _ (.visiting i left later) evolves _ (fun clash => by cases clash)
      refine ⟨evolves.flag sound.1,fun id m listed past done => ?_⟩
      rw [evolves.tasks] at listed
      obtain ⟨state,known,_,kept⟩ := inv.ledger.entries id m listed
      by_cases same : m = n
      · subst same
        exact takeHandle_ends s.shared m (parked m) met ⟨state,known,kept⟩
      · apply ended_frame Nothing s.shared _ m (evolves_frame _ _ evolves) ⟨state,known⟩
        apply sound.2 id m listed past
        exact fun here member => (List.mem_cons.mp member).elim same (done here)
  | clearing left =>
    cases left with
    | nil =>
      apply goes _ .returned (evolves_refl s.shared) _ (fun _ => Or.inr met)
      refine ⟨sound.1,fun id => ?_⟩
      cases listed : s.shared.tasks.lookup id with
      | none => rfl
      | some n => exact absurd (sound.2 id n listed).1 List.not_mem_nil
    | cons i left =>
      dsimp only [shutdownTurn]
      split
      · have ended := fun id n listed => (sound.2 id n listed).2
        have drops := clearShard_drops shard s.shared i ended
        apply inv_moves shard Nothing s k _ _ _ inv found
        apply moves_drops shard s k (.shutdown parked rank (.clearing (i :: left))) _
          (.shutdown parked rank (.clearing left))
          inv drops _ (fun _ clash => by cases clash) rfl _ (fun clash => by cases clash) rfl
        · refine ⟨sound.1,fun id n listed => ?_⟩
          obtain ⟨old,apart⟩ := (lookup_clearShard shard s.shared i id n).mp listed
          exact ⟨(List.mem_cons.mp (sound.2 id n old).1).resolve_left apart,ended id n old⟩
        · intro id n listed
          exact Or.inr (Or.inl (ended id n listed))
      · exact goes _ (.clearing (i :: left)) (evolves_refl s.shared) sound (fun clash => by cases clash)
  | returned => exact goes _ .returned (evolves_refl s.shared) sound (fun _ => Or.inl rfl)

/-- What the task takes out is its own entry, as it runs until then. -/
theorem inv_task (s : System (Shared shards) (Call shards)) (n : Nat) (inv : Inv shard s)
    (met : Exclusive shard s (.task n)) : Inv shard ⟨taskTurn shard fromStr upcoming s.shared n,s.calls⟩ := by
  unfold taskTurn
  split
  · exact inv
  · rename_i state known
    split
    · rename_i removing
      split
      · have listed := inv.ledger.listed n state known (by rw [removing]; rfl)
        have evolves := evolves_put s.shared n state { state with phase := .ended } known (evolved_ended _ state _ rfl rfl)
        have ended : Ended (s.shared.put n { state with phase := .ended }) n := by
          intro state' known'
          rw [put_self] at known'
          cases known'
          rfl
        have between := inv_evolves shard s _ inv evolves
        have drops := remove_drops (s.shared.put n { state with phase := .ended }) state.config.id (by
          intro m state' listed' known'
          have same := listed.symm.trans listed'
          cases same
          rw [ended state' known']
          rfl)
        apply inv_shared shard _ _ between (drops_frame _ _ drops) (drops_ledger _ _ drops between.ledger)
        · intro m state' new known'
          exact absurd (between.ledger.issued m state' known') (Nat.not_lt.mpr new)
        · intro id m listed'
          apply frame_placed _ _ between.ledger (drops_frame _ _ drops) id m listed'
          by_cases same : id = state.config.id
          · have own := listed.symm.trans (same ▸ listed')
            cases own
            exact Or.inr ended
          · exact Or.inl ((lookup_erase_if _ state.config.id id).trans ((if_neg same).trans listed'))
      · exact inv
    · split
      · exact inv_evolves shard s _ inv
          (evolves_put s.shared n state { state with phase := .ended } known (evolved_ended _ state _ rfl rfl))
      · exact inv_evolves shard s _ inv (evolves_put s.shared n state _ known
          (turn_evolved fromStr upcoming state s.shared.now _ _ (met state known)))

omit fromStr upcoming in
theorem inv_handler (s : System (Shared shards) (Call shards)) (n : Nat) (does : HandlerTurn) (inv : Inv shard s) :
    Inv shard ⟨handlerTurn s.shared n does,s.calls⟩ := by
  unfold handlerTurn
  split
  · exact inv
  · rename_i state known
    have ends := inv_evolves shard s _ inv
      (evolves_put s.shared n state { state with phase := .ended } known (evolved_ended _ state _ rfl rfl))
    split
    · rename_i handling
      cases does with
      | awaits =>
        dsimp only
        split
        · exact ends
        · exact inv
      | finishes =>
        refine inv_evolves shard s _ inv (evolves_put s.shared n state { state with phase := .recording } known
          ⟨rfl,?_,?_,?_⟩)
        · rintro (handle | ended)
          · exact Or.inl handle
          · rw [handling] at ended
            cases ended
        · intro ended
          rw [handling] at ended
          cases ended
        · exact fun _ => Or.inl (by rw [handling]; rfl)
      | panics => exact ends
    · exact inv

omit fromStr upcoming in
theorem inv_enter (s : System (Shared shards) (Call shards)) (k : Nat) (request : Request) (inv : Inv shard s)
    (absent : s.calls.lookup k = none) : Inv shard { s with calls := s.calls.insert k (entered request) } := by
  have new : Sound shard s.shared (entered request) ∧ number (entered request : Call shards) = none ∧
      midway (entered request : Call shards) = false ∧ isReturned (entered request : Call shards) = false := by
    cases request with
    | schedule config => exact ⟨trivial,rfl,rfl,rfl⟩
    | cancel id parked => exact ⟨trivial,rfl,rfl,rfl⟩
    | shutdown parked rank => exact ⟨trivial,rfl,rfl,rfl⟩
  obtain ⟨sound,unnumbered,waits,open'⟩ := new
  refine ⟨inv.ledger,?_,?_,?_,?_⟩
  · intro other call found
    rcases lookup_of_insert s.calls k other _ call found with ⟨_,rfl⟩ | ⟨_,old⟩
    · exact sound
    · exact inv.sound other call old
  · intro j other first second n found found' mine mine'
    rcases lookup_of_insert s.calls k j _ first found with ⟨_,rfl⟩ | ⟨_,old⟩
    · rw [unnumbered] at mine
      cases mine
    · rcases lookup_of_insert s.calls k other _ second found' with ⟨_,rfl⟩ | ⟨_,old'⟩
      · rw [unnumbered] at mine'
        cases mine'
      · exact inv.apart j other first second n old old' mine mine'
  · intro n state known left
    refine (inv.alive n state known left).imp_right ?_
    rintro ⟨other,call,found,holds⟩
    refine ⟨other,call,(AList.lookup_insert_ne ?_).trans found,holds⟩
    rintro rfl
    rw [absent] at found
    cases found
  · intro j first found returned other second found'
    rcases lookup_of_insert s.calls k j _ first found with ⟨_,rfl⟩ | ⟨_,old⟩
    · rw [open'] at returned
      cases returned
    · rcases lookup_of_insert s.calls k other _ second found' with ⟨_,rfl⟩ | ⟨_,old'⟩
      · exact waits
      · exact inv.final j first old returned other second old'

theorem inv_step (s : System (Shared shards) (Call shards)) (turn : Turn) (inv : Inv shard s)
    (met : Exclusive shard s turn) : Inv shard (step shard fromStr upcoming s turn) := by
  cases turn with
  | task n => exact inv_task shard fromStr upcoming s n inv met
  | handler n does => exact inv_handler shard s n does inv
  | tick elapsed => exact inv_evolves shard s _ inv (evolves_still _ _ id rfl rfl rfl rfl)
  | call action =>
    change Inv shard (Interleaving.step entered (access shard fromStr upcoming) s action)
    cases action with
    | enter k request =>
      cases absent : s.calls.lookup k with
      | none =>
        rw [step_enter _ _ s k request absent]
        exact inv_enter shard s k request inv absent
      | some call =>
        rw [Interleaving.step,if_pos (AList.lookup_isSome.mp (Option.isSome_of_eq_some absent))]
        exact inv
    | advance k =>
      cases found : s.calls.lookup k with
      | none =>
        rw [step_idle _ _ s k found]
        exact inv
      | some call =>
        rw [step_advance _ _ s k call found]
        cases call with
        | schedule config n phase => exact inv_schedule shard fromStr upcoming s k config n phase inv found met
        | cancel id parked phase => exact inv_cancel shard s k id parked phase inv found met
        | shutdown parked rank phase => exact inv_shutdown shard s k parked rank phase inv found met

theorem inv_start (now : Nat) : Inv shard (start now) :=
  ⟨⟨(fun _ _ clash => by cases clash),(fun _ _ clash => by cases clash),(fun _ member => absurd member List.not_mem_nil),
      fun _ _ clash => by cases clash⟩,(fun _ _ clash => by cases clash),(fun _ _ _ _ _ clash => by cases clash),
    (fun _ _ clash => by cases clash),fun _ _ clash => by cases clash⟩

/-- Scheduling is exclusive and stopping is final in every run in which an entry is made where there is none, no task
begins to run unlisted, and what is removed or aborted is found suspended. -/
theorem stopping_is_final (now : Nat) (turns : List Turn)
    (exclusive : Along (step shard fromStr upcoming) (Exclusive shard) (start now) turns) :
    Always (step shard fromStr upcoming) Orderly (start now) turns := by
  apply always_mono _ (Inv shard) Orderly (orderly_of_inv shard)
  exact always_of_along _ (Exclusive shard) (Inv shard) (inv_step shard fromStr upcoming) _ turns
    (inv_start shard now) exclusive

theorem exclusive_advance (s : System (Shared shards) (Call shards)) (k : Nat) (call : Call shards)
    (found : s.calls.lookup k = some call) (finds : Finds shard s call) : Exclusive shard s (.call (.advance k)) := by
  intro call' found'
  rw [found] at found'
  cases found'
  exact finds

end Tasks
end Scheduler

/-! Runs on a map of one shard, with tasks that suspend wherever they can. -/

def shard : String → Fin 1 := fun _ => ⟨0,Nat.one_pos⟩

abbrev play : System (Shared 1) (Call 1) → Turn → System (Shared 1) (Call 1) :=
  step shard (fun _ => .error "" : String → Except String Unit) (fun _ _ => none)

def ticking : TaskConfig := ⟨"a",.interval 5,none⟩

def enters (k : Nat) (request : Request) : Turn := .call (.enter k request)

def advances (k count : Nat) : List Turn := List.replicate count (.call (.advance k))

def shutdown : Request := .shutdown (fun _ => true) (fun _ => 0)

/-- A task that waits for its first tick, and a second one of its id that is refused. -/
def refused : List Turn :=
  enters 0 (.schedule ticking) :: (advances 0 5 ++ .task 0 :: enters 1 (.schedule ticking) :: (advances 1 2 ++
    enters 2 shutdown :: advances 2 6))

/-- Both calls ask for the id before either lists its task. -/
def doubled : List Turn :=
  enters 0 (.schedule ticking) :: enters 1 (.schedule ticking) :: (advances 0 2 ++ advances 1 5 ++ advances 0 3)

/-- `shutdown` comes and goes after the flag has been asked for. -/
def crossed : List Turn :=
  enters 0 (.schedule ticking) :: (advances 0 1 ++ enters 1 shutdown :: (advances 1 5 ++ advances 0 4))

/-- The task is past what it asks of the map and goes on to its handler after `cancel` has returned. -/
def cancelled : List Turn :=
  enters 0 (.schedule ticking) :: (advances 0 5 ++ [.task 0,.tick 5,.task 0,.task 0] ++
    enters 1 (.cancel "a" false) :: (advances 1 2 ++ [.task 0,.task 0]))

/-- A task begins to run before it is listed. -/
def unlisted : List Turn :=
  enters 0 (.schedule ⟨"a",.immediate,none⟩) :: (advances 0 3 ++ [.task 0])

theorem stopping_is_final_refused : Always play Orderly (start 0) refused := by
  apply stopping_is_final shard (fun _ => .error "" : String → Except String Unit) (fun _ _ => none) 0 refused
  refine ⟨trivial,exclusive_advance shard _ 0 _ rfl trivial,exclusive_advance shard _ 0 _ rfl trivial,
    exclusive_advance shard _ 0 _ rfl trivial,exclusive_advance shard _ 0 _ rfl trivial,
    exclusive_advance shard _ 0 _ rfl ⟨rfl,?_⟩,?_,trivial,
    exclusive_advance shard _ 1 _ rfl trivial,exclusive_advance shard _ 1 _ rfl trivial,trivial,
    exclusive_advance shard _ 2 _ rfl trivial,exclusive_advance shard _ 2 _ rfl trivial,
    exclusive_advance shard _ 2 _ rfl ?_,exclusive_advance shard _ 2 _ rfl trivial,
    exclusive_advance shard _ 2 _ rfl trivial,exclusive_advance shard _ 2 _ rfl ?_,trivial⟩
  · intro other parked rank phase there
    cases List.mem_singleton.mp ((entry_iff _ other _).mpr there)
  · intro state known _
    cases known
    rfl
  · intro state known
    cases known
    exact Or.inr ⟨rfl,rfl⟩
  · -- Both `schedule` calls have returned, and the third call is the `shutdown` itself.
    intro other call there
    rcases List.mem_cons.mp ((entry_iff _ other call).mpr there) with same | rest
    · cases same
      rfl
    · rcases List.mem_cons.mp rest with same | last
      · cases same
        rfl
      · cases List.mem_singleton.mp last
        rfl

theorem task_escapes :
    ¬Always play Orderly (start 0) doubled ∧ ¬Always play Orderly (start 0) crossed ∧
      ¬Always play Orderly (start 0) cancelled ∧ ¬Always play Orderly (start 0) unlisted := by
  refine ⟨?_,?_,?_,?_⟩
  · intro always
    have last := always_end play Orderly (start 0) doubled always
    have removed := last.exclusive 0 1 ticking ticking 1 0 (by decide) rfl rfl rfl
    exact removed.elim List.not_mem_nil List.not_mem_nil
  · intro always
    have last := always_end play Orderly (start 0) crossed always
    have empty := (last.stopped 1 _ _ rfl).1 "a"
    cases empty
  · intro always
    have last := always_end play Orderly (start 0) cancelled always
    cases last.listed 0 _ rfl rfl
  · intro always
    have last := always_end play Orderly (start 0) unlisted always
    cases last.listed 0 _ rfl rfl

end ClawKernel.Runtime.Stopping
