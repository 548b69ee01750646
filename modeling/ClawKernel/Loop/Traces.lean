import ClawKernel.Lib.Effects
import ClawKernel.Loop.Pairing

/-! A list kept in the record of the loop: what each effect adds to it, and with that each
turn and each run.
-/
namespace ClawKernel.Loop.Traces
open Lib.Effects Lib.Loops Loop.States Loop.Types Loop.Run Loop.Conversation Loop.Refinement Loop.Pairing
open Provider.Types hiding FinishReason

/-- What holds whatever state is entered, every transition keeps. -/
theorem transition_keeps (inv : Vars → Prop) (enters : ∀ vars machine new, inv vars →
    inv {vars with machine, state := new, broadcast := vars.broadcast ++ [new]}) (event : StateEvent) :
    Keeps inv (transition event) := by
  intro vars holds
  unfold transition
  rw [EStateM.run_bind,EStateM.run_get]
  dsimp only
  cases vars.machine.transition event with
  | mk machine outcome =>
    cases outcome with
    | success new => exact enters vars machine new holds
    | invalid source event allowed => exact holds

section Rules
variable {ι : Type} {read : Vars → List ι}

/-- The effect leaves the list as it finds it. -/
def Quiet {α : Type} (read : Vars → List ι) (effect : Effect α) : Prop :=
  ∀ vars, read (leaves (effect.run vars)) = read vars

/-- From wherever the conversation stands, the effect adds these items. -/
def Adds {α : Type} (read : Vars → List ι) (talk : Talk) (current : AgentState) (effect : Effect α) (items : List ι) :
    Prop :=
  ∀ vars, Stands vars talk current → read (leaves (effect.run vars)) = read vars ++ items

variable {α β : Type} {effect : Effect α} {rest : α → Effect β} {value : α} {error : AgentError}
  {talk middle : Talk} {current between : AgentState} {items more : List ι}

theorem quiet_iff : Quiet read effect ↔ ∀ items, Keeps (fun vars => read vars = items) effect :=
  ⟨fun quiet _ vars holds => (quiet vars).trans holds,fun keeps vars => keeps _ vars rfl⟩

theorem Quiet.pure (value : α) : Quiet read (Pure.pure value : Effect α) := fun _ => rfl

theorem Quiet.throw (error : AgentError) : Quiet read (MonadExcept.throw error : Effect α) := fun _ => rfl

theorem Quiet.modify {change : Vars → Vars} (same : ∀ vars, read (change vars) = read vars) :
    Quiet read (modify change : Effect Unit) := same

theorem Quiet.transition (same : ∀ vars machine new,
    read {vars with machine, state := new, broadcast := vars.broadcast ++ [new]} = read vars) (event : StateEvent) :
    Quiet read (transition event) :=
  quiet_iff.mpr (fun _ => transition_keeps _ (fun vars machine new holds => (same vars machine new).trans holds) event)

theorem Quiet.bind (first : Quiet read effect) (second : ∀ value, Quiet read (rest value)) :
    Quiet read (effect >>= rest) :=
  quiet_iff.mpr (fun items => (quiet_iff.mp first items).bind (fun value => quiet_iff.mp (second value) items))

theorem Quiet.get {rest : Vars → Effect β} (second : ∀ vars, Quiet read (rest vars)) :
    Quiet read (MonadState.get >>= rest) := fun vars => second vars vars

theorem Quiet.forM {effect : α → Effect Unit} (each : ∀ item, Quiet read (effect item)) (all : List α) :
    Quiet read (forM all effect) :=
  quiet_iff.mpr (fun items => Keeps.forM (fun item => quiet_iff.mp (each item) items) all)

theorem Quiet.adds (quiet : Quiet read effect) : Adds read talk current effect [] := by
  intro vars _
  rw [quiet vars,List.append_nil]

theorem Adds.bind (leads : Leads talk current effect value middle between) (first : Adds read talk current effect items)
    (second : Adds read middle between (rest value) more) :
    Adds read talk current (effect >>= rest) (items ++ more) := by
  intro vars stands
  obtain ⟨next,ran,met⟩ := leads vars stands
  have before := first vars stands
  rw [ran] at before
  rw [EStateM.run_bind,ran]
  change read (leaves ((rest value).run next)) = _
  rw [second next met,show read next = _ from before,List.append_assoc]

theorem Adds.bind_fails (fails : Fails talk current effect error middle between)
    (first : Adds read talk current effect items) : Adds read talk current (effect >>= rest) items := by
  intro vars stands
  obtain ⟨next,ran,_⟩ := fails vars stands
  have before := first vars stands
  rw [ran] at before
  rw [EStateM.run_bind,ran]
  exact before

theorem Adds.get {rest : Vars → Effect β}
    (second : ∀ vars, Stands vars talk current → Adds read talk current (rest vars) items) :
    Adds read talk current (MonadState.get >>= rest) items :=
  fun vars stands => second vars stands vars stands

theorem Adds.then (leads : Leads talk current effect value middle between) (quiet : Quiet read effect)
    (second : Adds read middle between (rest value) more) : Adds read talk current (effect >>= rest) more :=
  Adds.bind leads quiet.adds second

/-- What follows adds nothing. -/
theorem Adds.only (leads : Leads talk current effect value middle between) (first : Adds read talk current effect items)
    (quiet : Quiet read (rest value)) : Adds read talk current (effect >>= rest) items := by
  have both := Adds.bind leads first quiet.adds
  rwa [List.append_nil] at both

theorem Adds.forM (talk : Talk) (effect : α → Effect Unit) (messages : α → List Message) (each : α → List ι)
    (leads : ∀ item talk, Leads talk current (effect item) () (talk.append (messages item)) current) (all : List α)
    (adds : ∀ item ∈ all, ∀ talk, Adds read talk current (effect item) (each item)) :
    Adds read talk current (forM all effect) (all.flatMap each) := by
  induction all generalizing talk with
  | nil => exact (Quiet.pure _).adds
  | cons item rest ih =>
    rw [List.forM_cons,List.flatMap_cons]
    exact Adds.bind (leads item talk) (adds item List.mem_cons_self talk)
      (ih _ (fun later member => adds later (List.mem_cons_of_mem _ member)))

end Rules

theorem iteration_leaves (body : Effect (Option AgentResult)) (vars : Vars) :
    (iteration body vars).elim id Prod.snd = leaves (body.run vars) := by
  unfold iteration
  cases body.run vars with
  | ok result next => cases result <;> rfl
  | error error next => rfl

section Runs
variable {ι : Type} (read : Vars → List ι)

/-- A run adds what its turns add, one after the other. -/
theorem run_adds (loop : AgentLoop) (mode : Mode) (made : Talk → List ι)
    (begins : ∀ message vars started, begin message vars = .ok () started → read started = read vars)
    (turns : ∀ talk, Adds read talk .running (mode.turn loop) (made talk)) (message : String) (vars : Vars)
    (outcome : Outcome) (ran : mode.run loop message vars = some outcome) :
    read outcome.2 = read vars ++
      along (exchange loop (mode.ask loop)) made (loop.config.maxTurns + 1) (start message (talkOf vars)) := by
  obtain ⟨started,began,stands⟩ := begin_stands message vars
  rw [mode.run_eq,runWith,began] at ran
  rw [← begins message vars started began]
  refine iterate_grows _ (exchange loop (mode.ask loop)) (fun vars talk => Stands vars talk .running) Ends read
    (fun outcome => read outcome.2) made
    (fun vars talk stands => mode.turn_reaches loop talk vars stands) ?_ _ started _ stands outcome ran
  intro vars talk stands
  rw [← turns talk vars stands,← iteration_leaves]
  cases iteration (mode.turn loop) vars <;> rfl

end Runs

end ClawKernel.Loop.Traces
