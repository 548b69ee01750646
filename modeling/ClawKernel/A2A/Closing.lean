import ClawKernel.A2A.Order

/-! The end of an agent's channels. Every clone of an `AgentHandle` holds a sender of each
channel and drops them one after another; a channel is closed by the drop of its last
sender. `recv` answers `None` at the first closed and empty channel its select meets.
-/
namespace ClawKernel.A2A.Closing
open Lib.Runs Priority

/-- The receiving side, the senders that each handle still has, and whether the router
keeps the first of them. -/
structure Agent (Message : Type) where
  state : State Message
  handles : List (List MessagePriority)
  registered : Bool

inductive Event (Message : Type) where
  | clone (handle : Nat)
  | send (handle : Nat) (message : Message)
  | drop (handle : Nat)
  | unregister
  | recv
  | advance
  deriving DecidableEq, Repr

section Agents
variable {Message : Type} (priority : Message → MessagePriority) (bufferSize : Nat)

/-- The router's clone comes first, then the handle that the caller gets. -/
def registerAgent : Agent Message := ⟨Priority.registerAgent,[MessagePriority.all,MessagePriority.all],true⟩

/-- The handle is whole; the router gives its own away no longer once it is unregistered. -/
def Usable (a : Agent Message) (handle : Nat) : Prop :=
  a.handles[handle]? = some MessagePriority.all ∧ (handle = 0 → a.registered = true)

instance usableDecidable (a : Agent Message) (handle : Nat) : Decidable (Usable a handle) :=
  inferInstanceAs (Decidable (_ ∧ _))

/-- The next field of a handle is dropped. -/
def dropSender (a : Agent Message) (handle : Nat) : Agent Message :=
  match a.handles[handle]? with
  | some (channel :: rest) =>
    let handles := a.handles.set handle rest
    { a with
      handles := handles
      state := if ∀ other ∈ handles, channel ∉ other then step priority bufferSize a.state (.close channel) else a.state }
  | _ => a

def agentStep (a : Agent Message) : Event Message → Agent Message
  | .clone handle => if Usable a handle then {a with handles := a.handles ++ [MessagePriority.all]} else a
  | .send handle message =>
    if Usable a handle then {a with state := step priority bufferSize a.state (.send message)} else a
  | .drop handle => if handle = 0 ∧ a.registered = true then a else dropSender priority bufferSize a handle
  | .unregister => {a with registered := false}
  | .recv => {a with state := step priority bufferSize a.state .recv}
  | .advance => {a with state := step priority bufferSize a.state .advance}

/-- The next step of `recv` answers `None`. -/
def ReturnsNone (s : State Message) : Prop :=
  match s.phase with
  | .selecting (channel :: _) => s.queue channel = [] ∧ s.closed channel = true
  | _ => False

/-- `None` comes when every handle is dropped, or being dropped, and no message is queued. -/
def AtTheEnd (a : Agent Message) : Prop :=
  ReturnsNone a.state → (∀ handle ∈ a.handles, handle ≠ MessagePriority.all) ∧ ∀ channel, a.state.queue channel = []

/-! What was sent behind the back of `recv`. -/

/-- The agent, and the channels that have taken a message since the present call of `recv`
last polled them. -/
structure Watch (Message : Type) where
  agent : Agent Message
  late : MessagePriority → Bool

def polls (phase : Phase Message) : Option MessagePriority :=
  match phase with
  | .trying (channel :: _) | .selecting (channel :: _) => some channel
  | _ => none

def watchStep (w : Watch Message) (event : Event Message) : Watch Message where
  agent := agentStep priority bufferSize w.agent event
  late :=
    match event with
    | .recv => if w.agent.state.phase matches .idle then fun _ => false else w.late
    | .send _ message =>
      if w.agent.state.sent.length < (agentStep priority bufferSize w.agent event).state.sent.length then
        Function.update w.late (priority message) true
      else w.late
    | .advance =>
      match polls w.agent.state.phase with
      | some channel => Function.update w.late channel false
      | none => w.late
    | _ => w.late

def watched : Watch Message := ⟨registerAgent,fun _ => false⟩

/-- Where `recv` answers `None`, no channel has taken a message since the call last polled it. -/
def Quiet (w : Watch Message) : Prop := ReturnsNone w.agent.state → ∀ channel, w.late channel = false

theorem returnsNone_selecting (s : State Message) (channel : MessagePriority) (todo : List MessagePriority)
    (phase : s.phase = .selecting (channel :: todo)) (empty : s.queue channel = []) (closed : s.closed channel = true) :
    ReturnsNone s := by
  unfold ReturnsNone
  rw [phase]
  exact ⟨empty,closed⟩

theorem returnsNone_iff (s : State Message) :
    ReturnsNone s ↔ s.phase ≠ .idle ∧ (advance s).phase = .idle ∧ (advance s).returned = s.returned := by
  cases phase : s.phase with
  | idle => simp [ReturnsNone,phase]
  | trying todo =>
    cases todo with
    | nil => simp [ReturnsNone,advance,phase]
    | cons channel todo =>
      cases front : s.queue channel <;> simp [ReturnsNone,advance,phase,front,deliver,takeFrom]
  | selecting todo =>
    cases todo with
    | nil => simp [ReturnsNone,advance,phase]
    | cons channel todo =>
      cases front : s.queue channel with
      | nil => cases gone : s.closed channel <;> simp [ReturnsNone,advance,phase,front,gone]
      | cons message later => simp [ReturnsNone,advance,phase,front]
  | sweeping message todo =>
    cases todo with
    | nil => simp [ReturnsNone,advance,phase,deliver]
    | cons channel todo =>
      cases front : s.queue channel <;> simp [ReturnsNone,advance,phase,front,deliver,takeFrom]

/-! The invariant. -/

/-- The call has found the channel empty, and has nothing to return yet. -/
def Seen (phase : Phase Message) (channel : MessagePriority) : Prop :=
  match phase with
  | .trying todo => channel ∉ todo
  | .selecting _ => True
  | _ => False

structure Told (w : Watch Message) : Prop where
  gone : ∀ channel, w.agent.state.closed channel = true → ∀ handle ∈ w.agent.handles, channel ∉ handle
  late : ∀ channel, Seen w.agent.state.phase channel → (w.late channel = false ↔ w.agent.state.queue channel = [])

theorem mem_all (channel : MessagePriority) : channel ∈ MessagePriority.all := by
  cases channel <;> decide

theorem told_watched : Told (watched : Watch Message) where
  gone := fun _ closed => absurd closed Bool.false_ne_true
  late := fun _ seen => seen.elim

theorem usable_open (a : Agent Message) (handle : Nat) (channel : MessagePriority) (usable : Usable a handle)
    (gone : ∀ handle ∈ a.handles, channel ∉ handle) : False :=
  gone MessagePriority.all (List.mem_of_getElem? usable.1) (mem_all channel)

theorem clone_told (w : Watch Message) (handle : Nat) (told : Told w) :
    Told (watchStep priority bufferSize w (.clone handle)) := by
  by_cases usable : Usable w.agent handle
  · have next : watchStep priority bufferSize w (.clone handle) =
        {w with agent := {w.agent with handles := w.agent.handles ++ [MessagePriority.all]}} := by
      simp [watchStep,agentStep,usable]
    rw [next]
    exact ⟨fun channel closed => (usable_open w.agent handle channel usable (told.gone channel closed)).elim,told.late⟩
  · have same : watchStep priority bufferSize w (.clone handle) = w := by simp [watchStep,agentStep,usable]
    rw [same]
    exact told

theorem dropSender_told (w : Watch Message) (handle : Nat) (told : Told w) :
    Told ⟨dropSender priority bufferSize w.agent handle,w.late⟩ := by
  unfold dropSender
  split
  · rename_i channel rest found
    dsimp only
    have fewer (other : MessagePriority) (closed : w.agent.state.closed other = true) :
        ∀ left ∈ w.agent.handles.set handle rest, other ∉ left := by
      intro left member
      rcases List.mem_or_eq_of_mem_set member with old | rfl
      · exact told.gone other closed left old
      · have before := told.gone other closed (channel :: left) (List.mem_of_getElem? found)
        exact fun inside => before (List.mem_cons_of_mem channel inside)
    by_cases last : ∀ other ∈ w.agent.handles.set handle rest, channel ∉ other
    · rw [if_pos last]
      refine ⟨fun other closed => ?_,told.late⟩
      by_cases same : other = channel
      · subst same
        exact last
      · change Function.update w.agent.state.closed channel true other = true at closed
        rw [Function.update_of_ne same] at closed
        exact fewer other closed
    · rw [if_neg last]
      exact ⟨fewer,told.late⟩
  · exact told

theorem drop_told (w : Watch Message) (handle : Nat) (told : Told w) :
    Told (watchStep priority bufferSize w (.drop handle)) := by
  by_cases kept : handle = 0 ∧ w.agent.registered = true
  · have same : watchStep priority bufferSize w (.drop handle) = w := by simp [watchStep,agentStep,kept]
    rw [same]
    exact told
  · have next : watchStep priority bufferSize w (.drop handle) =
        ⟨dropSender priority bufferSize w.agent handle,w.late⟩ := by
      simp only [watchStep,agentStep,if_neg kept]
    rw [next]
    exact dropSender_told priority bufferSize w handle told

theorem send_told (w : Watch Message) (handle : Nat) (message : Message) (told : Told w) :
    Told (watchStep priority bufferSize w (.send handle message)) := by
  by_cases accepted : Usable w.agent handle ∧ w.agent.state.closed (priority message) = false ∧
      (w.agent.state.queue (priority message)).length < bufferSize
  · have next : watchStep priority bufferSize w (.send handle message) =
        ⟨{w.agent with state := send priority bufferSize w.agent.state message},
          Function.update w.late (priority message) true⟩ := by
      simp [watchStep,agentStep,step,send,accepted]
    rw [next,send,if_pos accepted.2]
    refine ⟨told.gone,fun channel seen => ?_⟩
    dsimp only
    by_cases same : channel = priority message
    · subst same
      simp
    · rw [Function.update_of_ne same,Function.update_of_ne same]
      exact told.late channel seen
  · have same : watchStep priority bufferSize w (.send handle message) = w := by
      by_cases usable : Usable w.agent handle
      · have refused := fun room => accepted ⟨usable,room⟩
        simp only [watchStep,agentStep,step,send,if_pos usable,if_neg refused,Nat.lt_irrefl,if_false]
      · simp [watchStep,agentStep,usable]
    rw [same]
    exact told

theorem recv_told (w : Watch Message) (told : Told w) : Told (watchStep priority bufferSize w .recv) := by
  cases phase : w.agent.state.phase with
  | idle =>
    refine ⟨?_,?_⟩
    · simpa [watchStep,agentStep,step,phase] using told.gone
    · intro channel seen
      simp [watchStep,agentStep,step,phase,Seen,mem_all] at seen
  | trying | selecting | sweeping =>
    have same : watchStep priority bufferSize w .recv = w := by simp [watchStep,agentStep,step,phase]
    rw [same]
    exact told

theorem advance_late (w : Watch Message) (channel : MessagePriority) (told : Told w)
    (seen : Seen (advance w.agent.state).phase channel) :
    (watchStep priority bufferSize w .advance).late channel = false ↔ (advance w.agent.state).queue channel = [] := by
  have before := told.late channel
  cases phase : w.agent.state.phase with
  | idle => simp [advance,phase,Seen] at seen
  | trying todo =>
    cases todo with
    | nil => simpa [watchStep,advance,polls,phase,Seen] using before
    | cons polled todo =>
      cases front : w.agent.state.queue polled with
      | cons message later => simp [advance,phase,front,deliver,Seen] at seen
      | nil =>
        by_cases same : channel = polled
        · subst same
          simp [watchStep,advance,polls,phase,front]
        · simp [advance,phase,front,Seen] at seen
          simpa [watchStep,advance,polls,phase,front,same,Seen,seen] using before
  | selecting todo =>
    cases todo with
    | nil => simpa [watchStep,advance,polls,phase,Seen] using before
    | cons polled todo =>
      cases front : w.agent.state.queue polled with
      | cons message later => simp [advance,phase,front,Seen] at seen
      | nil =>
        have queue : (advance w.agent.state).queue = w.agent.state.queue := by
          simp only [advance,phase,front]
          split <;> rfl
        rw [queue]
        by_cases same : channel = polled
        · subst same
          simp [watchStep,polls,phase,front]
        · simpa [watchStep,polls,phase,same,Seen] using before
  | sweeping message todo =>
    cases todo with
    | nil => simp [advance,phase,deliver,Seen] at seen
    | cons polled todo =>
      cases front : w.agent.state.queue polled <;> simp [advance,phase,front,deliver,Seen] at seen

theorem advance_told (w : Watch Message) (told : Told w) : Told (watchStep priority bufferSize w .advance) where
  gone := by
    intro channel closed
    change (advance w.agent.state).closed channel = true at closed
    rw [advance_closed] at closed
    exact told.gone channel closed
  late := fun channel seen => advance_late priority bufferSize w channel told seen

theorem watchStep_told (w : Watch Message) (event : Event Message) (told : Told w) :
    Told (watchStep priority bufferSize w event) := by
  cases event with
  | clone handle => exact clone_told priority bufferSize w handle told
  | send handle message => exact send_told priority bufferSize w handle message told
  | drop handle => exact drop_told priority bufferSize w handle told
  | unregister => exact ⟨told.gone,told.late⟩
  | recv => exact recv_told priority bufferSize w told
  | advance => exact advance_told priority bufferSize w told

theorem atTheEnd_iff (w : Watch Message) (told : Told w) : AtTheEnd w.agent ↔ Quiet w := by
  unfold AtTheEnd Quiet
  refine imp_congr_right fun none => ?_
  have seen (channel : MessagePriority) : Seen w.agent.state.phase channel := by
    unfold ReturnsNone at none
    split at none
    · rename_i phase
      rw [phase]
      trivial
    · exact none.elim
  have dropped : ∀ handle ∈ w.agent.handles, handle ≠ MessagePriority.all := by
    unfold ReturnsNone at none
    split at none
    · rename_i channel todo phase
      rintro handle member rfl
      exact told.gone channel none.2 _ member (mem_all channel)
    · exact none.elim
  constructor
  · rintro ⟨-,empty⟩ channel
    exact (told.late channel (seen channel)).mpr (empty channel)
  · intro quiet
    exact ⟨dropped,fun channel => (told.late channel (seen channel)).mp (quiet channel)⟩

/-- `None` comes only at the end, in every state of a run, exactly when no channel has
taken a message behind the call that answers it. -/
theorem recv_ends_iff (events : List (Event Message)) :
    Always (watchStep priority bufferSize) (fun w => AtTheEnd w.agent) watched events ↔
      Always (watchStep priority bufferSize) Quiet watched events :=
  always_congr _ _ _ Told (watchStep_told priority bufferSize) atTheEnd_iff watched events told_watched

end Agents

/-! `recv` has found every channel empty; then a message is sent and the last handle goes. -/

def lastMessage : List (Event (MessagePriority × Nat)) :=
  [.unregister] ++ List.replicate 5 (.drop 0) ++ [.recv] ++ List.replicate 6 .advance ++
    [.send 1 (.background,1)] ++ List.replicate 5 (.drop 1)

def lastState : State (MessagePriority × Nat) := (run (watchStep Prod.fst 4) watched lastMessage).agent.state

theorem lastState_selecting :
    lastState.phase = .selecting MessagePriority.all ∧ lastState.queue .critical = [] ∧
      lastState.closed .critical = true ∧ lastState.queue .background = [(.background,1)] := by
  decide +kernel

theorem message_behind_none :
    ReturnsNone lastState ∧ lastState.queue .background = [(.background,1)] ∧
    ¬Always (watchStep Prod.fst 4) (fun w => AtTheEnd w.agent) watched lastMessage := by
  obtain ⟨phase,empty,closed,queued⟩ := lastState_selecting
  have none : ReturnsNone lastState := returnsNone_selecting lastState .critical _ phase empty closed
  refine ⟨none,queued,fun always => ?_⟩
  have ending : AtTheEnd (run (watchStep Prod.fst 4) watched lastMessage).agent := always_end _ _ _ _ always
  have missing := (ending none).2 .background
  change lastState.queue .background = [] at missing
  rw [queued] at missing
  cases missing

end ClawKernel.A2A.Closing
