import ClawKernel.A2A.Priority
import Mathlib.Data.List.Infix

/-! The order in which `recv` returns messages. A call of `recv` polls every channel above
the one it takes a message from, so that what is left in them came after the call began.
The messages that are sent are numbered by their places in `sent`.
-/
namespace ClawKernel.A2A.Priority
open Lib.Runs

/-- The agent, and how many messages had been sent when the present call of `recv` began. -/
structure Watch (Message : Type) where
  state : State Message
  begun : Nat

section Watching
variable {Message : Type} (priority : Message → MessagePriority) (bufferSize : Nat)

def watched : Watch Message := ⟨registerAgent,0⟩

def watchStep (w : Watch Message) (event : Event Message) : Watch Message where
  state := step priority bufferSize w.state event
  begun :=
    match event, w.state.phase with
    | .recv, .idle => w.state.sent.length
    | _, _ => w.begun

def ofPriority (channel : MessagePriority) (messages : List Message) : List Message :=
  messages.filter (fun message => priority message = channel)

/-- The messages sent to a channel since the call began. -/
def arrived (w : Watch Message) (channel : MessagePriority) : List Message :=
  ofPriority priority channel (w.state.sent.drop w.begun)

/-- The call has found the channel empty. -/
def Polled (phase : Phase Message) (channel : MessagePriority) : Prop :=
  match phase with
  | .idle => False
  | .trying todo => channel ∉ todo
  | .selecting _ | .sweeping _ _ => True

def remaining (phase : Phase Message) : List MessagePriority :=
  match phase with
  | .trying todo => todo
  | _ => []

structure Ordered (w : Watch Message) : Prop where
  own : ∀ channel, ∀ message ∈ w.state.queue channel, priority message = channel
  begun : w.begun ≤ w.state.sent.length
  remaining : remaining w.state.phase <:+ MessagePriority.all
  polled : ∀ channel, Polled w.state.phase channel → w.state.queue channel <:+ arrived priority w channel
  sent : ∀ channel, (ofPriority priority channel (w.state.returned ++ held w.state) ++ w.state.queue channel).Sublist
    (ofPriority priority channel w.state.sent)

theorem higher_polled (channel : MessagePriority) (todo : List MessagePriority)
    (remaining : channel :: todo <:+ MessagePriority.all) : ∀ higher ∈ channel.higher, higher ∉ channel :: todo := by
  have every : ∀ rest ∈ MessagePriority.all.tails,
      ∀ higher ∈ (rest.head?.map MessagePriority.higher).getD [], higher ∉ rest := by decide
  exact every (channel :: todo) ((List.mem_tails _ _).mpr remaining)

theorem takeFrom_queue (s : State Message) (channel other : MessagePriority) (message : Message) (later : List Message)
    (front : s.queue channel = message :: later) : (takeFrom s channel later).queue other <:+ s.queue other := by
  by_cases same : other = channel
  · subst same
    rw [front]
    simp [takeFrom]
  · simp [takeFrom,same]

/-- What one channel operation of `recv` does. -/
inductive Advanced (s : State Message) : State Message → Prop where
  | moved (phase : Phase Message) (holds : held {s with phase := phase} = held s)
      (polled : ∀ channel, Polled phase channel → Polled s.phase channel ∨ s.queue channel = [])
      (fewer : remaining phase <:+ remaining s.phase) : Advanced s {s with phase := phase}
  | returned (channel : MessagePriority) (message : Message) (later : List Message)
      (front : s.queue channel = message :: later) (polled : ∀ higher ∈ channel.higher, Polled s.phase higher) :
      Advanced s (deliver (takeFrom s channel later) message)
  | taken (channel : MessagePriority) (message : Message) (later : List Message)
      (front : s.queue channel = message :: later) (holds : held s = []) (polled : ∀ other, Polled s.phase other) :
      Advanced s {takeFrom s channel later with phase := .sweeping message channel.higher}
  | settled (message : Message) (holds : held s = [message]) (polled : ∀ other, Polled s.phase other) :
      Advanced s (deliver s message)

theorem advance_advanced (s : State Message) (order : remaining s.phase <:+ MessagePriority.all) :
    Advanced s (advance s) := by
  cases phase : s.phase with
  | idle =>
    have same : advance s = {s with phase := s.phase} := by simp [advance,phase]
    rw [same]
    exact .moved s.phase rfl (fun _ polled => .inl polled) List.suffix_rfl
  | trying todo =>
    rw [phase] at order
    cases todo with
    | nil =>
      have next : advance s = {s with phase := .selecting MessagePriority.all} := by simp [advance,phase]
      rw [next]
      exact .moved _ (by simp [held,phase]) (fun _ _ => .inl (by simp [Polled,phase])) (List.nil_suffix)
    | cons channel todo =>
      cases front : s.queue channel with
      | nil =>
        have next : advance s = {s with phase := .trying todo} := by simp [advance,phase,front]
        rw [next]
        refine .moved _ (by simp [held,phase]) (fun other polled => ?_) ?_
        · by_cases same : other = channel
          · exact .inr (same ▸ front)
          · exact .inl (by simpa [Polled,phase,same] using polled)
        · rw [phase]
          exact List.suffix_cons channel todo
      | cons message later =>
        have next : advance s = deliver (takeFrom s channel later) message := by simp [advance,phase,front]
        rw [next]
        refine .returned channel message later front (fun higher above => ?_)
        rw [phase]
        exact higher_polled channel todo order higher above
  | selecting todo =>
    have polled (other : MessagePriority) : Polled s.phase other := by simp [Polled,phase]
    have nothing : held s = [] := by simp [held,phase]
    cases todo with
    | nil =>
      have next : advance s = {s with phase := .selecting MessagePriority.all} := by simp [advance,phase]
      rw [next]
      exact .moved _ nothing.symm (fun other _ => .inl (polled other)) List.nil_suffix
    | cons channel todo =>
      cases front : s.queue channel with
      | nil =>
        have next : advance s = {s with phase := if s.closed channel then .idle else .selecting todo} := by
          simp only [advance,phase,front]
          split <;> rfl
        rw [next]
        refine .moved _ ?_ (fun other _ => .inl (polled other)) ?_
        · rw [nothing]
          split <;> rfl
        · split <;> exact List.nil_suffix
      | cons message later =>
        have next : advance s = {takeFrom s channel later with phase := .sweeping message channel.higher} := by
          simp [advance,phase,front]
        rw [next]
        exact .taken channel message later front nothing polled
  | sweeping message todo =>
    have polled (other : MessagePriority) : Polled s.phase other := by simp [Polled,phase]
    have holds : held s = [message] := by simp [held,phase]
    cases todo with
    | nil =>
      have next : advance s = deliver s message := by simp [advance,phase]
      rw [next]
      exact .settled message holds polled
    | cons channel todo =>
      cases front : s.queue channel with
      | nil =>
        have next : advance s = {s with phase := .sweeping message todo} := by simp [advance,phase,front]
        rw [next]
        exact .moved _ holds.symm (fun other _ => .inl (polled other)) List.nil_suffix
      | cons hi later =>
        have next : advance s = deliver (takeFrom s channel later) hi := by simp [advance,phase,front]
        rw [next]
        exact .returned channel hi later front (fun higher _ => polled higher)

/-- A step of `recv` only takes from the front of a queue. -/
theorem advanced_queue (s after : State Message) (advanced : Advanced s after) (channel : MessagePriority) :
    after.queue channel <:+ s.queue channel := by
  cases advanced with
  | moved => exact List.suffix_rfl
  | returned taken message later front => exact takeFrom_queue s taken channel message later front
  | taken taken message later front => exact takeFrom_queue s taken channel message later front
  | settled => exact List.suffix_rfl

theorem advanced_polled (s after : State Message) (advanced : Advanced s after) (channel : MessagePriority)
    (polled : Polled after.phase channel) : Polled s.phase channel ∨ s.queue channel = [] := by
  cases advanced with
  | moved phase _ next => exact next channel polled
  | returned => exact absurd polled id
  | taken _ _ _ _ _ all => exact .inl (all channel)
  | settled => exact absurd polled id

theorem advanced_remaining (s after : State Message) (advanced : Advanced s after) :
    remaining after.phase <:+ remaining s.phase := by
  cases advanced with
  | moved phase _ _ fewer => exact fewer
  | returned => exact List.nil_suffix
  | taken => exact List.nil_suffix
  | settled => exact List.nil_suffix

theorem ofPriority_append (channel : MessagePriority) (first second : List Message) :
    ofPriority priority channel (first ++ second) = ofPriority priority channel first ++ ofPriority priority channel second :=
  List.filter_append first second

theorem takeFrom_order (s : State Message) (taken channel : MessagePriority) (message : Message) (later : List Message)
    (front : s.queue taken = message :: later) (own : priority message = taken) :
    ofPriority priority channel [message] ++ (takeFrom s taken later).queue channel = s.queue channel := by
  subst own
  by_cases same : channel = priority message
  · subst same
    rw [front]
    simp [ofPriority,takeFrom]
  · simp [ofPriority,takeFrom,same,Ne.symm same]

/-- Of a channel's messages, those returned, held and queued keep their order. -/
theorem advanced_order (s after : State Message) (advanced : Advanced s after) (channel : MessagePriority)
    (own : ∀ channel, ∀ message ∈ s.queue channel, priority message = channel) :
    (ofPriority priority channel (after.returned ++ held after) ++ after.queue channel).Sublist
      (ofPriority priority channel (s.returned ++ held s) ++ s.queue channel) := by
  cases advanced with
  | moved phase holds =>
    rw [holds]
  | returned taken message later front =>
    have order := takeFrom_order priority s taken channel message later front
      (own taken message (front ▸ List.mem_cons_self))
    rw [deliver_returned,deliver_held,List.append_nil,ofPriority_append,List.append_assoc]
    change (ofPriority priority channel s.returned ++
      (ofPriority priority channel [message] ++ (takeFrom s taken later).queue channel)).Sublist _
    rw [order,ofPriority_append]
    exact (List.sublist_append_left _ _).append_right _
  | taken taken message later front holds =>
    have order := takeFrom_order priority s taken channel message later front
      (own taken message (front ▸ List.mem_cons_self))
    rw [holds,List.append_nil]
    change (ofPriority priority channel (s.returned ++ [message]) ++ (takeFrom s taken later).queue channel).Sublist _
    rw [ofPriority_append,List.append_assoc,order]
  | settled message holds =>
    rw [holds,deliver_returned,deliver_held,List.append_nil]
    rfl

/-- What is returned was taken when every higher channel had been polled. -/
theorem advanced_higher (s after : State Message) (advanced : Advanced s after) (message : Message)
    (own : ∀ channel, ∀ message ∈ s.queue channel, priority message = channel)
    (returns : after.returned = s.returned ++ [message]) : ∀ higher ∈ (priority message).higher, Polled s.phase higher := by
  cases advanced with
  | moved => exact absurd (List.self_eq_append_right.mp returns) (List.cons_ne_nil _ _)
  | taken => exact absurd (List.self_eq_append_right.mp returns) (List.cons_ne_nil _ _)
  | settled other holds polled => exact fun higher _ => polled higher
  | returned channel other later front polled =>
    obtain rfl : other = message := by simpa using returns
    rw [own channel other (front ▸ List.mem_cons_self)]
    exact polled

/-! The invariant. -/

theorem ordered_watched : Ordered priority (watched : Watch Message) where
  own := fun _ _ member => absurd member List.not_mem_nil
  begun := Nat.le_refl _
  remaining := List.nil_suffix
  polled := fun _ polled => polled.elim
  sent := fun _ => List.Sublist.refl _

theorem send_queue (s : State Message) (message : Message) (channel : MessagePriority) :
    Function.update s.queue (priority message) (s.queue (priority message) ++ [message]) channel =
      s.queue channel ++ ofPriority priority channel [message] := by
  by_cases same : channel = priority message
  · subst same
    simp [ofPriority]
  · simp [ofPriority,same,Ne.symm same]

theorem send_ordered (w : Watch Message) (message : Message) (ordered : Ordered priority w) :
    Ordered priority (watchStep priority bufferSize w (.send message)) := by
  change Ordered priority ⟨send priority bufferSize w.state message,w.begun⟩
  unfold send
  split
  · constructor <;> dsimp only
    · intro channel other member
      rw [send_queue,List.mem_append] at member
      rcases member with old | new
      · exact ordered.own channel other old
      · exact of_decide_eq_true (List.mem_filter.mp new).2
    · rw [List.length_append]
      exact Nat.le_add_right_of_le ordered.begun
    · exact ordered.remaining
    · intro channel polled
      obtain ⟨gone,split⟩ := ordered.polled channel polled
      unfold arrived at split ⊢
      dsimp only
      rw [send_queue,List.drop_append_of_le_length ordered.begun,ofPriority_append,← split,List.append_assoc]
      exact List.suffix_append gone _
    · intro channel
      rw [send_queue,ofPriority_append _ _ w.state.sent,← List.append_assoc]
      exact (ordered.sent channel).append_right _
  · exact ordered

theorem recv_ordered (w : Watch Message) (ordered : Ordered priority w) :
    Ordered priority (watchStep priority bufferSize w .recv) := by
  cases phase : w.state.phase with
  | idle =>
    have same : watchStep priority bufferSize w .recv =
        ⟨{w.state with phase := .trying MessagePriority.all},w.state.sent.length⟩ := by
      simp [watchStep,step,phase]
    have sent := ordered.sent
    unfold held at sent
    rw [phase] at sent
    rw [same]
    exact ⟨ordered.own,Nat.le_refl _,List.suffix_rfl,
      fun channel polled => absurd (by cases channel <;> decide) polled,sent⟩
  | trying | selecting | sweeping =>
    have same : watchStep priority bufferSize w .recv = w := by simp [watchStep,step,phase]
    rw [same]
    exact ordered

theorem advance_ordered (w : Watch Message) (ordered : Ordered priority w) :
    Ordered priority (watchStep priority bufferSize w .advance) := by
  have advanced := advance_advanced w.state ordered.remaining
  have same := advance_sent w.state
  change Ordered priority ⟨advance w.state,w.begun⟩
  constructor
  · intro channel message member
    exact ordered.own channel message ((advanced_queue _ _ advanced channel).subset member)
  · rw [same]
    exact ordered.begun
  · exact (advanced_remaining _ _ advanced).trans ordered.remaining
  · intro channel polled
    unfold arrived
    rw [same]
    rcases advanced_polled _ _ advanced channel polled with before | empty
    · exact (advanced_queue _ _ advanced channel).trans (ordered.polled channel before)
    · have none := advanced_queue _ _ advanced channel
      rw [empty,List.suffix_nil] at none
      rw [none]
      exact List.nil_suffix
  · intro channel
    rw [same]
    exact (advanced_order priority _ _ advanced channel ordered.own).trans (ordered.sent channel)

theorem watchStep_ordered (w : Watch Message) (event : Event Message) (ordered : Ordered priority w) :
    Ordered priority (watchStep priority bufferSize w event) := by
  cases event with
  | send message => exact send_ordered priority bufferSize w message ordered
  | close channel => exact ⟨ordered.own,ordered.begun,ordered.remaining,ordered.polled,ordered.sent⟩
  | recv => exact recv_ordered priority bufferSize w ordered
  | advance => exact advance_ordered priority bufferSize w ordered

/-- At every moment of every run: a message that `recv` returns at the next step leaves in
the higher channels only messages that were sent after the call began, and of one
priority the messages are returned in the order in which they were sent. -/
theorem recv_in_order (events : List (Event Message)) :
    let w := run (watchStep priority bufferSize) watched events
    (∀ message, (advance w.state).returned = w.state.returned ++ [message] →
      ∀ higher ∈ (priority message).higher, (advance w.state).queue higher <:+ arrived priority w higher) ∧
    ∀ channel, (ofPriority priority channel w.state.returned).Sublist (ofPriority priority channel w.state.sent) := by
  intro w
  have ordered : Ordered priority w := run_always _ (Ordered priority) (watchStep_ordered priority bufferSize)
    watched events (ordered_watched priority)
  constructor
  · intro message returns higher above
    have advanced := advance_advanced w.state ordered.remaining
    exact (advanced_queue _ _ advanced higher).trans
      (ordered.polled higher (advanced_higher priority _ _ advanced message ordered.own returns higher above))
  · intro channel
    refine List.Sublist.trans ?_ (ordered.sent channel)
    rw [ofPriority_append,List.append_assoc]
    exact List.sublist_append_left _ _

end Watching
end ClawKernel.A2A.Priority
