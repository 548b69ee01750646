import ClawKernel.Lib.Runs
import Mathlib.Data.Int.Order.Basic
import Mathlib.Data.List.Perm.Basic
import Mathlib.Logic.Function.Basic

/-! The five priority channels of a registered agent and the `recv` that drains
them. Every channel operation of `recv` is a step of its own: sends from other
threads land between any two of them, also while a message is already taken out
and the higher channels are polled once more.
-/
namespace ClawKernel.A2A.Priority
open Lib.Runs

inductive MessagePriority where
  | critical
  | high
  | normal
  | low
  | background
  deriving DecidableEq, Repr

namespace MessagePriority

def all : List MessagePriority := [critical,high,normal,low,background]

def higher : MessagePriority → List MessagePriority
  | critical => []
  | high => [critical]
  | normal => [critical,high]
  | low => [critical,high,normal]
  | background => [critical,high,normal,low]

end MessagePriority

/-- Where `recv` stands, with the channels it has still to poll. -/
inductive Phase (Message : Type) where
  | idle
  | trying (todo : List MessagePriority)
  | selecting (todo : List MessagePriority)
  | sweeping (held : Message) (todo : List MessagePriority)
  deriving DecidableEq, Repr

structure State (Message : Type) where
  queue : MessagePriority → List Message
  closed : MessagePriority → Bool
  phase : Phase Message
  sent : List Message
  returned : List Message

inductive Event (Message : Type) where
  | send (message : Message)
  | close (priority : MessagePriority)
  | recv
  | advance
  deriving DecidableEq, Repr

section Receiver
variable {Message : Type} (priority : Message → MessagePriority) (bufferSize : Nat)

def registerAgent : State Message where
  queue := fun _ => []
  closed := fun _ => false
  phase := .idle
  sent := []
  returned := []

def takeFrom (s : State Message) (channel : MessagePriority) (later : List Message) : State Message :=
  { s with queue := Function.update s.queue channel later }

def deliver (s : State Message) (message : Message) : State Message :=
  { s with phase := .idle, returned := s.returned ++ [message] }

/-- One channel operation of `recv`. -/
def advance (s : State Message) : State Message :=
  match s.phase with
  | .idle => s
  | .trying [] => { s with phase := .selecting MessagePriority.all }
  | .trying (channel :: todo) =>
    match s.queue channel with
    | message :: later => deliver (takeFrom s channel later) message
    | [] => { s with phase := .trying todo }
  -- All five arms are pending; the task is polled again when one is woken.
  | .selecting [] => { s with phase := .selecting MessagePriority.all }
  | .selecting (channel :: todo) =>
    match s.queue channel with
    | message :: later => { takeFrom s channel later with phase := .sweeping message channel.higher }
    | [] => if s.closed channel then { s with phase := .idle } else { s with phase := .selecting todo }
  | .sweeping held [] => deliver s held
  | .sweeping held (channel :: todo) =>
    match s.queue channel with
    | hi :: later => deliver (takeFrom s channel later) hi
    | [] => { s with phase := .sweeping held todo }

def send (s : State Message) (message : Message) : State Message :=
  if s.closed (priority message) = false ∧ (s.queue (priority message)).length < bufferSize then
    { s with
      queue := Function.update s.queue (priority message) (s.queue (priority message) ++ [message])
      sent := s.sent ++ [message] }
  else s

def step (s : State Message) : Event Message → State Message
  | .send message => send priority bufferSize s message
  | .close channel => { s with closed := Function.update s.closed channel true }
  | .recv =>
    match s.phase with
    | .idle => { s with phase := .trying MessagePriority.all }
    | _ => s
  | .advance => advance s

def queued (s : State Message) : List Message :=
  MessagePriority.all.flatMap s.queue

def held (s : State Message) : List Message :=
  match s.phase with
  | .sweeping message _ => [message]
  | _ => []

def swept (s : State Message) : List Message :=
  match s.phase with
  | .sweeping _ (channel :: _) => s.queue channel
  | _ => []

/-- Nothing has arrived above a message that is already taken out. -/
def Undisturbed (s : State Message) : Event Message → Prop
  | .advance => swept s = []
  | _ => True

instance undisturbedDecidable [DecidableEq Message] (s : State Message) :
    ∀ event, Decidable (Undisturbed s event)
  | .advance => inferInstanceAs (Decidable (swept s = []))
  | .send _ | .close _ | .recv => isTrue trivial

/-- Everything taken in and not lost: what `recv` has returned, what it holds and
what is still queued. -/
def present (s : State Message) : List Message :=
  s.returned ++ held s ++ queued s

@[simp] theorem deliver_queued (s : State Message) (message : Message) :
    queued (deliver s message) = queued s := rfl

@[simp] theorem deliver_held (s : State Message) (message : Message) : held (deliver s message) = [] := rfl

@[simp] theorem deliver_returned (s : State Message) (message : Message) :
    (deliver s message).returned = s.returned ++ [message] := rfl

@[simp] theorem takeFrom_returned (s : State Message) (channel : MessagePriority) (later : List Message) :
    (takeFrom s channel later).returned = s.returned := rfl

private theorem queued_update_perm (s : State Message) (channel : MessagePriority) (message : Message)
    (later : List Message) (front : s.queue channel = message :: later) :
    (queued s).Perm (message :: queued (takeFrom s channel later)) := by
  classical
  rw [List.perm_iff_count]
  intro x
  cases channel <;>
    simp [queued,MessagePriority.all,takeFrom,Function.update,List.count_append,List.count_cons,front] <;> omega

private theorem queued_append_perm (s : State Message) (channel : MessagePriority) (message : Message) :
    (MessagePriority.all.flatMap (Function.update s.queue channel (s.queue channel ++ [message]))).Perm
      (queued s ++ [message]) := by
  classical
  rw [List.perm_iff_count]
  intro x
  cases channel <;>
    simp [queued,MessagePriority.all,Function.update,List.count_append,List.count_cons] <;> omega

private theorem present_take (s : State Message) (channel : MessagePriority) (message : Message)
    (later : List Message) (front : s.queue channel = message :: later) :
    (s.returned ++ [message] ++ queued (takeFrom s channel later)).Perm (s.returned ++ queued s) := by
  have moved := queued_update_perm s channel message later front
  rw [List.append_assoc]
  exact (moved.symm).append_left s.returned

/-- What neither the phase nor the queues nor the returned messages show, a step of `recv` leaves alone. -/
theorem advance_frame {α : Type} (f : State Message → α) (moved : ∀ s phase, f {s with phase := phase} = f s)
    (taken : ∀ s channel later, f (takeFrom s channel later) = f s) (delivered : ∀ s message, f (deliver s message) = f s)
    (s : State Message) : f (advance s) = f s := by
  unfold advance
  split
  · rfl
  · exact moved s _
  · split
    · rw [delivered,taken]
    · exact moved s _
  · exact moved s _
  · split
    · rw [moved,taken]
    · split <;> exact moved s _
  · exact delivered s _
  · split
    · rw [delivered,taken]
    · exact moved s _

theorem advance_sent (s : State Message) : (advance s).sent = s.sent :=
  advance_frame State.sent (fun _ _ => rfl) (fun _ _ _ => rfl) (fun _ _ => rfl) s

theorem advance_closed (s : State Message) : (advance s).closed = s.closed :=
  advance_frame State.closed (fun _ _ => rfl) (fun _ _ _ => rfl) (fun _ _ => rfl) s

theorem advance_present (s : State Message) (undisturbed : Undisturbed s .advance) :
    (present (advance s)).Perm (present s) := by
  cases phase : s.phase with
  | idle => simp [advance,phase]
  | trying todo =>
    cases todo with
    | nil => simp [advance,phase,present,held,queued]
    | cons channel todo =>
      cases front : s.queue channel with
      | nil => simp [advance,phase,present,held,queued,front]
      | cons message later =>
        simpa [advance,phase,present,held,front,deliver,takeFrom,queued] using
          present_take s channel message later front
  | selecting todo =>
    cases todo with
    | nil => simp [advance,phase,present,held,queued]
    | cons channel todo =>
      cases front : s.queue channel with
      | nil =>
        cases gone : s.closed channel <;> simp [advance,phase,present,held,queued,front,gone]
      | cons message later =>
        simpa [advance,phase,present,held,front,takeFrom,queued] using
          present_take s channel message later front
  | sweeping message todo =>
    cases todo with
    | nil => simp [advance,phase,present,held,queued,deliver]
    | cons channel todo =>
      have empty : s.queue channel = [] := by simpa [Undisturbed,swept,phase] using undisturbed
      simp [advance,phase,present,held,queued,empty]

/-- A sweep that finds a message returns it and drops the one it held. -/
theorem advance_loses (s : State Message) (disturbed : ¬Undisturbed s .advance) :
    (present (advance s)).length + 1 = (present s).length := by
  cases phase : s.phase with
  | idle => simp [Undisturbed,swept,phase] at disturbed
  | trying todo => simp [Undisturbed,swept,phase] at disturbed
  | selecting todo => simp [Undisturbed,swept,phase] at disturbed
  | sweeping message todo =>
    cases todo with
    | nil => simp [Undisturbed,swept,phase] at disturbed
    | cons channel todo =>
      cases front : s.queue channel with
      | nil => simp [Undisturbed,swept,phase,front] at disturbed
      | cons hi later =>
        have size := (queued_update_perm s channel hi later front).length_eq
        simp only [List.length_cons] at size
        have held : held s = [message] := by simp [held,phase]
        simp only [advance,phase,front,present,held,deliver_held,deliver_queued,deliver_returned,
          takeFrom_returned,List.length_append,List.length_cons,List.length_nil]
        omega

theorem send_present (s : State Message) (message : Message) :
    send priority bufferSize s message = s ∨
    ((send priority bufferSize s message).sent = s.sent ++ [message] ∧
      (present (send priority bufferSize s message)).Perm (present s ++ [message])) := by
  unfold send
  split
  · refine .inr ⟨rfl,?_⟩
    have grown := queued_append_perm s (priority message) message
    simpa [present,held,queued,List.append_assoc] using grown.append_left (s.returned ++ held s)
  · exact .inl rfl

private theorem recv_present (s : State Message) :
    (step priority bufferSize s .recv).sent = s.sent ∧
      present (step priority bufferSize s .recv) = present s := by
  cases phase : s.phase <;> simp [step,phase,present,held,queued]

theorem step_present (s : State Message) (event : Event Message) (complete : s.sent.Perm (present s))
    (undisturbed : Undisturbed s event) :
    (step priority bufferSize s event).sent.Perm (present (step priority bufferSize s event)) := by
  cases event with
  | send message =>
    rcases send_present priority bufferSize s message with same | ⟨sent,grown⟩
    · simpa only [step,same] using complete
    · simp only [step,sent]
      exact (complete.append_right [message]).trans grown.symm
  | close channel => exact complete
  | recv =>
    obtain ⟨sent,same⟩ := recv_present priority bufferSize s
    rwa [sent,same]
  | advance =>
    simp only [step,advance_sent]
    exact complete.trans (advance_present s undisturbed).symm

def balance (s : State Message) : Int :=
  (present s).length - s.sent.length

theorem step_balance (s : State Message) (event : Event Message) :
    balance (step priority bufferSize s event) ≤ balance s ∧
      (¬Undisturbed s event → balance (step priority bufferSize s event) < balance s) := by
  cases event with
  | send message =>
    refine ⟨?_,fun disturbed => absurd trivial disturbed⟩
    rcases send_present priority bufferSize s message with same | ⟨sent,grown⟩
    · simp only [step,same,le_refl]
    · have size := grown.length_eq
      simp only [step,balance,sent,size,List.length_append,List.length_cons,List.length_nil]
      omega
  | close channel => exact ⟨le_refl _,fun disturbed => absurd trivial disturbed⟩
  | recv =>
    obtain ⟨sent,same⟩ := recv_present priority bufferSize s
    refine ⟨?_,fun disturbed => absurd trivial disturbed⟩
    simp only [balance,sent,same,le_refl]
  | advance =>
    simp only [step,balance,advance_sent]
    by_cases undisturbed : Undisturbed s .advance
    · have size := (advance_present s undisturbed).length_eq
      exact ⟨by omega,fun disturbed => absurd undisturbed disturbed⟩
    · have size := advance_loses s undisturbed
      exact ⟨by omega,fun _ => by omega⟩

/-- Between two calls of `recv` the sent messages are the returned ones and the
queued ones, each as often as it was sent, exactly in the runs in which no
higher-priority message arrives while `recv` holds another. -/
theorem recv_conserves_iff (events : List (Event Message))
    (between : (run (step priority bufferSize) registerAgent events).phase = .idle) :
    (run (step priority bufferSize) registerAgent events).sent.Perm
        ((run (step priority bufferSize) registerAgent events).returned ++
          queued (run (step priority bufferSize) registerAgent events)) ↔
      Along (step priority bufferSize) Undisturbed registerAgent events := by
  have settled : present (run (step priority bufferSize) registerAgent events) =
      (run (step priority bufferSize) registerAgent events).returned ++
        queued (run (step priority bufferSize) registerAgent events) := by
    simp [present,held,between]
  rw [← settled]
  constructor
  · intro complete
    by_contra missed
    have fewer := run_measure_lt (step priority bufferSize) Undisturbed balance
      (fun s event => (step_balance priority bufferSize s event).1)
      (fun s event => (step_balance priority bufferSize s event).2) registerAgent events missed
    have size := complete.length_eq
    have start : balance (registerAgent : State Message) = 0 := rfl
    simp only [balance] at fewer start
    omega
  · intro along
    exact run_invariant (step priority bufferSize) Undisturbed (fun s => s.sent.Perm (present s))
      (step_present priority bufferSize) registerAgent events (List.Perm.refl _) along

end Receiver

def wokenByLow : List (Event (MessagePriority × Nat)) :=
  [.recv] ++ List.replicate 6 .advance ++ [.send (.low,1)] ++ List.replicate 8 .advance

theorem recv_conserves_iff_wokenByLow :
    (run (step Prod.fst 4) registerAgent wokenByLow).phase = .idle ∧
    (run (step Prod.fst 4) registerAgent wokenByLow).sent.Perm
      ((run (step Prod.fst 4) registerAgent wokenByLow).returned ++
        queued (run (step Prod.fst 4) registerAgent wokenByLow)) :=
  ⟨by decide,(recv_conserves_iff Prod.fst 4 wokenByLow (by decide)).mpr (by decide)⟩

/-- The select has polled the critical channel; then a background and a critical
message are sent, and `recv` goes on to the background arm and its sweep. -/
def criticalWhileSelecting : List (Event (MessagePriority × Nat)) :=
  [.recv] ++ List.replicate 7 .advance ++ [.send (.background,1),.send (.critical,2)] ++ List.replicate 5 .advance

theorem sweep_drops_background :
    (run (step Prod.fst 4) registerAgent criticalWhileSelecting).phase = .idle ∧
    (run (step Prod.fst 4) registerAgent criticalWhileSelecting).sent = [(.background,1),(.critical,2)] ∧
    (run (step Prod.fst 4) registerAgent criticalWhileSelecting).returned = [(.critical,2)] ∧
    queued (run (step Prod.fst 4) registerAgent criticalWhileSelecting) = [] := by
  decide

end ClawKernel.A2A.Priority
