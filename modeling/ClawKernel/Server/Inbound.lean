import ClawKernel.Lib.Channel
import ClawKernel.Lib.Runs
import ClawKernel.Loop.Chunks

/-! Messages that reach a session beside `sendMessage`: from channels, from webhooks and from
schedules. Each takes the lock of the session's agent loop and runs `run_streaming` into a
channel whose receiver it keeps and never reads. The loop ignores what becomes of a chunk, so
a run is what it sends, in that order, and ends when all of it is sent. `channel.inbound` also
awaits its reply's place in a notify queue before it gives the lock back: that send is left out,
so a holder that is done here may still wait there for the connection of its channel.
-/
namespace ClawKernel.Server.Inbound
open Lib.Runs Lib.Channel Loop.Types Loop.Run Loop.Conversation Loop.Refinement Loop.Chunks

inductive Route where
  | channelInbound
  | channelBroadcast
  | webhook
  | scheduleCreate
  deriving DecidableEq, Repr

def Route.capacity : Route → Nat
  | .channelInbound => 256
  | .channelBroadcast => 256
  | .webhook => 256
  | .scheduleCreate => 64

/-- A session's loop, the messages that wait for its lock, and the run that holds it with the
record the run will leave. -/
structure Session where
  vars : Vars
  waiting : List (Route × String)
  holder : Option (Sender StreamChunk × Vars)

/-- A message arrives, the first that waits takes the lock, the holder does its next send or,
with all sent, gives the lock back. -/
inductive Action where
  | arrive (route : Route) (message : String)
  | acquire
  | advance
  deriving DecidableEq, Repr

def acquire (loop : AgentLoop) (s : Session) : Session :=
  match s.holder, s.waiting with
  | none, (route,message) :: rest =>
    match Loop.Streaming.runStreaming loop message s.vars with
    | none => s
    | some (_,last) => { s with waiting := rest,holder := some (⟨route.capacity,[],last.chunks⟩,last) }
  | _, _ => s

def advance (s : Session) : Session :=
  match s.holder with
  | none => s
  | some (sender,last) =>
    match sender.pending with
    | [] => { s with vars := last,holder := none }
    | _ :: _ => { s with holder := some (sender.advance,last) }

def act (loop : AgentLoop) (s : Session) : Action → Session
  | .arrive route message => { s with waiting := s.waiting ++ [(route,message)] }
  | .acquire => acquire loop s
  | .advance => advance s

/-- The holder of the lock does not wait before a full channel, and left to itself gives the
lock back. -/
def Flows (loop : AgentLoop) (s : Session) : Prop :=
  (∀ sender last, s.holder = some (sender,last) → ¬sender.Waits) ∧
  ∃ n, (run (act loop) s (List.replicate n .advance)).holder = none

/-- What the agent answers to the message that takes the lock comes to no more chunks than the
channel of its route holds. -/
def AnswerFits (loop : AgentLoop) (s : Session) : Action → Prop
  | .acquire => ∀ route message rest, s.holder = none → s.waiting = (route,message) :: rest →
    runChunks loop message (talkOf s.vars) ≤ route.capacity
  | _ => True

def HolderFits (s : Session) : Prop := ∀ holder, s.holder = some holder → holder.1.Fits

theorem holderFits_none (s : Session) (free : s.holder = none) : HolderFits s := by
  intro holder held
  rw [free] at held
  cases held

theorem holderFits_some (s : Session) (holder : Sender StreamChunk × Vars) (held : s.holder = some holder) :
    HolderFits s ↔ holder.1.Fits := by
  constructor
  · intro fits
    exact fits holder held
  · intro fits other same
    rw [← Option.some_inj.mp (held.symm.trans same)]
    exact fits

theorem advance_free (s : Session) (free : s.holder = none) : advance s = s := by
  simp only [advance,free]

theorem advance_done (s : Session) (sender : Sender StreamChunk) (last : Vars) (held : s.holder = some (sender,last))
    (done : sender.pending = []) : (advance s).holder = none := by
  simp only [advance,held,done]

theorem advance_more (s : Session) (sender : Sender StreamChunk) (last : Vars) (held : s.holder = some (sender,last))
    (item : StreamChunk) (rest : List StreamChunk) (more : sender.pending = item :: rest) :
    (advance s).holder = some (sender.advance,last) := by
  simp only [advance,held,more]

theorem holderFits_advance_iff (s : Session) : HolderFits (advance s) ↔ HolderFits s := by
  cases held : s.holder with
  | none => rw [advance_free s held]
  | some holder =>
    obtain ⟨sender,last⟩ := holder
    rw [holderFits_some s _ held]
    cases pending : sender.pending with
    | nil => exact iff_of_true (holderFits_none _ (advance_done s sender last held pending)) (.inl pending)
    | cons item rest =>
      rw [holderFits_some _ _ (advance_more s sender last held item rest pending)]
      exact fits_advance_iff sender

theorem freed_of_fits (loop : AgentLoop) (length : Nat) (s : Session)
    (size : ∀ holder, s.holder = some holder → holder.1.pending.length = length) (fits : HolderFits s) :
    ∃ n, (run (act loop) s (List.replicate n .advance)).holder = none := by
  induction length generalizing s with
  | zero =>
    cases held : s.holder with
    | none => exact ⟨0,held⟩
    | some holder => exact ⟨1,advance_done s holder.1 holder.2 held (List.length_eq_zero_iff.mp (size holder held))⟩
  | succ length ih =>
    cases held : s.holder with
    | none => exact ⟨0,held⟩
    | some holder =>
      obtain ⟨sender,last⟩ := holder
      obtain ⟨item,rest,pending⟩ := List.exists_cons_of_length_eq_add_one (size _ held)
      have next := advance_more s sender last held item rest pending
      obtain ⟨n,free⟩ := ih (advance s) (by
        intro other same
        rw [← Option.some_inj.mp (next.symm.trans same),
          advance_pending sender item rest pending (fits _ held)]
        have more := size _ held
        rw [pending] at more
        exact Nat.succ.inj more) ((holderFits_advance_iff s).mpr fits)
      exact ⟨n + 1,free⟩

theorem fits_of_freed (loop : AgentLoop) (n : Nat) (s : Session)
    (free : (run (act loop) s (List.replicate n .advance)).holder = none) : HolderFits s := by
  induction n generalizing s with
  | zero => exact holderFits_none s free
  | succ n ih => exact (holderFits_advance_iff s).mp (ih (advance s) free)

theorem flows_iff (loop : AgentLoop) (s : Session) : Flows loop s ↔ HolderFits s := by
  constructor
  · intro ⟨_,n,free⟩
    exact fits_of_freed loop n s free
  · intro fits
    refine ⟨fun sender last held => not_waits_of_fits sender (fits _ held),?_⟩
    cases held : s.holder with
    | none => exact ⟨0,held⟩
    | some holder =>
      apply freed_of_fits loop holder.1.pending.length s _ fits
      intro other same
      rw [Option.some_inj.mp (held.symm.trans same)]

theorem acquire_fits_iff (loop : AgentLoop) (s : Session) (free : s.holder = none) (route : Route) (message : String)
    (rest : List (Route × String)) (next : s.waiting = (route,message) :: rest) :
    HolderFits (acquire loop s) ↔ runChunks loop message (talkOf s.vars) ≤ route.capacity := by
  obtain ⟨⟨result,last⟩,ran⟩ := runWith_ends loop _ _ (stream_turn_reaches loop) message s.vars
  have sent := runStreaming_sends loop message s.vars (result,last) ran
  have taken : (acquire loop s).holder = some (⟨route.capacity,[],last.chunks⟩,last) := by
    simp only [acquire,free,next,Loop.Streaming.runStreaming,ran]
  rw [holderFits_some _ _ taken,← sent]
  constructor
  · intro fits
    rcases fits with none | bound
    · have empty : last.chunks = [] := none
      rw [empty]
      exact Nat.zero_le _
    · simpa using bound
  · intro bound
    exact .inr (by simpa using bound)

theorem act_flows_iff (loop : AgentLoop) (s : Session) (a : Action) (flows : Flows loop s) :
    Flows loop (act loop s a) ↔ AnswerFits loop s a := by
  rw [flows_iff] at flows ⊢
  cases a with
  | arrive route message => exact iff_of_true flows trivial
  | advance => exact iff_of_true ((holderFits_advance_iff s).mpr flows) trivial
  | acquire =>
    change HolderFits (acquire loop s) ↔ _
    cases free : s.holder with
    | some holder =>
      have same : acquire loop s = s := by simp only [acquire,free]
      rw [same]
      exact iff_of_true flows (fun _ _ _ none => by rw [free] at none; cases none)
    | none =>
      cases next : s.waiting with
      | nil =>
        have same : acquire loop s = s := by simp only [acquire,free,next]
        rw [same]
        exact iff_of_true flows (fun _ _ _ _ more => by rw [next] at more; cases more)
      | cons job rest =>
        obtain ⟨route,message⟩ := job
        rw [acquire_fits_iff loop s free route message rest next]
        constructor
        · intro bound other text more _ same
          obtain ⟨rfl,rfl⟩ := Prod.mk.inj (List.cons.inj (next.symm.trans same)).1
          exact bound
        · intro fits
          exact fits route message rest free next

/-- Whatever arrives and in whatever order the session acts, no run waits before a full channel
and the lock is always given back, exactly when the answer to each message that takes the lock
fits the channel of its route. -/
theorem inbound_flows_iff (loop : AgentLoop) (vars : Vars) (actions : List Action) :
    Always (act loop) (Flows loop) ⟨vars,[],none⟩ actions ↔
      Along (act loop) (AnswerFits loop) ⟨vars,[],none⟩ actions := by
  apply always_iff_along (act loop) (AnswerFits loop) (Flows loop) (fun _ => True) (fun _ => True)
    (fun _ _ _ _ => trivial) (fun s a _ _ flows => act_flows_iff loop s a flows) _ actions (fun _ _ => trivial) trivial
  rw [flows_iff]
  exact holderFits_none _ rfl

/-- The loop of an inbound session whose model answers in so many deltas of one letter. -/
def letters (count : Nat) : AgentLoop where
  provider := ⟨"p","m",fun _ _ _ _ => .error (.network "unused"),
    fun _ _ _ => .ok (List.replicate count (.ok ⟨some "a",none,none,none⟩))⟩
  tools := none
  stopConditions := []
  config := {}
  agentId := "session"
  fromStr := fun _ => .error "expected value at line 1 column 1"

def idle : Vars := ⟨[],.new,.idle,[],[],[],[],.new,[]⟩

theorem letters_chunks (count : Nat) : count ≤ runChunks (letters count) "go" (talkOf idle) := by
  have texts : textChunks (List.replicate count (.ok ⟨some "a",none,none,none⟩)) = count := by
    induction count with
    | zero => rfl
    | succ count ih =>
      rw [List.replicate_succ,textChunks,ih,if_neg (by decide)]
      exact Nat.add_comm 1 count
  have first : turnChunks (letters count) (start "go" (talkOf idle)) =
      responseChunks (letters count) (start "go" (talkOf idle)) (List.replicate count (.ok ⟨some "a",none,none,none⟩)) :=
    rfl
  calc
    count = textChunks (List.replicate count (.ok ⟨some "a",none,none,none⟩)) := texts.symm
    _ ≤ turnChunks (letters count) (start "go" (talkOf idle)) := by
      rw [first,responseChunks,Nat.add_assoc]
      exact Nat.le_add_right _ _
    _ ≤ runChunks (letters count) "go" (talkOf idle) := Nat.le_add_right _ _

theorem letters_wedge (count : Nat) (route : Route) (long : route.capacity < count) :
    ¬Flows (letters count) (run (act (letters count)) ⟨idle,[],none⟩ [.arrive route "go",.acquire]) := by
  intro flows
  have start := (flows_iff (letters count) ⟨idle,[(route,"go")],none⟩).mpr (holderFits_none _ rfl)
  have fits := (act_flows_iff (letters count) _ .acquire start).mp flows
  have all := Nat.le_trans (letters_chunks count) (fits route "go" [] rfl rfl)
  exact absurd all (Nat.not_le.mpr long)

/-- An answer in more letters than the channel holds: the run waits before the full channel
and the lock is never given back. -/
theorem long_answer_wedges :
    ¬Flows (letters 257) (run (act (letters 257)) ⟨idle,[],none⟩ [.arrive .channelInbound "go",.acquire]) ∧
    ¬Flows (letters 65) (run (act (letters 65)) ⟨idle,[],none⟩ [.arrive .scheduleCreate "go",.acquire]) :=
  ⟨letters_wedge 257 .channelInbound (by decide),letters_wedge 65 .scheduleCreate (by decide)⟩

end ClawKernel.Server.Inbound
