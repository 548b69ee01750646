import ClawKernel.Lib.Runs

/-! Connecting and disconnecting a webhook channel, by itself or through the wrapper that
reconnects: the flag, the handle of the server task and the address it listens at.
-/
namespace ClawKernel.Adapters.WebhookConnection
open Lib.Runs

inductive ChannelError where
  | connectionFailed (message : String)
  | sendFailed (message : String)
  | receiveFailed (message : String)
  | authFailed
  | notFound (message : String)
  | rateLimited
  | invalidConfig (message : String)
  | disconnected
  deriving DecidableEq, Repr

/-- What the four fallible calls of one `connect` come to. -/
structure Attempt where
  bind : Except String Unit
  setNonblocking : Except String Unit
  fromStd : Except String Unit
  localAddr : Except String String

/-- The server tasks are numbered; `running` are those that have not been aborted. -/
structure WebhookChannel where
  started : Bool
  serverHandle : Option Nat
  localAddr : Option String
  spawned : Nat
  running : List Nat
  hasPublisher : Bool
  connectionStates : List Bool

def WebhookChannel.new (hasPublisher : Bool) : WebhookChannel := ⟨false,none,none,0,[],hasPublisher,[]⟩

def listen (attempt : Attempt) : Except ChannelError String := do
  attempt.bind.mapError (fun e => .connectionFailed ("bind failed: " ++ e))
  attempt.setNonblocking.mapError (fun e => .connectionFailed ("set_nonblocking: " ++ e))
  attempt.fromStd.mapError (fun e => .connectionFailed ("from_std: " ++ e))
  attempt.localAddr.mapError (fun e => .connectionFailed ("local_addr: " ++ e))

def publish (s : WebhookChannel) (connected : Bool) : WebhookChannel :=
  if s.hasPublisher then { s with connectionStates := s.connectionStates ++ [connected] } else s

def spawn (s : WebhookChannel) (addr : String) : WebhookChannel :=
  { s with
    localAddr := some addr
    serverHandle := some s.spawned
    spawned := s.spawned + 1
    running := s.spawned :: s.running }

/-- The flag is set before anything that can fail. -/
def connect (s : WebhookChannel) (attempt : Attempt) : WebhookChannel × Except ChannelError Unit :=
  if s.started then (s,.ok ())
  else
    let s := { s with started := true }
    match listen attempt with
    | .error e => (s,.error e)
    | .ok addr => (publish (spawn s addr) true,.ok ())

def abort (s : WebhookChannel) (handle : Nat) : WebhookChannel := { s with running := s.running.erase handle }

def disconnect (s : WebhookChannel) : WebhookChannel × Except ChannelError Unit :=
  let taken := { s with serverHandle := none }
  (publish (s.serverHandle.elim taken (abort taken)) false,.ok ())

inductive Call where
  | connect (attempt : Attempt)
  | disconnect

def step (s : WebhookChannel) : Call → WebhookChannel
  | .connect attempt => (connect s attempt).1
  | .disconnect => (disconnect s).1

/-! `RetryableChannel` around the channel. What each `recv` of the channel comes to, and the
attempts of the reconnections, are numbered by `attempt`. -/
section Retryable
variable {μ : Type}

def isRetryable : ChannelError → Bool
  | .authFailed => false
  | .invalidConfig _ => false
  | _ => true

/-- A `recv` with `left` retries left. -/
def recv (received : Nat → Except ChannelError μ) (attempts : Nat → Attempt) (attempt : Nat) :
    Nat → WebhookChannel → WebhookChannel × Except ChannelError μ
  | left, s =>
    match received attempt with
    | .ok msg => (s,.ok msg)
    | .error e =>
      if isRetryable e then
        match left with
        | 0 => (s,.error e)
        | left + 1 => recv received attempts (attempt + 1) left (connect s (attempts attempt)).1
      else (s,.error e)

/-- The reconnections of a `recv`. -/
def reconnections (received : Nat → Except ChannelError μ) (attempts : Nat → Attempt) (attempt : Nat) : Nat → List Call
  | 0 => []
  | left + 1 =>
    match received attempt with
    | .ok _ => []
    | .error e =>
      if isRetryable e then .connect (attempts attempt) :: reconnections received attempts (attempt + 1) left else []

inductive Event (μ : Type) where
  | connect (attempt : Attempt)
  | disconnect
  | recv (maxRetries : Nat) (received : Nat → Except ChannelError μ) (attempts : Nat → Attempt)

def serve (s : WebhookChannel) : Event μ → WebhookChannel
  | .connect attempt => (connect s attempt).1
  | .disconnect => (disconnect s).1
  | .recv maxRetries received attempts => (recv received attempts 0 maxRetries s).1

/-- The calls on the channel that a call on the wrapper makes. -/
def calls : Event μ → List Call
  | .connect attempt => [.connect attempt]
  | .disconnect => [.disconnect]
  | .recv maxRetries received attempts => reconnections received attempts 0 maxRetries

theorem recv_eq (received : Nat → Except ChannelError μ) (attempts : Nat → Attempt) (attempt left : Nat)
    (s : WebhookChannel) :
    (recv received attempts attempt left s).1 = run step s (reconnections received attempts attempt left) := by
  induction left generalizing attempt s with
  | zero =>
    unfold recv
    split
    · rfl
    · split
      · rfl
      · rfl
  | succ left ih =>
    unfold recv reconnections
    split
    · rfl
    · split
      · exact ih (attempt + 1) (connect s (attempts attempt)).1
      · rfl

theorem serve_eq (s : WebhookChannel) (event : Event μ) : serve s event = run step s (calls event) := by
  cases event with
  | recv maxRetries received attempts => exact recv_eq received attempts 0 maxRetries s
  | _ => rfl

end Retryable

/-- A connect that can bind leaves a server task that runs. -/
def CanConnect (s : WebhookChannel) : Prop :=
  ∀ attempt addr, listen attempt = .ok addr → (connect s attempt).2 = .ok () ∧ (connect s attempt).1.running ≠ []

/-- `Ok` means that a server task runs, an error that the channel can connect later. -/
def Answered : WebhookChannel × Except ChannelError Unit → Prop
  | (s,.ok _) => s.running ≠ []
  | (s,.error _) => CanConnect s

def Listening (s : WebhookChannel) : Call → Prop
  | .connect attempt => Answered (connect s attempt)
  | .disconnect => CanConnect (disconnect s).1

/-- The first connect binds, and only a channel that was never connected is disconnected. -/
def Ready (s : WebhookChannel) : Call → Prop
  | .connect attempt => s.started = true ∨ ∃ addr, listen attempt = .ok addr
  | .disconnect => s.started = false

/-- The flag, the handle and the tasks say the same. -/
inductive Healthy (s : WebhookChannel) : Prop where
  | fresh (flag : s.started = false) (handle : s.serverHandle = none) (tasks : s.running = [])
  | serving (task : Nat) (flag : s.started = true) (handle : s.serverHandle = some task) (tasks : s.running = [task])

theorem new_healthy (hasPublisher : Bool) : Healthy (.new hasPublisher) := .fresh rfl rfl rfl

section Steps
variable (s : WebhookChannel)

theorem publish_same (connected : Bool) :
    (publish s connected).started = s.started ∧ (publish s connected).serverHandle = s.serverHandle ∧
      (publish s connected).running = s.running := by
  unfold publish
  split
  · exact ⟨rfl,rfl,rfl⟩
  · exact ⟨rfl,rfl,rfl⟩

theorem connect_started (attempt : Attempt) (flag : s.started = true) : connect s attempt = (s,.ok ()) := by
  rw [connect,if_pos flag]

theorem connect_failed (attempt : Attempt) (e : ChannelError) (flag : s.started = false) (failed : listen attempt = .error e) :
    connect s attempt = ({ s with started := true },.error e) := by
  rw [connect,if_neg (Bool.eq_false_iff.mp flag),failed]

theorem connect_bound (attempt : Attempt) (addr : String) (flag : s.started = false) (bound : listen attempt = .ok addr) :
    connect s attempt = (publish (spawn { s with started := true } addr) true,.ok ()) := by
  rw [connect,if_neg (Bool.eq_false_iff.mp flag),bound]

theorem spawned_runs (addr : String) : (publish (spawn { s with started := true } addr) true).running ≠ [] := by
  rw [(publish_same _ true).2.2]
  exact List.cons_ne_nil _ _

theorem fresh_can_connect (flag : s.started = false) : CanConnect s := by
  intro attempt addr bound
  rw [connect_bound s attempt addr flag bound]
  exact ⟨rfl,spawned_runs s addr⟩

/-- With the flag set and no task left, `connect` returns `Ok` and nothing listens. -/
theorem stuck (flag : s.started = true) (none : s.running = []) : ¬CanConnect s := by
  intro can
  have runs := (can ⟨.ok (),.ok (),.ok (),.ok ""⟩ "" rfl).2
  rw [connect_started s _ flag] at runs
  exact runs none

theorem disconnect_same (handle : s.serverHandle = none) :
    (disconnect s).1.started = s.started ∧ (disconnect s).1.serverHandle = none ∧ (disconnect s).1.running = s.running := by
  rw [disconnect,handle]
  exact publish_same _ false

theorem disconnect_serving (task : Nat) (handle : s.serverHandle = some task) (tasks : s.running = [task]) :
    (disconnect s).1.started = s.started ∧ (disconnect s).1.running = [] := by
  rw [disconnect,handle]
  obtain ⟨flag,_,left⟩ := publish_same (abort { s with serverHandle := none } task) false
  refine ⟨flag,left.trans ?_⟩
  rw [abort,tasks]
  exact List.erase_cons_head task []

theorem healthy_step (call : Call) (healthy : Healthy s) (ready : Ready s call) : Healthy (step s call) := by
  cases call with
  | connect attempt =>
    rw [step]
    cases healthy with
    | fresh flag handle tasks =>
      obtain ⟨addr,bound⟩ := ready.resolve_left (Bool.eq_false_iff.mp flag)
      rw [connect_bound s attempt addr flag bound]
      obtain ⟨started,held,runs⟩ := publish_same (spawn { s with started := true } addr) true
      exact .serving s.spawned started held (runs.trans (congrArg (s.spawned :: ·) tasks))
    | serving task flag handle tasks =>
      rw [connect_started s attempt flag]
      exact .serving task flag handle tasks
  | disconnect =>
    cases healthy with
    | fresh flag handle tasks =>
      obtain ⟨started,none,runs⟩ := disconnect_same s handle
      exact .fresh (started.trans flag) none (runs.trans tasks)
    | serving task flag handle tasks => exact absurd (flag.symm.trans ready) (Bool.false_ne_true ∘ Eq.symm)

theorem listening_iff_ready (call : Call) (healthy : Healthy s) : Listening s call ↔ Ready s call := by
  cases call with
  | connect attempt =>
    rw [Listening]
    cases healthy with
    | fresh flag handle tasks =>
      cases bound : listen attempt with
      | ok addr =>
        rw [connect_bound s attempt addr flag bound]
        exact iff_of_true (spawned_runs s addr) (Or.inr ⟨addr,bound⟩)
      | error e =>
        rw [connect_failed s attempt e flag bound]
        refine iff_of_false (stuck _ rfl tasks) ?_
        rintro (started | ⟨addr,other⟩)
        · exact absurd (started.symm.trans flag) (Bool.false_ne_true ∘ Eq.symm)
        · exact absurd (bound.symm.trans other) (fun clash => by cases clash)
    | serving task flag handle tasks =>
      rw [connect_started s attempt flag]
      exact iff_of_true (fun none => by rw [tasks] at none; cases none) (Or.inl flag)
  | disconnect =>
    rw [Listening]
    cases healthy with
    | fresh flag handle tasks =>
      have started := (disconnect_same s handle).1.trans flag
      exact iff_of_true (fresh_can_connect _ started) flag
    | serving task flag handle tasks =>
      obtain ⟨started,left⟩ := disconnect_serving s task handle tasks
      refine iff_of_false (stuck _ (started.trans flag) left) ?_
      exact fun fresh => absurd (flag.symm.trans fresh) (Bool.false_ne_true ∘ Eq.symm)

end Steps

theorem listens_along_iff (s : WebhookChannel) (steps : List Call) (healthy : Healthy s) :
    Along step Listening s steps ↔ Along step Ready s steps := by
  constructor
  · exact along_of_along step Listening Ready Healthy
      (fun s call healthy listens => healthy_step s call healthy ((listening_iff_ready s call healthy).mp listens))
      (fun s call healthy listens => (listening_iff_ready s call healthy).mp listens) s steps healthy
  · exact along_of_along step Ready Listening Healthy healthy_step
      (fun s call healthy ready => (listening_iff_ready s call healthy).mpr ready) s steps healthy

theorem serve_along {μ : Type} (holds : WebhookChannel → Call → Prop) (s : WebhookChannel) (events : List (Event μ)) :
    Along serve (fun s event => Along step holds s (calls event)) s events ↔ Along step holds s (events.flatMap calls) := by
  induction events generalizing s with
  | nil => exact Iff.rfl
  | cons event rest ih =>
    rw [Along,List.flatMap_cons,along_append,← serve_eq,ih (serve s event)]

/-- Every call, also those a wrapper makes to reconnect, leaves the channel listening or able
to listen exactly if no connect of a run fails to bind and none of its disconnects comes
after a connect. -/
theorem connected_listens_iff {μ : Type} (hasPublisher : Bool) (events : List (Event μ)) :
    Along serve (fun s event => Along step Listening s (calls event)) (.new hasPublisher) events ↔
      Along serve (fun s event => Along step Ready s (calls event)) (.new hasPublisher) events := by
  rw [serve_along,serve_along]
  exact listens_along_iff (.new hasPublisher) (events.flatMap calls) (new_healthy hasPublisher)

def bound : Attempt := ⟨.ok (),.ok (),.ok (),.ok "127.0.0.1:8080"⟩

def taken : Attempt := { bound with bind := .error "address in use" }

/-- Connected, disconnected, connected again; and connected to a port in use, then to a free one. -/
theorem ok_without_server :
    (connect (run step (.new false) [.connect bound,.disconnect]) bound).2 = .ok () ∧
      (connect (run step (.new false) [.connect bound,.disconnect]) bound).1.running = [] ∧
      (connect (run step (.new false) [.connect taken]) bound).2 = .ok () ∧
      (connect (run step (.new false) [.connect taken]) bound).1.running = [] :=
  ⟨rfl,rfl,rfl,rfl⟩

end ClawKernel.Adapters.WebhookConnection
