import Mathlib.Logic.Function.Basic
import ClawKernel.Sdk.Rpc

/-! The asyncio client of Python: one task reads the frames and gives each response to its call and each
notification to the queue of its session, where there is one; the generators of `send` take from these
queues. The tasks of the event loop take turns, and each runs from one `await` to the next.
-/
namespace ClawKernel.Sdk.AsyncRpc
open Lib.Json Lib.Runs
open Server.Outbound (Message)
open Sdk.Rpc (json falsy sessionOf carried)

/-- The future of a request id: those that wait are the ones of `_pending` that a response can reach. -/
inductive Future where
  | uncalled
  | waiting
  | done (msg : Value)
  | failed

def truthy (value : Option Value) : Bool := value.any (fun value => !falsy value)

/-- `notification.get("params", {}) or {}`. -/
def paramsOf (msg : Value) : Value :=
  match msg.get "params" with
  | some params => if falsy params then .object [] else params
  | none => .object []

/-- What the loop of `send` does with a notification. -/
inductive Effect where
  | nothing
  | token (delta : Value) (ends : Bool)
  | toolCall
  | ends

def effect (msg : Value) : Effect :=
  match (msg.get "method").bind Value.asStr with
  | some "agent/streamChunk" =>
    match (paramsOf msg).get "delta" with
    | some delta =>
      if falsy delta then if truthy ((paramsOf msg).get "done") then .ends else .nothing
      else .token delta (truthy ((paramsOf msg).get "done"))
    | none => if truthy ((paramsOf msg).get "done") then .ends else .nothing
  | some "agent/toolCall" => .toolCall
  | some "agent/finish" => .ends
  | _ => .nothing

/-- Where a generator of `send` is: at a call, which is first written, at its queue, at a `yield`, at a tool,
or over. -/
inductive Phase where
  | idle
  | calling (id : Int) (written : Bool)
  | streaming (queue : ℕ)
  | yielded (queue : ℕ) (ends : Bool)
  | running (queue : ℕ)
  | answering (queue : ℕ) (id : Int) (written : Bool)
  | ended
  | raised
  | left
  deriving DecidableEq

/-- The queue a generator has got. -/
def Phase.queue : Phase → Option ℕ
  | .streaming queue | .yielded queue _ | .running queue | .answering queue _ _ => some queue
  | _ => none

def Phase.open : Phase → Bool
  | .calling _ _ | .streaming _ | .yielded _ _ | .running _ | .answering _ _ _ => true
  | _ => false

/-- `heard` are the notifications of its session that came while it was open, `taken` those it got. -/
structure Generator where
  session : String
  tools : Bool
  phase : Phase
  heard : List Value
  taken : List Value
  tokens : List Value

structure State where
  reqId : Int
  wire : List Message
  reading : Bool
  futures : Int → Future
  notifQueues : String → Option ℕ
  queues : ℕ → List Value
  made : ℕ
  sends : ℕ → Generator

def new : State where
  reqId := 1
  wire := []
  reading := true
  futures := fun _ => .uncalled
  notifQueues := fun _ => none
  queues := fun _ => []
  made := 0
  sends := fun _ => ⟨"",false,.idle,[],[],[]⟩

def State.change (s : State) (n : ℕ) (g : Generator) : State := { s with sends := Function.update s.sends n g }

def State.enter (s : State) (n : ℕ) (phase : Phase) : State := s.change n { s.sends n with phase := phase }

/-- A future that waits gets its result; one that is done is left as it is. -/
def State.settle (s : State) (id : Int) (future : Future) : State :=
  match s.futures id with
  | .waiting => { s with futures := Function.update s.futures id future }
  | _ => s

/-- `call` up to the writing of the request. -/
def State.call (s : State) : State :=
  { s with reqId := s.reqId + 1, futures := Function.update s.futures s.reqId .waiting }

def State.put (s : State) (queue : ℕ) (msgs : List Value) : State :=
  { s with queues := Function.update s.queues queue msgs }

/-- `drop_queue`. -/
def State.dropQueue (s : State) (session : String) : State :=
  { s with notifQueues := Function.update s.notifQueues session none }

def hear (session : String) (msg : Value) (g : Generator) : Generator :=
  if g.session = session ∧ g.phase.open then { g with heard := g.heard ++ [msg] } else g

/-- A notification of a session comes. -/
def notify (s : State) (session : String) (msg : Value) : State :=
  { s with
    sends := fun n => hear session msg (s.sends n)
    queues :=
      match s.notifQueues session with
      | some queue => Function.update s.queues queue (s.queues queue ++ [msg])
      | none => s.queues }

/-- `_dispatch`. Where it raises, the task of the reader is over, and no future hears of it. -/
def dispatch (s : State) (msg : Value) : State :=
  match msg.get "id" with
  | some (.integer id) => s.settle id (.done msg)
  | some (.array _) | some (.object _) => { s with reading := false }
  | some (.string _) | some (.bool _) | some (.float _) => s
  | some .null | none =>
    if (msg.get "method").isSome then
      match sessionOf msg with
      | none => { s with reading := false }
      | some (.string session) => if session = "" then s else notify s session msg
      | some (.array items) => if items.isEmpty then s else { s with reading := false }
      | some (.object members) => if members.isEmpty then s else { s with reading := false }
      | some _ => s
    else s

/-- `_get_or_create_queue`, where `subscribe` begins. -/
def subscribe (s : State) (n : ℕ) : State :=
  match s.notifQueues (s.sends n).session with
  | some queue => s.enter n (.streaming queue)
  | none =>
    { (s.put s.made []).enter n (.streaming s.made) with
      notifQueues := Function.update s.notifQueues (s.sends n).session (some s.made)
      made := s.made + 1 }

/-- The stream is over: the queue of the session is dropped. -/
def finish (s : State) (n : ℕ) : State := (s.enter n .ended).dropQueue (s.sends n).session

/-- A generator gets the first notification of its queue. -/
def take (s : State) (n queue : ℕ) (msg : Value) : State :=
  let g := { s.sends n with taken := (s.sends n).taken ++ [msg] }
  match effect msg with
  | .nothing => s.change n g
  | .token delta ends => s.change n { g with tokens := g.tokens ++ [delta], phase := .yielded queue ends }
  | .toolCall => s.change n { g with phase := if g.tools then .running queue else g.phase }
  | .ends => finish (s.change n g) n

/-- A call returns to its generator, which raises where the response is an error. -/
def returned (s : State) (n : ℕ) (id : Int) (next : State) : State :=
  match s.futures id with
  | .done msg => if (msg.get "error").isSome then s.enter n .raised else next
  | .failed => s.enter n .raised
  | _ => s

inductive Act where
  | deliver (m : Message)
  | read
  | shut
  | crash
  | call
  | send (n : ℕ) (session : String) (tools : Bool)
  | written (n : ℕ)
  | refused (n : ℕ)
  | turn (n : ℕ)
  | ran (n : ℕ)
  | next (n : ℕ)
  | leave (n : ℕ)
  | destroyed (session : String)

def step (s : State) : Act → State
  | .deliver m => { s with wire := s.wire ++ [m] }
  | .read =>
    match s.wire with
    | m :: rest => if s.reading then dispatch { s with wire := rest } (json m) else s
    | [] => s
  -- the connection is closed, or the task is stopped
  | .shut =>
    if s.reading then
      { s with reading := false, futures := fun id => match s.futures id with | .waiting => .failed | future => future }
    else s
  -- a frame too large, or one that is no JSON
  | .crash => { s with reading := false }
  | .call => s.call
  | .send n session tools =>
    if (s.sends n).phase = .idle then s.call.change n ⟨session,tools,.calling s.reqId false,[],[],[]⟩ else s
  | .written n =>
    match (s.sends n).phase with
    | .calling id _ => s.enter n (.calling id true)
    | .answering queue id _ => s.enter n (.answering queue id true)
    | _ => s
  | .refused n =>
    match (s.sends n).phase with
    | .calling _ false | .answering _ _ false => s.enter n .raised
    | _ => s
  | .turn n =>
    match (s.sends n).phase with
    | .calling id true => returned s n id (subscribe s n)
    | .streaming queue =>
      match s.queues queue with
      | msg :: rest => take (s.put queue rest) n queue msg
      | [] => s
    | .answering queue id true => returned s n id (s.enter n (.streaming queue))
    | _ => s
  -- the tool has returned or raised
  | .ran n =>
    match (s.sends n).phase with
    | .running queue => s.call.enter n (.answering queue s.reqId false)
    | _ => s
  | .next n =>
    match (s.sends n).phase with
    | .yielded queue ends => if ends then finish s n else s.enter n (.streaming queue)
    | _ => s
  -- the generator is closed at a `yield`, or its task is cancelled at an `await`
  | .leave n =>
    match (s.sends n).phase with
    | .calling id true => (s.settle id .failed).enter n .left
    | .answering _ id true => (s.settle id .failed).enter n .left
    | phase => if phase.open then s.enter n .left else s
  | .destroyed session => s.dropQueue session

/-- A queue belongs to one session. -/
structure Sound (s : State) : Prop where
  made : ∀ session queue, s.notifQueues session = some queue → queue < s.made
  got : ∀ n queue, (s.sends n).phase.queue = some queue → queue < s.made
  apart : ∀ session other queue, s.notifQueues session = some queue → s.notifQueues other = some queue → session = other
  own : ∀ n session queue, (s.sends n).phase.queue = some queue → s.notifQueues session = some queue →
    session = (s.sends n).session

theorem sound_new : Sound new := by
  constructor <;> simp [new,Phase.queue]

/-- What leaves the queues' owners as they are. -/
theorem sound_same (s t : State) (sound : Sound s) (notifQueues : t.notifQueues = s.notifQueues) (made : t.made = s.made)
    (phases : ∀ n, (t.sends n).phase.queue = (s.sends n).phase.queue)
    (sessions : ∀ n, (t.sends n).session = (s.sends n).session) : Sound t := by
  obtain ⟨made',got,apart,own⟩ := sound
  constructor <;> simp only [notifQueues,made,phases,sessions] <;> assumption

theorem sound_change (s : State) (n : ℕ) (g : Generator) (sound : Sound s)
    (kept : ∀ queue, g.phase.queue = some queue → (s.sends n).phase.queue = some queue ∧ g.session = (s.sends n).session) :
    Sound (s.change n g) := by
  obtain ⟨made,got,apart,own⟩ := sound
  constructor <;> simp only [State.change,Function.update_apply] <;> grind

theorem sound_enter (s : State) (n : ℕ) (phase : Phase) (sound : Sound s)
    (kept : ∀ queue, phase.queue = some queue → (s.sends n).phase.queue = some queue) : Sound (s.enter n phase) :=
  sound_change s n _ sound (fun queue got => ⟨kept queue got,rfl⟩)

theorem sound_dropQueue (s : State) (session : String) (sound : Sound s) : Sound (s.dropQueue session) := by
  obtain ⟨made,got,apart,own⟩ := sound
  constructor <;> simp only [State.dropQueue,Function.update_apply] <;> grind

theorem sound_settle (s : State) (id : Int) (future : Future) (sound : Sound s) : Sound (s.settle id future) := by
  unfold State.settle
  split
  · exact sound_same s _ sound rfl rfl (fun _ => rfl) (fun _ => rfl)
  · exact sound

theorem sound_finish (s : State) (n : ℕ) (sound : Sound s) : Sound (finish s n) :=
  sound_dropQueue _ _ (sound_enter s n .ended sound (by simp [Phase.queue]))

theorem hear_phase (session : String) (msg : Value) (g : Generator) : (hear session msg g).phase = g.phase := by
  unfold hear
  split_ifs <;> rfl

theorem hear_session (session : String) (msg : Value) (g : Generator) : (hear session msg g).session = g.session := by
  unfold hear
  split_ifs <;> rfl

theorem sound_notify (s : State) (session : String) (msg : Value) (sound : Sound s) : Sound (notify s session msg) :=
  sound_same s _ sound rfl rfl (fun n => congrArg Phase.queue (hear_phase session msg (s.sends n)))
    (fun n => hear_session session msg (s.sends n))

theorem sound_subscribe (s : State) (n : ℕ) (sound : Sound s) : Sound (subscribe s n) := by
  unfold subscribe
  obtain ⟨made,got,apart,own⟩ := sound
  cases registered : s.notifQueues (s.sends n).session with
  | some queue =>
    constructor <;> simp only [State.enter,State.change,Function.update_apply] <;> grind [Phase.queue]
  | none =>
    constructor <;> simp only [State.enter,State.change,State.put,Function.update_apply] <;> grind [Phase.queue]

/-- The state of the streams is as before. -/
structure Quiet (s t : State) : Prop where
  sends : t.sends = s.sends
  queues : t.queues = s.queues
  notifQueues : t.notifQueues = s.notifQueues
  made : t.made = s.made

theorem quiet_refl (s : State) : Quiet s s := ⟨rfl,rfl,rfl,rfl⟩

theorem quiet_settle (s : State) (id : Int) (future : Future) : Quiet s (s.settle id future) := by
  unfold State.settle
  split <;> exact ⟨rfl,rfl,rfl,rfl⟩

theorem sound_quiet (s t : State) (quiet : Quiet s t) (sound : Sound s) : Sound t :=
  sound_same s t sound quiet.notifQueues quiet.made (fun n => by rw [quiet.sends]) (fun n => by rw [quiet.sends])

/-- A message of the server is a notification of a session, or leaves the streams as they are. -/
theorem dispatch_cases (s : State) (m : Message) :
    (∃ session, carried m = some session ∧ dispatch s (json m) = notify s session (json m)) ∨
      carried m = none ∧ Quiet s (dispatch s (json m)) := by
  cases m with
  | response response =>
    refine .inr ⟨rfl,?_⟩
    unfold dispatch json
    simp only [Rpc.get_id_response,Rpc.get_method_response,Option.isSome_none]
    split
    all_goals first
      | exact quiet_settle ..
      | exact ⟨rfl,rfl,rfl,rfl⟩
  | notification notification =>
    unfold dispatch
    simp only [json,Rpc.get_id_notification,Rpc.get_method_notification,Option.isSome_some,if_true]
    split
    case h_2 session found =>
      split_ifs with empty
      · exact .inr ⟨by simp [carried,found,Value.asStr,empty],quiet_refl s⟩
      · exact .inl ⟨session,by simp [carried,found,Value.asStr,empty],rfl⟩
    case h_1 found => exact .inr ⟨by simp [carried,found],⟨rfl,rfl,rfl,rfl⟩⟩
    case h_3 items found =>
      refine .inr ⟨by simp [carried,found,Value.asStr],?_⟩
      split_ifs <;> exact ⟨rfl,rfl,rfl,rfl⟩
    case h_4 members found =>
      refine .inr ⟨by simp [carried,found,Value.asStr],?_⟩
      split_ifs <;> exact ⟨rfl,rfl,rfl,rfl⟩
    case h_5 value found strings arrays objects =>
      refine .inr ⟨?_,quiet_refl s⟩
      cases value <;> simp_all [carried,Value.asStr]

theorem sound_put (s : State) (queue : ℕ) (msgs : List Value) (sound : Sound s) : Sound (s.put queue msgs) :=
  sound_same s _ sound rfl rfl (fun _ => rfl) (fun _ => rfl)

theorem sound_call (s : State) (sound : Sound s) : Sound s.call :=
  sound_same s _ sound rfl rfl (fun _ => rfl) (fun _ => rfl)

theorem sound_take (s : State) (n queue : ℕ) (msg : Value) (sound : Sound s) (streams : (s.sends n).phase = .streaming queue) :
    Sound (take s n queue msg) := by
  have own : (s.sends n).phase.queue = some queue := by rw [streams]; rfl
  unfold take
  cases effect msg with
  | nothing => exact sound_change s n _ sound (fun other got => ⟨got,rfl⟩)
  | token delta ends => exact sound_change s n _ sound (fun other got => ⟨own.trans got,rfl⟩)
  | toolCall =>
    refine sound_change s n _ sound (fun other got => ⟨?_,rfl⟩)
    simp only at got
    split_ifs at got
    · exact own.trans got
    · exact got
  | ends => exact sound_finish _ n (sound_change s n _ sound (fun other got => ⟨got,rfl⟩))

theorem sound_returned (s t : State) (n : ℕ) (id : Int) (sound : Sound s) (next : Sound t) : Sound (returned s n id t) := by
  unfold returned
  split
  · split_ifs
    · exact sound_enter s n .raised sound (by simp [Phase.queue])
    · exact next
  · exact sound_enter s n .raised sound (by simp [Phase.queue])
  · exact sound

theorem sound_step (s : State) (act : Act) (sound : Sound s) : Sound (step s act) := by
  cases act with
  | deliver m => exact sound_quiet s _ ⟨rfl,rfl,rfl,rfl⟩ sound
  | read =>
    simp only [step]
    cases s.wire with
    | nil => exact sound
    | cons m rest =>
      simp only
      split_ifs with reads
      · have before := sound_quiet s { s with wire := rest } ⟨rfl,rfl,rfl,rfl⟩ sound
        rcases dispatch_cases { s with wire := rest } m with ⟨session,_,same⟩ | ⟨_,quiet⟩
        · rw [same]
          exact sound_notify _ session (json m) before
        · exact sound_quiet _ _ quiet before
      · exact sound
  | shut =>
    simp only [step]
    split_ifs
    · exact sound_quiet s _ ⟨rfl,rfl,rfl,rfl⟩ sound
    · exact sound
  | crash => exact sound_quiet s _ ⟨rfl,rfl,rfl,rfl⟩ sound
  | call => exact sound_call s sound
  | send n session tools =>
    simp only [step]
    split_ifs with idle
    · exact sound_change s.call n _ (sound_call s sound) (by simp [Phase.queue])
    · exact sound
  | written n =>
    simp only [step]
    split
    · exact sound_enter s n _ sound (by simp [Phase.queue])
    · next queue id written at_ => exact sound_enter s n _ sound (fun other got => by rw [at_]; exact got)
    · exact sound
  | refused n =>
    simp only [step]
    split
    · exact sound_enter s n _ sound (by simp [Phase.queue])
    · exact sound_enter s n _ sound (by simp [Phase.queue])
    · exact sound
  | turn n =>
    simp only [step]
    split
    · exact sound_returned s _ n _ sound (sound_subscribe s n sound)
    · next queue at_ =>
      split
      · exact sound_take _ n queue _ (sound_put s queue _ sound) at_
      · exact sound
    · next queue id at_ =>
      exact sound_returned s _ n id sound (sound_enter s n _ sound (fun other got => by rw [at_]; exact got))
    · exact sound
  | ran n =>
    simp only [step]
    split
    · next queue at_ =>
      refine sound_enter s.call n _ (sound_call s sound) (fun other got => ?_)
      rw [State.call,at_]
      exact got
    · exact sound
  | next n =>
    simp only [step]
    split
    · next queue ends at_ =>
      split_ifs
      · exact sound_finish s n sound
      · exact sound_enter s n _ sound (fun other got => by rw [at_]; exact got)
    · exact sound
  | leave n =>
    simp only [step]
    split
    · exact sound_enter _ n _ (sound_settle s _ _ sound) (by simp [Phase.queue])
    · exact sound_enter _ n _ (sound_settle s _ _ sound) (by simp [Phase.queue])
    · split_ifs
      · exact sound_enter s n _ sound (by simp [Phase.queue])
      · exact sound
  | destroyed session => exact sound_dropQueue s session sound

/-- Nothing comes for the session of a stream while its call is pending, and after that the stream has got or will
find in its queue just what has come. -/
structure Exact (s : State) : Prop where
  given : ∀ n, (s.sends n).taken <+: (s.sends n).heard
  waits : ∀ n id written, (s.sends n).phase = .calling id written → (s.sends n).heard = []
  holds : ∀ n queue, (s.sends n).phase.queue = some queue → (s.sends n).taken ++ s.queues queue = (s.sends n).heard

/-- The condition on a step: a notification is read while each open stream of its session has the queue that is
registered; a stream subscribes to an empty queue; and it takes from a queue that is its alone. -/
def Clean (s : State) : Act → Prop
  | .read => ∀ m rest session, s.wire = m :: rest → s.reading = true → carried m = some session →
      ∀ n, (s.sends n).session = session → (s.sends n).phase.open = true →
        ∃ queue, (s.sends n).phase.queue = some queue ∧ s.notifQueues session = some queue
  | .turn n =>
    (∀ id msg queue, (s.sends n).phase = .calling id true → s.futures id = .done msg → (msg.get "error").isSome = false →
      s.notifQueues (s.sends n).session = some queue → s.queues queue = []) ∧
    ∀ queue, (s.sends n).phase = .streaming queue → s.queues queue ≠ [] → ∀ k, k ≠ n → (s.sends k).phase.queue ≠ some queue
  | _ => True

theorem exact_new : Exact new := by
  constructor <;> simp [new,Phase.queue]

theorem exact_same (s t : State) (exact_ : Exact s) (queues : t.queues = s.queues) (sends : t.sends = s.sends) : Exact t := by
  obtain ⟨given,waits,holds⟩ := exact_
  constructor <;> simp only [queues,sends] <;> assumption

theorem exact_change (s : State) (n : ℕ) (g : Generator) (exact_ : Exact s) (given : g.taken <+: g.heard)
    (waits : ∀ id written, g.phase = .calling id written → g.heard = [])
    (holds : ∀ queue, g.phase.queue = some queue → g.taken ++ s.queues queue = g.heard) : Exact (s.change n g) := by
  obtain ⟨given',waits',holds'⟩ := exact_
  constructor <;> simp only [State.change,Function.update_apply] <;> grind

/-- A stream goes on with the queue it had, or with none. -/
theorem exact_enter (s : State) (n : ℕ) (phase : Phase) (exact_ : Exact s)
    (calls : ∀ id written, phase = .calling id written → ∃ other, (s.sends n).phase = .calling id other)
    (kept : ∀ queue, phase.queue = some queue → (s.sends n).phase.queue = some queue) : Exact (s.enter n phase) := by
  refine exact_change s n _ exact_ (exact_.given n) (fun id written at_ => ?_) (fun queue got => exact_.holds n queue (kept queue got))
  obtain ⟨other,before⟩ := calls id written at_
  exact exact_.waits n id other before

theorem exact_finish (s : State) (n : ℕ) (exact_ : Exact s) : Exact (finish s n) :=
  exact_same _ _ (exact_enter s n .ended exact_ (by simp) (by simp [Phase.queue])) rfl rfl

theorem hear_taken (session : String) (msg : Value) (g : Generator) : (hear session msg g).taken = g.taken := by
  unfold hear
  split_ifs <;> rfl

theorem hear_heard (session : String) (msg : Value) (g : Generator) :
    (hear session msg g).heard = g.heard ++ if g.session = session ∧ g.phase.open then [msg] else [] := by
  unfold hear
  split_ifs <;> simp

theorem open_of_queue (phase : Phase) (queue : ℕ) (got : phase.queue = some queue) : phase.open = true := by
  cases phase <;> simp_all [Phase.queue,Phase.open]

/-- The queue of a stream grows by what comes for the session it is registered for. -/
theorem notify_queue (s : State) (session : String) (msg : Value) (queue : ℕ) :
    (notify s session msg).queues queue =
      s.queues queue ++ if s.notifQueues session = some queue then [msg] else [] := by
  simp only [notify]
  cases registered : s.notifQueues session with
  | none => simp
  | some other =>
    simp only [Function.update_apply,Option.some.injEq]
    by_cases same : queue = other
    · simp [same]
    · simp [same,Ne.symm same]

/-- A notification leaves the streams exact if and only if each open one of its session has the queue it is put in. -/
theorem exact_notify (s : State) (session : String) (msg : Value) (sound : Sound s) (exact_ : Exact s) :
    Exact (notify s session msg) ↔ ∀ n, (s.sends n).session = session → (s.sends n).phase.open = true →
      ∃ queue, (s.sends n).phase.queue = some queue ∧ s.notifQueues session = some queue := by
  constructor
  · intro after n same opened
    have longer : ((notify s session msg).sends n).heard = (s.sends n).heard ++ [msg] := by
      rw [notify,hear_heard,if_pos ⟨same,opened⟩]
    have phase : ((notify s session msg).sends n).phase = (s.sends n).phase := hear_phase session msg (s.sends n)
    have taken : ((notify s session msg).sends n).taken = (s.sends n).taken := hear_taken session msg (s.sends n)
    cases got : (s.sends n).phase.queue with
    | none =>
      exfalso
      obtain ⟨id,written,at_⟩ : ∃ id written, (s.sends n).phase = .calling id written := by
        revert got opened
        cases (s.sends n).phase <;> simp [Phase.queue,Phase.open]
      have none := after.waits n id written (phase.trans at_)
      rw [longer] at none
      simp at none
    | some queue =>
      refine ⟨queue,rfl,?_⟩
      by_contra other
      have now := after.holds n queue (by rw [phase]; exact got)
      rw [taken,longer,notify_queue,if_neg other,List.append_nil,exact_.holds n queue got] at now
      simp at now
  · intro registered
    refine ⟨fun n => ?_,fun n id written at_ => ?_,fun n queue got => ?_⟩
    · rw [notify,hear_taken,hear_heard]
      exact (exact_.given n).trans (List.prefix_append _ _)
    · have before : (s.sends n).phase = .calling id written := (hear_phase session msg (s.sends n)).symm.trans at_
      rw [notify,hear_heard,exact_.waits n id written before,if_neg]
      · rfl
      rintro ⟨same,opened⟩
      obtain ⟨queue,got,_⟩ := registered n same opened
      rw [before] at got
      cases got
    · have before : (s.sends n).phase.queue = some queue := (congrArg Phase.queue (hear_phase session msg (s.sends n))).symm.trans got
      rw [notify_queue,notify,hear_taken,hear_heard,← List.append_assoc,exact_.holds n queue before]
      congr 1
      by_cases same : (s.sends n).session = session
      · obtain ⟨other,has,put⟩ := registered n same (open_of_queue _ queue before)
        rw [before] at has
        rw [if_pos (by rw [put,has]),if_pos ⟨same,open_of_queue _ queue before⟩]
      · have elsewhere : s.notifQueues session ≠ some queue := fun put => same (sound.own n session queue before put).symm
        rw [if_neg elsewhere,if_neg (fun both => same both.1)]

/-- A stream that subscribes is exact if and only if the queue it finds is empty. -/
theorem exact_subscribe (s : State) (n : ℕ) (id : Int) (written : Bool) (sound : Sound s) (exact_ : Exact s)
    (calls : (s.sends n).phase = .calling id written) :
    Exact (subscribe s n) ↔ ∀ queue, s.notifQueues (s.sends n).session = some queue → s.queues queue = [] := by
  have unheard := exact_.waits n id written calls
  have untaken : (s.sends n).taken = [] := List.prefix_nil.mp (unheard ▸ exact_.given n)
  unfold subscribe
  cases registered : s.notifQueues (s.sends n).session with
  | some queue =>
    constructor
    · intro after other found
      obtain rfl := Option.some_inj.mp found
      have now := after.holds n queue (by simp [State.enter,State.change,Phase.queue])
      simpa [State.enter,State.change,unheard,untaken] using now
    · intro empty
      refine exact_change s n _ exact_ (exact_.given n) (by simp) (fun other got => ?_)
      obtain rfl : queue = other := Option.some_inj.mp got
      simp [unheard,untaken,empty queue rfl]
  | none =>
    refine ⟨fun _ _ found => (nomatch found),fun _ => ?_⟩
    obtain ⟨given,waits,holds⟩ := exact_
    obtain ⟨_,got,_,_⟩ := sound
    constructor <;> simp only [State.enter,State.change,State.put,Function.update_apply] <;> grind [Phase.queue]

/-- A stream takes the first notification of a queue that no other has. -/
theorem exact_taken (s : State) (n queue : ℕ) (msg : Value) (rest : List Value) (g : Generator) (exact_ : Exact s)
    (content : s.queues queue = msg :: rest) (streams : (s.sends n).phase.queue = some queue)
    (alone : ∀ k, k ≠ n → (s.sends k).phase.queue ≠ some queue) (taken : g.taken = (s.sends n).taken ++ [msg])
    (heard : g.heard = (s.sends n).heard) (calls : ∀ id written, g.phase ≠ .calling id written)
    (kept : ∀ other, g.phase.queue = some other → other = queue) : Exact ((s.put queue rest).change n g) := by
  obtain ⟨given,waits,holds⟩ := exact_
  have now : g.taken ++ rest = g.heard := by
    rw [taken,heard,← holds n queue streams,content,List.append_assoc]
    rfl
  have prefix_ : g.taken <+: g.heard := ⟨rest,now⟩
  constructor <;> simp only [State.change,State.put,Function.update_apply] <;> grind

theorem take_queues (s : State) (n queue : ℕ) (msg : Value) : (take s n queue msg).queues = s.queues := by
  unfold take
  cases effect msg <;> rfl

theorem take_other (s : State) (n queue : ℕ) (msg : Value) (k : ℕ) (other : k ≠ n) : (take s n queue msg).sends k = s.sends k := by
  unfold take
  cases effect msg <;>
    simp [finish,State.enter,State.change,State.dropQueue,Function.update_of_ne other]

/-- A stream that takes leaves all exact if and only if the queue is its alone. -/
theorem exact_take (s : State) (n queue : ℕ) (msg : Value) (rest : List Value) (exact_ : Exact s)
    (content : s.queues queue = msg :: rest) (streams : (s.sends n).phase = .streaming queue) :
    Exact (take (s.put queue rest) n queue msg) ↔ ∀ k, k ≠ n → (s.sends k).phase.queue ≠ some queue := by
  have own : (s.sends n).phase.queue = some queue := by rw [streams]; rfl
  constructor
  · intro after k other shared
    have now := after.holds k queue (by rw [take_other _ n queue msg k other]; exact shared)
    rw [take_other _ n queue msg k other,take_queues] at now
    have before := exact_.holds k queue shared
    rw [content] at before
    simp only [State.put,Function.update_self] at now
    have same := congrArg List.length (now.trans before.symm)
    simp at same
  · intro alone
    unfold take
    cases effect msg with
    | nothing =>
      refine exact_taken s n queue msg rest _ exact_ content own alone rfl rfl (fun _ _ calls => ?_) (fun other got => ?_)
      · cases streams.symm.trans calls
      · exact Option.some_inj.mp (got.symm.trans own)
    | token delta ends =>
      exact exact_taken s n queue msg rest _ exact_ content own alone rfl rfl (by simp)
        (fun other got => (Option.some_inj.mp got).symm)
    | toolCall =>
      refine exact_taken s n queue msg rest _ exact_ content own alone rfl rfl (fun _ _ calls => ?_) (fun other got => ?_)
      · simp only [State.put,streams] at calls
        split_ifs at calls
      · simp only [State.put,streams] at got
        split_ifs at got <;> exact (Option.some_inj.mp got).symm
    | ends =>
      refine exact_finish _ n (exact_taken s n queue msg rest _ exact_ content own alone rfl rfl (fun _ _ calls => ?_)
        (fun other got => ?_))
      · cases streams.symm.trans calls
      · exact Option.some_inj.mp (got.symm.trans own)

theorem exact_settle (s : State) (id : Int) (future : Future) (exact_ : Exact s) : Exact (s.settle id future) :=
  have quiet := quiet_settle s id future
  exact_same s _ exact_ quiet.queues quiet.sends

theorem exact_turn (s : State) (n : ℕ) (sound : Sound s) (exact_ : Exact s) : Exact (step s (.turn n)) ↔ Clean s (.turn n) := by
  simp only [step,Clean]
  cases at_ : (s.sends n).phase with
  | calling id written =>
    cases written with
    | false => exact iff_of_true exact_ (by simp)
    | true =>
      have clean : (∀ other msg queue, Phase.calling id true = .calling other true → s.futures other = .done msg →
          (msg.get "error").isSome = false → s.notifQueues (s.sends n).session = some queue → s.queues queue = []) ↔
          ∀ msg, s.futures id = .done msg → (msg.get "error").isSome = false → ∀ queue,
            s.notifQueues (s.sends n).session = some queue → s.queues queue = [] := by
        constructor
        · intro all msg done fine queue registered
          exact all id msg queue rfl done fine registered
        · rintro all other msg queue ⟨⟩ done fine registered
          exact all msg done fine queue registered
      simp only [clean,returned]
      cases future : s.futures id with
      | done msg =>
        simp only
        by_cases error : (msg.get "error").isSome = true
        · rw [if_pos error]
          refine iff_of_true (exact_enter s n .raised exact_ (by simp) (by simp [Phase.queue])) ⟨?_,by simp⟩
          rintro other ⟨⟩ fine
          rw [error] at fine
          cases fine
        · rw [if_neg error,exact_subscribe s n id true sound exact_ at_]
          simp_all
      | failed => exact iff_of_true (exact_enter s n .raised exact_ (by simp) (by simp [Phase.queue])) (by simp)
      | waiting => exact iff_of_true exact_ (by simp)
      | uncalled => exact iff_of_true exact_ (by simp)
  | streaming queue =>
    simp only
    cases content : s.queues queue with
    | nil => exact iff_of_true exact_ (by simp [content])
    | cons msg rest =>
      rw [exact_take s n queue msg rest exact_ content at_]
      simp [content]
  | answering queue id written =>
    refine iff_of_true ?_ (by simp)
    cases written with
    | false => exact exact_
    | true =>
      simp only [returned]
      split
      · split_ifs
        · exact exact_enter s n _ exact_ (by simp) (by simp [Phase.queue])
        · exact exact_enter s n _ exact_ (by simp) (fun other got => by rw [at_]; exact got)
      · exact exact_enter s n _ exact_ (by simp) (by simp [Phase.queue])
      · exact exact_
  | _ => exact iff_of_true exact_ (by simp)

theorem exact_step (s : State) (act : Act) (sound : Sound s) (exact_ : Exact s) : Exact (step s act) ↔ Clean s act := by
  have still (t : State) (quiet : Quiet s t) : Exact t := exact_same s t exact_ quiet.queues quiet.sends
  cases act with
  | deliver m => exact iff_of_true (still _ ⟨rfl,rfl,rfl,rfl⟩) trivial
  | read =>
    simp only [step,Clean]
    cases wire : s.wire with
    | nil => exact iff_of_true exact_ (by simp)
    | cons m rest =>
      simp only
      split_ifs with reads
      · rcases dispatch_cases { s with wire := rest } m with ⟨session,carries,same⟩ | ⟨carries,quiet⟩
        · rw [same,exact_notify { s with wire := rest } session (json m) (sound_quiet s _ ⟨rfl,rfl,rfl,rfl⟩ sound)
            (still _ ⟨rfl,rfl,rfl,rfl⟩)]
          constructor
          · rintro registered other rest' session' ⟨⟩ _ carries'
            rw [carries] at carries'
            cases carries'
            exact registered
          · intro clean
            exact clean m rest session rfl reads carries
        · refine iff_of_true (exact_same s _ exact_ quiet.queues quiet.sends) ?_
          rintro other rest' session ⟨⟩ _ carries'
          rw [carries] at carries'
          cases carries'
      · exact iff_of_true exact_ (fun _ _ _ _ reading => absurd reading reads)
  | shut =>
    refine iff_of_true ?_ trivial
    simp only [step]
    split_ifs
    · exact still _ ⟨rfl,rfl,rfl,rfl⟩
    · exact exact_
  | crash => exact iff_of_true (still _ ⟨rfl,rfl,rfl,rfl⟩) trivial
  | call => exact iff_of_true (still _ ⟨rfl,rfl,rfl,rfl⟩) trivial
  | send n session tools =>
    refine iff_of_true ?_ trivial
    simp only [step]
    split_ifs with idle
    · exact exact_change s.call n _ (still _ ⟨rfl,rfl,rfl,rfl⟩) (List.prefix_refl []) (by simp) (by simp [Phase.queue])
    · exact exact_
  | written n =>
    refine iff_of_true ?_ trivial
    simp only [step]
    split
    · next at_ => exact exact_enter s n _ exact_ (fun _ _ same => by cases same; exact ⟨_,at_⟩) (by simp [Phase.queue])
    · next queue id written at_ => exact exact_enter s n _ exact_ (by simp) (fun other got => by rw [at_]; exact got)
    · exact exact_
  | refused n =>
    refine iff_of_true ?_ trivial
    simp only [step]
    split
    · exact exact_enter s n _ exact_ (by simp) (by simp [Phase.queue])
    · exact exact_enter s n _ exact_ (by simp) (by simp [Phase.queue])
    · exact exact_
  | turn n => exact exact_turn s n sound exact_
  | ran n =>
    refine iff_of_true ?_ trivial
    simp only [step]
    split
    · next queue at_ =>
      refine exact_enter s.call n _ (still _ ⟨rfl,rfl,rfl,rfl⟩) (by simp) (fun other got => ?_)
      rw [State.call,at_]
      exact got
    · exact exact_
  | next n =>
    refine iff_of_true ?_ trivial
    simp only [step]
    split
    · next queue ends at_ =>
      split_ifs
      · exact exact_finish s n exact_
      · exact exact_enter s n _ exact_ (by simp) (fun other got => by rw [at_]; exact got)
    · exact exact_
  | leave n =>
    refine iff_of_true ?_ trivial
    simp only [step]
    split
    · exact exact_enter _ n _ (exact_settle s _ _ exact_) (by simp) (by simp [Phase.queue])
    · exact exact_enter _ n _ (exact_settle s _ _ exact_) (by simp) (by simp [Phase.queue])
    · split_ifs
      · exact exact_enter s n _ exact_ (by simp) (by simp [Phase.queue])
      · exact exact_
  | destroyed session => exact iff_of_true (exact_same s _ exact_ rfl rfl) trivial

/-- A notification after which a stream ends. -/
def isEnd (msg : Value) : Bool :=
  match effect msg with
  | .ends => true
  | .token _ ends => ends
  | _ => false

/-- The tokens of a stream's notifications, up to its end. -/
def shown : List Value → List Value
  | [] => []
  | msg :: rest =>
    match effect msg with
    | .token delta ends => delta :: if ends then [] else shown rest
    | .ends => []
    | _ => shown rest

theorem shown_append (first second : List Value) (unended : first.any isEnd = false) :
    shown (first ++ second) = shown first ++ shown second := by
  induction first with
  | nil => rfl
  | cons msg rest ih =>
    rw [List.any_cons,Bool.or_eq_false_iff] at unended
    have next := ih unended.2
    have here := unended.1
    unfold isEnd at here
    cases same : effect msg with
    | nothing => simpa only [List.cons_append,shown,same] using next
    | toolCall => simpa only [List.cons_append,shown,same] using next
    | ends => simp [same] at here
    | token delta ends =>
      obtain rfl : ends = false := by simpa [same] using here
      simp only [List.cons_append,shown,same,next]
      rfl

theorem shown_over (first second : List Value) (ended : first.any isEnd = true) : shown (first ++ second) = shown first := by
  induction first with
  | nil => cases ended
  | cons msg rest ih =>
    rw [List.any_cons,Bool.or_eq_true_iff] at ended
    have next (plain : isEnd msg = false) : shown (rest ++ second) = shown rest :=
      ih (ended.resolve_left (by rw [plain]; exact Bool.false_ne_true))
    unfold isEnd at next
    cases same : effect msg with
    | nothing => simpa only [List.cons_append,shown,same,true_imp_iff] using next
    | toolCall => simpa only [List.cons_append,shown,same,true_imp_iff] using next
    | ends => simp only [List.cons_append,shown,same]
    | token delta ends =>
      cases ends with
      | true => simp only [List.cons_append,shown,same,if_true]
      | false => simp only [List.cons_append,shown,same,next]

theorem shown_prefix (first second : List Value) : shown first <+: shown (first ++ second) := by
  cases ended : first.any isEnd with
  | false =>
    rw [shown_append first second ended]
    exact List.prefix_append _ _
  | true => rw [shown_over first second ended]

/-- The tokens yielded are those of what was taken, and a stream is at its end where it has taken an end. -/
structure Yields (g : Generator) : Prop where
  tokens : g.tokens = shown g.taken
  opens : g.phase.open = true → (∀ queue, g.phase ≠ .yielded queue true) → g.taken.any isEnd = false
  ends : (g.phase = .ended ∨ ∃ queue, g.phase = .yielded queue true) → g.taken.any isEnd = true

theorem yields_hear (session : String) (msg : Value) (g : Generator) (yields : Yields g) : Yields (hear session msg g) := by
  obtain ⟨tokens,opens,ends⟩ := yields
  unfold hear
  split_ifs <;> constructor <;> assumption

theorem yields_phase (g : Generator) (phase : Phase) (yields : Yields g) (before : g.phase.open = true)
    (streams : ∀ queue, g.phase ≠ .yielded queue true) (after : phase ≠ .ended) (plain : ∀ queue, phase ≠ .yielded queue true) :
    Yields { g with phase := phase } := by
  obtain ⟨tokens,opens,ends⟩ := yields
  refine ⟨tokens,fun _ _ => opens before streams,fun finished => ?_⟩
  rcases finished with finished | ⟨queue,finished⟩
  · exact absurd finished after
  · exact absurd finished (plain queue)

theorem yields_closed (g : Generator) (phase : Phase) (yields : Yields g) (closed : phase.open = false) (after : phase ≠ .ended) :
    Yields { g with phase := phase } := by
  refine ⟨yields.tokens,fun opens => ?_,fun finished => ?_⟩
  · rw [closed] at opens
    cases opens
  · rcases finished with finished | ⟨queue,finished⟩
    · exact absurd finished after
    · cases finished
      cases closed

/-- A stream takes one more notification. -/
theorem yields_take (s : State) (n queue : ℕ) (msg : Value) (yields : ∀ k, Yields (s.sends k))
    (streams : (s.sends n).phase = .streaming queue) (k : ℕ) : Yields ((take s n queue msg).sends k) := by
  by_cases other : k = n
  · subst other
    obtain ⟨tokens,opens,_⟩ := yields k
    have unended := opens (by rw [streams]; rfl) (by rw [streams]; simp)
    have given : shown ((s.sends k).taken ++ [msg]) = shown (s.sends k).taken ++ shown [msg] :=
      shown_append _ [msg] unended
    have finished : ((s.sends k).taken ++ [msg]).any isEnd = isEnd msg := by
      rw [List.any_append,unended]
      simp
    unfold take
    cases same : effect msg with
    | nothing =>
      have plain : isEnd msg = false := by simp [isEnd,same]
      constructor <;> simp [State.change,given,finished,plain,tokens,shown,same,streams]
    | toolCall =>
      have plain : isEnd msg = false := by simp [isEnd,same]
      constructor <;> cases tools : (s.sends k).tools <;>
        simp [State.change,given,finished,plain,tokens,shown,same,streams,tools]
    | ends =>
      have last : isEnd msg = true := by simp [isEnd,same]
      constructor <;> simp [finish,State.enter,State.dropQueue,State.change,given,finished,last,tokens,shown,same,Phase.open]
    | token delta ends =>
      have here : isEnd msg = ends := by simp [isEnd,same]
      constructor <;> cases ends <;> simp [State.change,given,finished,here,tokens,shown,same]
  · rw [take_other s n queue msg k other]
    exact yields k

theorem yields_change (s : State) (n : ℕ) (g : Generator) (yields : ∀ k, Yields (s.sends k)) (now : Yields g) (k : ℕ) :
    Yields ((s.change n g).sends k) := by
  simp only [State.change,Function.update_apply]
  split_ifs
  · exact now
  · exact yields k

theorem yields_enter (s : State) (n : ℕ) (phase : Phase) (yields : ∀ k, Yields (s.sends k))
    (before : (s.sends n).phase.open = true) (streams : ∀ queue, (s.sends n).phase ≠ .yielded queue true)
    (after : phase ≠ .ended) (plain : ∀ queue, phase ≠ .yielded queue true) (k : ℕ) :
    Yields ((s.enter n phase).sends k) :=
  yields_change s n _ yields (yields_phase (s.sends n) phase (yields n) before streams after plain) k

theorem yields_leave (s : State) (n : ℕ) (phase : Phase) (yields : ∀ k, Yields (s.sends k)) (closed : phase.open = false)
    (after : phase ≠ .ended) (k : ℕ) : Yields ((s.enter n phase).sends k) :=
  yields_change s n _ yields (yields_closed (s.sends n) phase (yields n) closed after) k

theorem yields_subscribe (s : State) (n : ℕ) (id : Int) (written : Bool) (yields : ∀ k, Yields (s.sends k))
    (calls : (s.sends n).phase = .calling id written) (k : ℕ) : Yields ((subscribe s n).sends k) := by
  unfold subscribe
  cases s.notifQueues (s.sends n).session with
  | some queue => exact yields_enter s n _ yields (by rw [calls]; rfl) (by rw [calls]; simp) (by simp) (by simp) k
  | none => exact yields_enter (s.put s.made []) n _ yields (by rw [State.put,calls]; rfl) (by rw [State.put,calls]; simp) (by simp) (by simp) k

theorem yields_returned (s t : State) (n : ℕ) (id : Int) (yields : ∀ k, Yields (s.sends k)) (next : ∀ k, Yields (t.sends k))
    (k : ℕ) : Yields ((returned s n id t).sends k) := by
  unfold returned
  split
  · split_ifs
    · exact yields_leave s n .raised yields rfl (by simp) k
    · exact next k
  · exact yields_leave s n .raised yields rfl (by simp) k
  · exact yields k

theorem yields_step (s : State) (act : Act) (yields : ∀ k, Yields (s.sends k)) (k : ℕ) : Yields ((step s act).sends k) := by
  cases act with
  | deliver m => exact yields k
  | read =>
    simp only [step]
    cases s.wire with
    | nil => exact yields k
    | cons m rest =>
      simp only
      split_ifs with reads
      · rcases dispatch_cases { s with wire := rest } m with ⟨session,_,same⟩ | ⟨_,quiet⟩
        · rw [same]
          exact yields_hear session (json m) (s.sends k) (yields k)
        · rw [quiet.sends]
          exact yields k
      · exact yields k
  | shut =>
    simp only [step]
    split_ifs <;> exact yields k
  | crash => exact yields k
  | call => exact yields k
  | send n session tools =>
    simp only [step]
    split_ifs with idle
    · refine yields_change s.call n _ yields ⟨rfl,fun _ _ => rfl,?_⟩ k
      rintro (finished | ⟨queue,finished⟩) <;> cases finished
    · exact yields k
  | written n =>
    simp only [step]
    split
    · next at_ => exact yields_enter s n _ yields (by rw [at_]; rfl) (by rw [at_]; simp) (by simp) (by simp) k
    · next at_ => exact yields_enter s n _ yields (by rw [at_]; rfl) (by rw [at_]; simp) (by simp) (by simp) k
    · exact yields k
  | refused n =>
    simp only [step]
    split
    · exact yields_leave s n .raised yields rfl (by simp) k
    · exact yields_leave s n .raised yields rfl (by simp) k
    · exact yields k
  | turn n =>
    simp only [step]
    split
    · next id at_ => exact yields_returned s _ n id yields (yields_subscribe s n id true yields at_) k
    · next queue at_ =>
      split
      · exact yields_take (s.put queue _) n queue _ yields at_ k
      · exact yields k
    · next queue id at_ =>
      exact yields_returned s _ n id yields
        (yields_enter s n _ yields (by rw [at_]; rfl) (by rw [at_]; simp) (by simp) (by simp)) k
    · exact yields k
  | ran n =>
    simp only [step]
    split
    · next queue at_ =>
      exact yields_enter s.call n _ yields (by rw [State.call,at_]; rfl) (by rw [State.call,at_]; simp) (by simp) (by simp) k
    · exact yields k
  | next n =>
    simp only [step]
    split
    · next queue ends at_ =>
      split_ifs with last
      · refine yields_change s n { s.sends n with phase := .ended } yields ⟨(yields n).tokens,by simp [Phase.open],fun _ => ?_⟩ k
        exact (yields n).ends (.inr ⟨queue,by rw [at_,last]⟩)
      · exact yields_enter s n _ yields (by rw [at_]; rfl) (by rw [at_]; simp [last]) (by simp) (by simp) k
    · exact yields k
  | leave n =>
    simp only [step]
    have settled (id : Int) (future : Future) (j : ℕ) : Yields ((s.settle id future).sends j) := by
      rw [(quiet_settle s id future).sends]
      exact yields j
    split
    · exact yields_leave _ n .left (settled _ _) rfl (by simp) k
    · exact yields_leave _ n .left (settled _ _) rfl (by simp) k
    · split_ifs
      · exact yields_leave s n .left yields rfl (by simp) k
      · exact yields k
  | destroyed session => exact yields k

/-- In every run: nothing comes for the session of a stream while its call is pending, and each stream has got or will
find in its queue just what has come since, if and only if no notification is read while an open stream of its
session has not got its queue, each queue is empty when a stream subscribes to it, and no two streams take from one.
In such a run the tokens yielded are the first of those that have come, up to the end; they are all of them for a
stream that has ended or that waits at its queue. -/
theorem streams_exact (acts : List Act) :
    (Always step Exact new acts ↔ Along step Clean new acts) ∧
      (Along step Clean new acts → ∀ n,
        let s := run step new acts
        let g := s.sends n
        g.tokens <+: shown g.heard ∧ (g.phase = .ended → g.tokens = shown g.heard) ∧
          ∀ queue, g.phase = .streaming queue → s.queues queue = [] → g.tokens = shown g.heard) := by
  have exactly := always_iff_along step Clean Exact Sound (fun _ => True) (fun s act sound _ => sound_step s act sound)
    (fun s act sound _ exact_ => exact_step s act sound exact_) new acts (fun _ _ => trivial) sound_new exact_new
  refine ⟨exactly,?_⟩
  intro clean n s g
  have exact_ : Exact s := always_end step Exact new acts (exactly.mpr clean)
  have yields : Yields g := run_always step (fun s => ∀ k, Yields (s.sends k)) yields_step new acts
    (fun k => ⟨rfl,fun opens => (nomatch opens),by rintro (finished | ⟨queue,finished⟩) <;> cases finished⟩) n
  obtain ⟨later,parts⟩ := exact_.given n
  have heard : g.taken ++ later = g.heard := parts
  refine ⟨?_,fun ended => ?_,fun queue streams empty => ?_⟩
  · rw [yields.tokens,← heard]
    exact shown_prefix g.taken later
  · rw [yields.tokens,← heard,shown_over g.taken later (yields.ends (.inl ended))]
  · have all := exact_.holds n queue (by rw [show (s.sends n).phase = .streaming queue from streams]; rfl)
    rw [empty,List.append_nil] at all
    rw [yields.tokens]
    exact congrArg shown all

/-- What no step does once the reader is over: it does not start again, and no future gets a response. -/
structure Unanswered (s t : State) : Prop where
  deaf : t.reading = false
  futures : ∀ id msg, t.futures id = .done msg → s.futures id = .done msg

theorem unanswered_same (s t : State) (deaf : s.reading = false) (reading : t.reading = s.reading) (futures : t.futures = s.futures) :
    Unanswered s t :=
  ⟨reading.trans deaf,fun id msg done => by rw [← futures]; exact done⟩

theorem unanswered_trans (s t u : State) (first : Unanswered s t) (second : Unanswered t u) : Unanswered s u :=
  ⟨second.deaf,fun id msg done => first.futures id msg (second.futures id msg done)⟩

theorem unanswered_call (s : State) (deaf : s.reading = false) : Unanswered s s.call := by
  refine ⟨deaf,fun id msg done => ?_⟩
  simp only [State.call,Function.update_apply] at done
  split_ifs at done
  exact done

theorem unanswered_settle (s : State) (id : Int) (deaf : s.reading = false) : Unanswered s (s.settle id .failed) := by
  unfold State.settle
  split
  · refine ⟨deaf,fun other msg done => ?_⟩
    simp only [Function.update_apply] at done
    split_ifs at done
    exact done
  · exact unanswered_same s s deaf rfl rfl

theorem unanswered_take (s : State) (n queue : ℕ) (msg : Value) (deaf : s.reading = false) : Unanswered s (take s n queue msg) := by
  unfold take
  cases effect msg <;> exact unanswered_same s _ deaf rfl rfl

theorem unanswered_subscribe (s : State) (n : ℕ) (deaf : s.reading = false) : Unanswered s (subscribe s n) := by
  unfold subscribe
  cases s.notifQueues (s.sends n).session <;> exact unanswered_same s _ deaf rfl rfl

theorem unanswered_returned (s t : State) (n : ℕ) (id : Int) (deaf : s.reading = false) (next : Unanswered s t) :
    Unanswered s (returned s n id t) := by
  unfold returned
  split
  · split_ifs
    · exact unanswered_same s _ deaf rfl rfl
    · exact next
  · exact unanswered_same s _ deaf rfl rfl
  · exact unanswered_same s s deaf rfl rfl

theorem unanswered_step (s : State) (act : Act) (deaf : s.reading = false) : Unanswered s (step s act) := by
  have still : Unanswered s s := unanswered_same s s deaf rfl rfl
  cases act with
  | deliver m => exact unanswered_same s _ deaf rfl rfl
  | read =>
    simp only [step,deaf]
    cases s.wire <;> exact still
  | shut =>
    simp only [step,deaf]
    exact still
  | crash => exact unanswered_same s _ deaf deaf.symm rfl
  | call => exact unanswered_call s deaf
  | send n session tools =>
    simp only [step]
    split_ifs with idle
    · exact unanswered_trans s s.call _ (unanswered_call s deaf) (unanswered_same s.call _ deaf rfl rfl)
    · exact still
  | written n =>
    simp only [step]
    split <;> exact unanswered_same s _ deaf rfl rfl
  | refused n =>
    simp only [step]
    split <;> exact unanswered_same s _ deaf rfl rfl
  | turn n =>
    simp only [step]
    split
    · exact unanswered_returned s _ n _ deaf (unanswered_subscribe s n deaf)
    · next queue _ =>
      split
      · next msg rest _ =>
        exact unanswered_trans s (s.put queue rest) _ (unanswered_same s _ deaf rfl rfl) (unanswered_take _ n queue msg deaf)
      · exact still
    · exact unanswered_returned s _ n _ deaf (unanswered_same s _ deaf rfl rfl)
    · exact still
  | ran n =>
    simp only [step]
    split
    · exact unanswered_trans s s.call _ (unanswered_call s deaf) (unanswered_same s.call _ deaf rfl rfl)
    · exact still
  | next n =>
    simp only [step]
    split
    · split_ifs <;> exact unanswered_same s _ deaf rfl rfl
    · exact still
  | leave n =>
    simp only [step]
    split
    · exact unanswered_trans s _ _ (unanswered_settle s _ deaf) (unanswered_same _ _ (unanswered_settle s _ deaf).deaf rfl rfl)
    · exact unanswered_trans s _ _ (unanswered_settle s _ deaf) (unanswered_same _ _ (unanswered_settle s _ deaf).deaf rfl rfl)
    · split_ifs <;> exact unanswered_same s _ deaf rfl rfl
  | destroyed session => exact unanswered_same s _ deaf rfl rfl

/-- A notification that neither ends a stream nor has it call a tool. -/
def quiet (tools : Bool) (msg : Value) : Bool :=
  match effect msg with
  | .nothing => true
  | .token _ ends => !ends
  | .toolCall => !tools
  | .ends => false

/-- A stream at its queue, or at a `yield` from it, with nothing in the queue but what keeps it there. -/
structure Asleep (n queue : ℕ) (tools : Bool) (s : State) : Prop where
  deaf : s.reading = false
  born : queue < s.made
  same : (s.sends n).tools = tools
  quiet : ∀ msg ∈ s.queues queue, quiet tools msg = true
  stays : (s.sends n).phase = .streaming queue ∨ (s.sends n).phase = .yielded queue false ∨ (s.sends n).phase = .left

/-- A step that leaves the stream where it is, and its queue with no more than it had. -/
theorem asleep_of (n queue : ℕ) (tools : Bool) (s t : State) (asleep : Asleep n queue tools s) (deaf : t.reading = false)
    (made : s.made ≤ t.made) (sends : t.sends n = s.sends n) (queues : ∀ msg ∈ t.queues queue, msg ∈ s.queues queue) :
    Asleep n queue tools t :=
  ⟨deaf,lt_of_lt_of_le asleep.born made,by rw [sends]; exact asleep.same,fun msg member => asleep.quiet msg (queues msg member),
    by rw [sends]; exact asleep.stays⟩

theorem asleep_change (n queue : ℕ) (tools : Bool) (s : State) (k : ℕ) (g : Generator) (asleep : Asleep n queue tools s)
    (other : k ≠ n) : Asleep n queue tools (s.change k g) :=
  asleep_of n queue tools s _ asleep asleep.deaf (le_refl _) (Function.update_of_ne other.symm ..) (fun _ member => member)

theorem asleep_quiet (n queue : ℕ) (tools : Bool) (s t : State) (asleep : Asleep n queue tools s) (deaf : t.reading = false)
    (quiet : Quiet s t) : Asleep n queue tools t :=
  asleep_of n queue tools s t asleep deaf (le_of_eq quiet.made.symm) (by rw [quiet.sends]) (fun msg member => by rwa [quiet.queues] at member)

theorem asleep_subscribe (n queue : ℕ) (tools : Bool) (s : State) (k : ℕ) (asleep : Asleep n queue tools s) (other : k ≠ n) :
    Asleep n queue tools (subscribe s k) := by
  unfold subscribe
  cases s.notifQueues (s.sends k).session with
  | some _ => exact asleep_change n queue tools s k _ asleep other
  | none =>
    refine asleep_of n queue tools s _ asleep asleep.deaf (Nat.le_succ _) (Function.update_of_ne other.symm ..) (fun msg member => ?_)
    have kept : (Function.update s.queues s.made []) queue = s.queues queue := Function.update_of_ne (Nat.ne_of_lt asleep.born) ..
    exact kept ▸ member

theorem asleep_returned (n queue : ℕ) (tools : Bool) (s t : State) (k : ℕ) (id : Int) (asleep : Asleep n queue tools s)
    (other : k ≠ n) (next : Asleep n queue tools t) : Asleep n queue tools (returned s k id t) := by
  unfold returned
  split
  · split_ifs
    · exact asleep_change n queue tools s k _ asleep other
    · exact next
  · exact asleep_change n queue tools s k _ asleep other
  · exact asleep

theorem asleep_finish (n queue : ℕ) (tools : Bool) (s : State) (k : ℕ) (asleep : Asleep n queue tools s) (other : k ≠ n) :
    Asleep n queue tools (finish s k) :=
  asleep_of n queue tools (s.enter k .ended) _ (asleep_change n queue tools s k _ asleep other) asleep.deaf (le_refl _) rfl
    (fun _ member => member)

theorem asleep_put (n queue : ℕ) (tools : Bool) (s : State) (shared : ℕ) (msg : Value) (rest : List Value)
    (asleep : Asleep n queue tools s) (content : s.queues shared = msg :: rest) : Asleep n queue tools (s.put shared rest) := by
  refine asleep_of n queue tools s _ asleep asleep.deaf (le_refl _) rfl (fun other member => ?_)
  simp only [State.put,Function.update_apply] at member
  split_ifs at member with same
  · rw [same,content]
    exact List.mem_cons_of_mem msg member
  · exact member

theorem asleep_take (n queue : ℕ) (tools : Bool) (s : State) (k shared : ℕ) (msg : Value) (asleep : Asleep n queue tools s)
    (other : k ≠ n) : Asleep n queue tools (take s k shared msg) := by
  unfold take
  cases effect msg with
  | ends => exact asleep_finish n queue tools _ k (asleep_change n queue tools s k _ asleep other) other
  | _ => exact asleep_change n queue tools s k _ asleep other

/-- The stream's own step: it takes what keeps it there. -/
theorem asleep_self (n queue : ℕ) (tools : Bool) (s : State) (phase : Phase) (g : Generator) (asleep : Asleep n queue tools s)
    (same : g.tools = (s.sends n).tools) (at_ : g.phase = phase)
    (stays : phase = .streaming queue ∨ phase = .yielded queue false ∨ phase = .left) : Asleep n queue tools (s.change n g) := by
  have self : (s.change n g).sends n = g := Function.update_self ..
  refine ⟨asleep.deaf,asleep.born,?_,asleep.quiet,?_⟩
  · rw [self,same]
    exact asleep.same
  · rw [self,at_]
    exact stays

theorem asleep_turn (n queue : ℕ) (tools : Bool) (s : State) (asleep : Asleep n queue tools s) :
    Asleep n queue tools (step s (.turn n)) := by
  simp only [step]
  rcases asleep.stays with at_ | at_ | at_
  · simp only [at_]
    cases content : s.queues queue with
    | nil => exact asleep
    | cons msg rest =>
      have before := asleep_put n queue tools s queue msg rest asleep content
      have plain : quiet tools msg = true := asleep.quiet msg (by rw [content]; exact List.mem_cons_self)
      simp only
      unfold take
      unfold AsyncRpc.quiet at plain
      cases same : effect msg with
      | nothing => exact asleep_self n queue tools _ _ _ before rfl at_ (.inl rfl)
      | token delta ends =>
        obtain rfl : ends = false := by simpa [same] using plain
        exact asleep_self n queue tools _ _ _ before rfl rfl (.inr (.inl rfl))
      | toolCall =>
        have without : (s.sends n).tools = false := asleep.same.trans (by simpa [same] using plain)
        refine asleep_self n queue tools _ (.streaming queue) _ before rfl ?_ (.inl rfl)
        simp [State.put,without,at_]
      | ends => simp [same] at plain
  · simp only [at_]
    exact asleep
  · simp only [at_]
    exact asleep

theorem asleep_step (n queue : ℕ) (tools : Bool) (s : State) (act : Act) (asleep : Asleep n queue tools s) :
    Asleep n queue tools (step s act) := by
  have deaf := (unanswered_step s act asleep.deaf).deaf
  have called : Asleep n queue tools s.call := asleep_quiet n queue tools s _ asleep asleep.deaf ⟨rfl,rfl,rfl,rfl⟩
  cases act with
  | deliver m => exact asleep_quiet n queue tools s _ asleep deaf ⟨rfl,rfl,rfl,rfl⟩
  | read =>
    simp only [step,asleep.deaf]
    cases s.wire <;> exact asleep
  | shut =>
    simp only [step,asleep.deaf]
    exact asleep
  | crash => exact asleep_quiet n queue tools s _ asleep deaf ⟨rfl,rfl,rfl,rfl⟩
  | call => exact called
  | send k session given =>
    simp only [step]
    split_ifs with idle
    · refine asleep_change n queue tools s.call k _ called ?_
      rintro rfl
      rcases asleep.stays with at_ | at_ | at_ <;> rw [idle] at at_ <;> cases at_
    · exact asleep
  | written k =>
    by_cases self : k = n
    · subst self
      simp only [step]
      rcases asleep.stays with at_ | at_ | at_ <;> simp only [at_] <;> exact asleep
    · simp only [step]
      split
      · exact asleep_change n queue tools s k _ asleep self
      · exact asleep_change n queue tools s k _ asleep self
      · exact asleep
  | refused k =>
    by_cases self : k = n
    · subst self
      simp only [step]
      rcases asleep.stays with at_ | at_ | at_ <;> simp only [at_] <;> exact asleep
    · simp only [step]
      split
      · exact asleep_change n queue tools s k _ asleep self
      · exact asleep_change n queue tools s k _ asleep self
      · exact asleep
  | turn k =>
    by_cases self : k = n
    · subst self
      exact asleep_turn k queue tools s asleep
    · simp only [step]
      split
      · exact asleep_returned n queue tools s _ k _ asleep self (asleep_subscribe n queue tools s k asleep self)
      · next shared _ =>
        split
        · next msg rest content =>
          exact asleep_take n queue tools _ k shared msg (asleep_put n queue tools s shared msg rest asleep content) self
        · exact asleep
      · exact asleep_returned n queue tools s _ k _ asleep self (asleep_change n queue tools s k _ asleep self)
      · exact asleep
  | ran k =>
    by_cases self : k = n
    · subst self
      simp only [step]
      rcases asleep.stays with at_ | at_ | at_ <;> simp only [at_] <;> exact asleep
    · simp only [step]
      split
      · exact asleep_change n queue tools s.call k _ called self
      · exact asleep
  | next k =>
    by_cases self : k = n
    · subst self
      simp only [step]
      rcases asleep.stays with at_ | at_ | at_ <;> simp only [at_]
      · exact asleep
      · exact asleep_self k queue tools s _ _ asleep rfl rfl (.inl rfl)
      · exact asleep
    · simp only [step]
      split
      · split_ifs
        · exact asleep_finish n queue tools s k asleep self
        · exact asleep_change n queue tools s k _ asleep self
      · exact asleep
  | leave k =>
    by_cases self : k = n
    · subst self
      simp only [step]
      rcases asleep.stays with at_ | at_ | at_ <;> simp only [at_,Phase.open]
      · exact asleep_self k queue tools s _ _ asleep rfl rfl (.inr (.inr rfl))
      · exact asleep_self k queue tools s _ _ asleep rfl rfl (.inr (.inr rfl))
      · exact asleep
    · simp only [step]
      have settled (id : Int) : Asleep n queue tools (s.settle id .failed) :=
        asleep_quiet n queue tools s _ asleep (unanswered_settle s id asleep.deaf).deaf (quiet_settle s id .failed)
      split
      · exact asleep_change n queue tools _ k _ (settled _) self
      · exact asleep_change n queue tools _ k _ (settled _) self
      · split_ifs
        · exact asleep_change n queue tools s k _ asleep self
        · exact asleep
  | destroyed session => exact asleep_of n queue tools s _ asleep deaf (le_refl _) rfl (fun _ member => member)

/-- Once the reader is over, whether the connection was closed or a frame could not be read: no call is answered that was
not before, and a stream with no end and no call of a tool in its queue is left there, and neither ends nor raises. -/
theorem stranded (before later : List Act) (finished : (run step new before).reading = false) :
    let s := run step new before
    let t := run step s later
    (∀ id msg, t.futures id = .done msg → s.futures id = .done msg) ∧
      ∀ n queue, (s.sends n).phase = .streaming queue → (∀ msg ∈ s.queues queue, quiet (s.sends n).tools msg = true) →
        (t.sends n).phase = .streaming queue ∨ (t.sends n).phase = .yielded queue false ∨ (t.sends n).phase = .left := by
  intro s t
  have unanswered : Unanswered s t := run_always step (Unanswered s)
    (fun u act first => unanswered_trans s u _ first (unanswered_step u act first.deaf)) s later
    (unanswered_same s s finished rfl rfl)
  refine ⟨unanswered.futures,fun n queue streams content => ?_⟩
  have sound : Sound s := run_always step Sound sound_step new before sound_new
  have born : queue < s.made := sound.got n queue (by rw [streams]; rfl)
  exact (run_always step (Asleep n queue (s.sends n).tools) (asleep_step n queue (s.sends n).tools) s later
    ⟨finished,born,rfl,content,.inl streams⟩).stays

/-- The connection is closed while a stream waits for its first token. -/
def closedEarly : List Act :=
  [.send 0 "a" false,.written 0,.deliver (.response (.success .null (some (.number 1)))),.read,.turn 0,.shut]

theorem stranded_run :
    let s := run step new closedEarly
    let t := run step s [.turn 0,.call,.next 0]
    (∀ id msg, t.futures id = .done msg → s.futures id = .done msg) ∧
      ∀ n queue, (s.sends n).phase = .streaming queue → (∀ msg ∈ s.queues queue, quiet (s.sends n).tools msg = true) →
        (t.sends n).phase = .streaming queue ∨ (t.sends n).phase = .yielded queue false ∨ (t.sends n).phase = .left :=
  stranded closedEarly _ (by decide)

example : ((run step new closedEarly).sends 0).phase = .streaming 0 := by decide

end ClawKernel.Sdk.AsyncRpc
