import Mathlib.Data.List.Nodup
import Mathlib.Logic.Function.Basic
import ClawKernel.A2A.Routing
import ClawKernel.Lib.Runs
import ClawKernel.Pal.Framing

/-! Messages to a router elsewhere: the remote branch of `route_message`, a connection for each message; the
loop of `start_accepting`, which binds the endpoint anew for each connection it takes and drops the listener
with those it has not; and a task of `handle_transport` for each connection taken.
-/
namespace ClawKernel.A2A.Remote
open Lib Lib.LengthPrefix Lib.Runs Lib.Tables Codec Routing
open Pal.Framing (IpcError defaultMaxFrameSize)

def text : IpcError → String
  | .connectionRefused => "connection refused"
  | .timeout => "operation timed out"
  | .brokenPipe => "broken pipe"
  | .invalidMessage => "invalid message format"
  | .permissionDenied => "permission denied"

def failed (error : IpcError) : Except RuntimeError Unit := .error (.ipcError (text error))

/-- The remote branch of `route_message`: before `create_client`, with bytes of its frame still to be
written, and after; `left` if its caller gave it up. -/
inductive Call where
  | idle
  | connecting
  | writing (rest : Bytes)
  | done (result : Except RuntimeError Unit)
  | left

/-- A task of `handle_transport`; `stuck` is a `route_message` that waits for ever. -/
inductive Task where
  | receiving
  | routing (message : A2AMessage)
  | stuck
  | over

/-- The other end of a connection: in the backlog of the listener, with a task, or gone with the listener; or
with a process that listens in the acceptor's place, which may have left it. -/
inductive Peer where
  | none
  | waiting
  | handled (task : Task)
  | reset
  | elsewhere (gone : Bool)

inductive Acceptor where
  | unlinking
  | binding
  | accepting (listener : ℕ)
  | leaving (listener : ℕ)
  | stopped
  deriving DecidableEq

/-- What the endpoint's path leads to: nothing, a listener of the acceptor, or what others put there, which may
listen. -/
inductive Entry where
  | nothing
  | socket (listener : ℕ)
  | other
  deriving DecidableEq

/-- A message has its call, its connection and the task of that connection under one number; `pipe` is what
has been written into the connection and not read yet. -/
structure State where
  acceptor : Acceptor
  node : Entry
  bound : ℕ
  backlog : List ℕ
  messages : ℕ → Option A2AMessage
  calls : ℕ → Call
  pipe : ℕ → Bytes
  peer : ℕ → Peer
  router : IpcRouter
  received : List (ℕ × A2AMessage)

/-- A call connects (the system may refuse it), writes some more bytes, or is given up; the acceptor goes on;
others put something at the endpoint's path or take it away, and leave a connection that was made there; the agents
come, go and receive; a task takes a frame or routes its message. -/
inductive Act where
  | send (n : ℕ) (message : A2AMessage)
  | connect (n : ℕ) (refused : Bool)
  | write (n : ℕ) (count : ℕ)
  | leave (n : ℕ)
  | unlink (removed : Bool)
  | bind (refused : Bool)
  | accept
  | acceptFails
  | drop
  | disturb (present : Bool)
  | hangUp (n : ℕ)
  | agents (agents : Table String AgentHandle)
  | recv (n : ℕ)
  | route (n : ℕ) (meanwhile : Meanwhile)

def start (router : IpcRouter) : State where
  acceptor := .unlinking
  node := .nothing
  bound := 0
  backlog := []
  messages _ := none
  calls _ := .idle
  pipe _ := []
  peer _ := .none
  router := router
  received := []

def State.call (s : State) (n : ℕ) (call : Call) : State := {s with calls := Function.update s.calls n call}

def State.meet (s : State) (n : ℕ) (peer : Peer) : State := {s with peer := Function.update s.peer n peer}

/-- The listener of a number is open. -/
def State.listens (s : State) (listener : ℕ) : Bool :=
  s.acceptor = .accepting listener ∨ s.acceptor = .leaving listener

/-- `send` of the transport, before it writes. -/
def sending (bytes : Bytes) : Call :=
  if bytes.isEmpty then .done (failed .invalidMessage)
  else if defaultMaxFrameSize < bytes.length then .done (failed .invalidMessage)
  else .writing (frame bytes)

/-- `create_client`, and `send` up to its first byte. -/
def State.connect (s : State) (n : ℕ) (refused : Bool) (message : A2AMessage) : State :=
  match s.node with
  | .socket listener =>
    if refused ∨ s.listens listener = false then s.call n (.done (failed .connectionRefused))
    else {(s.meet n .waiting).call n (sending (encodeMessage message)) with backlog := s.backlog ++ [n]}
  | .other =>
    if refused then s.call n (.done (failed .connectionRefused))
    else (s.meet n (.elsewhere false)).call n (sending (encodeMessage message))
  | .nothing => s.call n (.done (failed .connectionRefused))

def State.write (s : State) (n : ℕ) (rest : Bytes) (count : ℕ) : State :=
  match s.peer n with
  | .reset => s.call n (.done (failed .brokenPipe))
  | .elsewhere true => s.call n (.done (failed .brokenPipe))
  | _ => {s.call n (if rest.length ≤ count then .done (.ok ()) else .writing (rest.drop count)) with
      pipe := Function.update s.pipe n (s.pipe n ++ rest.take count)}

/-- The listener is gone, and with it what waits in its backlog. -/
def State.close (s : State) (acceptor : Acceptor) : State :=
  {s with
    acceptor := acceptor
    backlog := []
    peer := fun n => if n ∈ s.backlog then .reset else s.peer n}

def Call.closed : Call → Bool
  | .done _ => true
  | .left => true
  | _ => false

section Step
variable (fromSlice : List UInt8 → Option Json.Value)

/-- The loop of `handle_transport` at `recv`. -/
def State.recv (s : State) (n : ℕ) : State :=
  match split defaultMaxFrameSize (s.pipe n) with
  | .whole payload rest =>
    let s := {s with pipe := Function.update s.pipe n rest}
    match decodeMessage fromSlice payload with
    | some message =>
      {s.meet n (.handled (.routing message)) with
        router := publish s.router message
        received := s.received ++ [(n,message)]}
    | none => s
  | .oversize _ => s.meet n (.handled .over)
  | .incomplete => if (s.calls n).closed then s.meet n (.handled .over) else s

def step (s : State) : Act → State
  | .send n message =>
    match s.calls n with
    | .idle => {s.call n .connecting with messages := Function.update s.messages n (some message)}
    | _ => s
  | .connect n refused =>
    match s.calls n,s.messages n with
    | .connecting,some message => s.connect n refused message
    | _,_ => s
  | .write n count =>
    match s.calls n with
    | .writing rest => s.write n rest count
    | _ => s
  | .leave n =>
    match s.calls n with
    | .connecting => s.call n .left
    | .writing _ => s.call n .left
    | _ => s
  | .unlink removed =>
    match s.acceptor with
    | .unlinking => {s with acceptor := .binding, node := if removed then .nothing else s.node}
    | _ => s
  | .bind refused =>
    match s.acceptor with
    | .binding =>
      if refused ∨ s.node ≠ .nothing then {s with acceptor := .stopped}
      else {s with acceptor := .accepting s.bound, node := .socket s.bound, bound := s.bound + 1}
    | _ => s
  | .accept =>
    match s.acceptor,s.backlog with
    | .accepting listener,n :: later =>
      {s.meet n (.handled .receiving) with acceptor := .leaving listener, backlog := later}
    | _,_ => s
  | .acceptFails =>
    match s.acceptor with
    | .accepting _ => s.close .stopped
    | _ => s
  | .drop =>
    match s.acceptor with
    | .leaving _ => s.close .unlinking
    | _ => s
  | .disturb present => {s with node := if present then .other else .nothing}
  | .hangUp n =>
    match s.peer n with
    | .elsewhere _ => s.meet n (.elsewhere true)
    | _ => s
  | .agents agents => {s with router := {s.router with agents := agents}}
  | .recv n =>
    match s.peer n with
    | .handled .receiving => s.recv fromSlice n
    | _ => s
  | .route n meanwhile =>
    match s.peer n with
    | .handled (.routing message) =>
      let outcome := routeLocal meanwhile s.router message
      {s.meet n (.handled (if outcome.result.isNone then .stuck else .receiving)) with router := outcome.router}
    | _ => s

/-! One message. -/

/-- What a state says of one message. -/
structure View where
  message : Option A2AMessage
  call : Call
  pipe : Bytes
  peer : Peer
  arrived : List A2AMessage

def State.arrived (s : State) (n : ℕ) : List A2AMessage := (s.received.filter (fun e => e.1 = n)).map Prod.snd

def State.view (s : State) (n : ℕ) : View := ⟨s.messages n,s.calls n,s.pipe n,s.peer n,s.arrived n⟩

/-- The endpoint's path leads to an open listener. -/
def Reaches (s : State) : Prop := ∃ listener, s.node = .socket listener ∧ s.listens listener = true

/-- What a step makes of one message; `closes` says that the listener goes in whose backlog it waits, `reaches`
that the endpoint leads to an open listener, and `others` that it leads to what others put there. -/
inductive Changes (closes reaches others : Prop) (v : View) : View → Prop where
  | same : Changes closes reaches others v v
  | sends (message : A2AMessage) (idle : v.call = .idle) :
      Changes closes reaches others v {v with call := .connecting, message := some message}
  | refused (error : IpcError) (connecting : v.call = .connecting) :
      Changes closes reaches others v {v with call := .done (failed error)}
  | connects (message : A2AMessage) (connecting : v.call = .connecting) (known : v.message = some message)
      (isOpen : reaches) :
      Changes closes reaches others v {v with call := sending (encodeMessage message), peer := .waiting}
  | writes (rest : Bytes) (count : ℕ) (writing : v.call = .writing rest) (stands : v.peer ≠ .reset) :
      Changes closes reaches others v {v with
        call := if rest.length ≤ count then .done (.ok ()) else .writing (rest.drop count)
        pipe := v.pipe ++ rest.take count}
  | strays (message : A2AMessage) (connecting : v.call = .connecting) (known : v.message = some message)
      (there : others) :
      Changes closes reaches others v {v with call := sending (encodeMessage message), peer := .elsewhere false}
  | breaks (rest : Bytes) (writing : v.call = .writing rest) (broken : v.peer = .reset ∨ v.peer = .elsewhere true) :
      Changes closes reaches others v {v with call := .done (failed .brokenPipe)}
  | leaves (active : v.call = .connecting ∨ ∃ rest, v.call = .writing rest) :
      Changes closes reaches others v {v with call := .left}
  | accepted (waiting : v.peer = .waiting) : Changes closes reaches others v {v with peer := .handled .receiving}
  | reset (waiting : v.peer = .waiting) (gone : closes) : Changes closes reaches others v {v with peer := .reset}
  | reads (payload rest : Bytes) (receiving : v.peer = .handled .receiving)
      (found : split defaultMaxFrameSize v.pipe = .whole payload rest) :
      Changes closes reaches others v {v with
        pipe := rest
        peer := .handled (((decodeMessage fromSlice payload).map Task.routing).getD .receiving)
        arrived := v.arrived ++ (decodeMessage fromSlice payload).toList}
  | ends (receiving : v.peer = .handled .receiving)
      (missing : (∃ length, split defaultMaxFrameSize v.pipe = .oversize length) ∨
        split defaultMaxFrameSize v.pipe = .incomplete ∧ v.call.closed = true) :
      Changes closes reaches others v {v with peer := .handled .over}
  | routes (message : A2AMessage) (task : Task) (routing : v.peer = .handled (.routing message)) :
      Changes closes reaches others v {v with peer := .handled task}
  | hangsUp (gone : Bool) (strayed : v.peer = .elsewhere gone) :
      Changes closes reaches others v {v with peer := .elsewhere true}

/-- Each connection in the backlog waits there once, of a listener that is open. -/
structure Queued (s : State) : Prop where
  waits : ∀ n, n ∈ s.backlog ↔ s.peer n = .waiting
  distinct : s.backlog.Nodup
  listens : s.backlog ≠ [] → ∃ listener, s.listens listener = true

/-- The step drops an open listener. -/
def Closes (s : State) (act : Act) : Prop :=
  act = .drop ∧ (∃ listener, s.acceptor = .leaving listener) ∨
    act = .acceptFails ∧ ∃ listener, s.acceptor = .accepting listener

theorem view_call (s : State) (n k : ℕ) (call : Call) :
    (s.call n call).view k = if k = n then {s.view k with call := call} else s.view k := by
  split_ifs with same
  · rw [same]
    simp only [State.view,State.call,State.arrived,Function.update_self]
  · simp only [State.view,State.call,State.arrived,Function.update_of_ne same]

theorem view_meet (s : State) (n k : ℕ) (peer : Peer) :
    (s.meet n peer).view k = if k = n then {s.view k with peer := peer} else s.view k := by
  split_ifs with same
  · rw [same]
    simp only [State.view,State.meet,State.arrived,Function.update_self]
  · simp only [State.view,State.meet,State.arrived,Function.update_of_ne same]

/-- A step that sees to one message leaves the others alone. -/
theorem changes_one (closes reaches others : Prop) (s t : State) (n k : ℕ) (v : View)
    (view : t.view k = if k = n then v else s.view k)
    (changes : k = n → Changes fromSlice closes reaches others (s.view k) v) :
    Changes fromSlice closes reaches others (s.view k) (t.view k) := by
  rw [view]
  split_ifs with same
  · exact changes same
  · exact .same

theorem connect_changes (closes : Prop) (s : State) (n k : ℕ) (refused : Bool) (message : A2AMessage)
    (connecting : s.calls n = .connecting) (known : s.messages n = some message) :
    Changes fromSlice closes (Reaches s) (s.node = .other) (s.view k) ((s.connect n refused message).view k) := by
  have refuses : Changes fromSlice closes (Reaches s) (s.node = .other) (s.view k)
      ((s.call n (.done (failed .connectionRefused))).view k) :=
    changes_one fromSlice closes (Reaches s) (s.node = .other) s _ n k _ (view_call s n k _)
      (fun same => .refused .connectionRefused (same ▸ connecting))
  unfold State.connect
  split
  next listener node =>
    split_ifs with fails
    · exact refuses
    · rw [not_or,Bool.not_eq_false] at fails
      refine changes_one fromSlice closes (Reaches s) (s.node = .other) s _ n k _
        ((view_call (s.meet n .waiting) n k _).trans ?_)
        (fun same => .connects message (same ▸ connecting) (same ▸ known) ⟨listener,node,fails.2⟩)
      rw [view_meet]
      split_ifs <;> rfl
  next there =>
    split_ifs
    · exact refuses
    · refine changes_one fromSlice closes (Reaches s) (s.node = .other) s _ n k _
        ((view_call (s.meet n (.elsewhere false)) n k _).trans ?_)
        (fun same => .strays message (same ▸ connecting) (same ▸ known) there)
      rw [view_meet]
      split_ifs <;> rfl
  · exact refuses

theorem write_changes (closes reaches others : Prop) (s : State) (n k : ℕ) (rest : Bytes) (count : ℕ)
    (writing : s.calls n = .writing rest) :
    Changes fromSlice closes reaches others (s.view k) ((s.write n rest count).view k) := by
  unfold State.write
  split
  next reset =>
    exact changes_one fromSlice closes reaches others s _ n k _ (view_call s n k _)
      (fun same => .breaks rest (same ▸ writing) (.inl (same ▸ reset)))
  next left =>
    exact changes_one fromSlice closes reaches others s _ n k _ (view_call s n k _)
      (fun same => .breaks rest (same ▸ writing) (.inr (same ▸ left)))
  next stands _ =>
    refine changes_one fromSlice closes reaches others s _ n k _ ?_
      (fun same => .writes rest count (same ▸ writing) (same ▸ stands))
    by_cases same : k = n
    · rw [if_pos same,same]
      simp only [State.view,State.call,State.arrived,Function.update_self]
    · rw [if_neg same]
      simp only [State.view,State.call,State.arrived,Function.update_of_ne same]

theorem close_changes (closes reaches others : Prop) (s : State) (k : ℕ) (acceptor : Acceptor) (queued : Queued s)
    (gone : closes) :
    Changes fromSlice (closes ∧ k ∈ s.backlog) reaches others (s.view k) ((s.close acceptor).view k) := by
  by_cases member : k ∈ s.backlog
  · have view : (s.close acceptor).view k = {s.view k with peer := .reset} :=
      congrArg (fun p => View.mk (s.messages k) (s.calls k) (s.pipe k) p (s.arrived k)) (if_pos member)
    rw [view]
    exact .reset ((queued.waits k).mp member) ⟨gone,member⟩
  · have view : (s.close acceptor).view k = s.view k :=
      congrArg (fun p => View.mk (s.messages k) (s.calls k) (s.pipe k) p (s.arrived k)) (if_neg member)
    rw [view]
    exact .same

theorem arrived_concat (s : State) (n k : ℕ) (message : A2AMessage) :
    State.arrived {s with received := s.received ++ [(n,message)]} k =
      if k = n then s.arrived k ++ [message] else s.arrived k := by
  simp only [State.arrived,List.filter_append,List.map_append]
  split_ifs with same
  · rw [same,List.filter_cons_of_pos (by simp)]
    rfl
  · rw [List.filter_cons_of_neg (by simpa using fun other => same other.symm)]
    exact List.append_nil _

theorem recv_changes (closes reaches others : Prop) (s : State) (n k : ℕ) (receiving : s.peer n = .handled .receiving) :
    Changes fromSlice closes reaches others (s.view k) ((s.recv fromSlice n).view k) := by
  unfold State.recv
  split
  next payload rest found =>
    refine changes_one fromSlice closes reaches others s _ n k _ ?_
      (fun same => .reads payload rest (same ▸ receiving) (same ▸ found))
    cases decodeMessage fromSlice payload with
    | some message =>
      change View.mk _ _ _ _ (State.arrived {s with received := s.received ++ [(n,message)]} k) = _
      rw [arrived_concat]
      split_ifs with same
      · rw [same]
        simp only [State.view,State.meet,Function.update_self]
        rfl
      · simp only [State.view,State.meet,Function.update_of_ne same]
    | none =>
      split_ifs with same
      · rw [same]
        simp only [State.view,State.arrived,Function.update_self,receiving]
        exact congrArg (View.mk _ _ _ _) (List.append_nil _).symm
      · simp only [State.view,State.arrived,Function.update_of_ne same]
  next length found =>
    exact changes_one fromSlice closes reaches others s _ n k _ (view_meet s n k _)
      (fun same => .ends (same ▸ receiving) (.inl ⟨length,same ▸ found⟩))
  next found =>
    split_ifs with closed
    · exact changes_one fromSlice closes reaches others s _ n k _ (view_meet s n k _)
        (fun same => .ends (same ▸ receiving) (.inr ⟨same ▸ found,same ▸ closed⟩))
    · exact .same

theorem step_changes (s : State) (act : Act) (k : ℕ) (queued : Queued s) :
    Changes fromSlice (Closes s act ∧ k ∈ s.backlog) (Reaches s) (s.node = .other) (s.view k)
      ((step fromSlice s act).view k) := by
  cases act with
  | send n message =>
    simp only [step]
    split
    next idle =>
      refine changes_one fromSlice _ _ _ s _ n k _ ?_ (fun same => .sends message (same ▸ idle))
      by_cases same : k = n
      · rw [if_pos same,same]
        simp only [State.view,State.call,State.arrived,Function.update_self]
      · rw [if_neg same]
        simp only [State.view,State.call,State.arrived,Function.update_of_ne same]
    · exact .same
  | connect n refused =>
    simp only [step]
    split
    next message connecting known => exact connect_changes fromSlice _ s n k refused message connecting known
    · exact .same
  | write n count =>
    simp only [step]
    split
    next rest writing => exact write_changes fromSlice _ _ _ s n k rest count writing
    · exact .same
  | leave n =>
    simp only [step]
    split
    next connecting =>
      exact changes_one fromSlice _ _ _ s _ n k _ (view_call s n k .left) (fun same => .leaves (.inl (same ▸ connecting)))
    next rest writing =>
      exact changes_one fromSlice _ _ _ s _ n k _ (view_call s n k .left)
        (fun same => .leaves (.inr ⟨rest,same ▸ writing⟩))
    · exact .same
  | unlink removed =>
    simp only [step]
    split <;> exact .same
  | bind refused =>
    simp only [step]
    split
    · split_ifs <;> exact .same
    · exact .same
  | accept =>
    simp only [step]
    split
    next listener n later _ backlog =>
      have waiting : s.peer n = .waiting := (queued.waits n).mp (backlog ▸ List.mem_cons_self)
      exact changes_one fromSlice _ _ _ s _ n k _ (view_meet s n k (.handled .receiving))
        (fun same => .accepted (same ▸ waiting))
    · exact .same
  | acceptFails =>
    simp only [step]
    split
    next listener accepting => exact close_changes fromSlice _ _ _ s k .stopped queued (.inr ⟨rfl,listener,accepting⟩)
    · exact .same
  | drop =>
    simp only [step]
    split
    next listener leaving => exact close_changes fromSlice _ _ _ s k .unlinking queued (.inl ⟨rfl,listener,leaving⟩)
    · exact .same
  | disturb present => exact .same
  | hangUp n =>
    simp only [step]
    split
    next gone strayed =>
      exact changes_one fromSlice _ _ _ s _ n k _ (view_meet s n k _) (fun same => .hangsUp gone (same ▸ strayed))
    · exact .same
  | agents agents => exact .same
  | recv n =>
    simp only [step]
    split
    next receiving => exact recv_changes fromSlice _ _ _ s n k receiving
    · exact .same
  | route n meanwhile =>
    simp only [step]
    split
    next message routing =>
      exact changes_one fromSlice _ _ _ s _ n k _ (view_meet s n k _) (fun same => .routes message _ (same ▸ routing))
    · exact .same

theorem queued_start (router : IpcRouter) : Queued (start router) where
  waits _ := ⟨nofun,nofun⟩
  distinct := List.nodup_nil
  listens none := absurd rfl none

/-- The backlog and who waits in it are as they were, and so is the listener if there is anything in it. -/
theorem queued_same (s t : State) (queued : Queued s) (backlog : t.backlog = s.backlog)
    (peer : ∀ n, t.peer n = .waiting ↔ s.peer n = .waiting)
    (acceptor : t.acceptor = s.acceptor ∨ ∀ listener, s.listens listener = false) : Queued t where
  waits n := by
    rw [backlog,peer]
    exact queued.waits n
  distinct := backlog ▸ queued.distinct
  listens some_ := by
    rw [backlog] at some_
    obtain ⟨listener,isOpen⟩ := queued.listens some_
    rcases acceptor with same | none
    · refine ⟨listener,?_⟩
      rw [State.listens,same]
      exact isOpen
    · rw [none listener] at isOpen
      cases isOpen

/-- A peer that does not wait comes to be one that does not. -/
theorem queued_meet (s t : State) (n : ℕ) (peer : Peer) (queued : Queued s) (backlog : t.backlog = s.backlog)
    (acceptor : t.acceptor = s.acceptor) (peers : t.peer = Function.update s.peer n peer)
    (before : s.peer n ≠ .waiting) (after : peer ≠ .waiting) : Queued t := by
  refine queued_same s t queued backlog (fun k => ?_) (.inl acceptor)
  rw [peers]
  by_cases same : k = n
  · rw [same,Function.update_self]
    exact ⟨fun waits => absurd waits after,fun waits => absurd waits before⟩
  · rw [Function.update_of_ne same]

theorem queued_close (s : State) (acceptor : Acceptor) (queued : Queued s) : Queued (s.close acceptor) where
  waits n := by
    refine ⟨nofun,fun waits => ?_⟩
    change (if n ∈ s.backlog then Peer.reset else s.peer n) = .waiting at waits
    split_ifs at waits with member
    exact absurd ((queued.waits n).mpr waits) member
  distinct := List.nodup_nil
  listens none := absurd rfl none

/-- How far a message has come: not connected; not written whole; whole in its connection; read; lost with a
listener; or elsewhere. -/
inductive Standing (v : View) : Prop where
  | early (call : v.call = .idle ∨ v.call = .connecting) (peer : v.peer = .none) (pipe : v.pipe = [])
      (arrived : v.arrived = [])
  | short (late : v.call ≠ .idle ∧ v.call ≠ .connecting) (fails : v.call ≠ .done (.ok ()))
      (missing : split defaultMaxFrameSize v.pipe = .incomplete)
      (writing : ∀ rest, v.call = .writing rest → ∃ message, v.message = some message ∧
        (encodeMessage message).length ≤ defaultMaxFrameSize ∧ v.pipe ++ rest = frame (encodeMessage message))
      (peer : v.peer = .waiting ∨ v.peer = .handled .receiving ∨
        v.call.closed = true ∧ (v.peer = .none ∨ v.peer = .handled .over))
      (arrived : v.arrived = [])
  | whole (message : A2AMessage) (call : v.call = .done (.ok ())) (known : v.message = some message)
      (fits : (encodeMessage message).length ≤ defaultMaxFrameSize) (pipe : v.pipe = frame (encodeMessage message))
      (peer : v.peer = .waiting ∨ v.peer = .handled .receiving) (arrived : v.arrived = [])
  | read (message : A2AMessage) (call : v.call = .done (.ok ())) (known : v.message = some message) (pipe : v.pipe = [])
      (peer : ∃ task, v.peer = .handled task)
      (arrived : v.arrived = (decodeMessage fromSlice (encodeMessage message)).toList)
  | lost (peer : v.peer = .reset) (late : v.call ≠ .idle ∧ v.call ≠ .connecting) (arrived : v.arrived = [])
  | elsewhere (gone : Bool) (peer : v.peer = .elsewhere gone) (late : v.call ≠ .idle ∧ v.call ≠ .connecting)
      (arrived : v.arrived = [])

theorem fits_word {n : ℕ} (fits : n ≤ defaultMaxFrameSize) : n < 2 ^ 32 := by
  rw [defaultMaxFrameSize] at fits
  omega

theorem split_whole (message : A2AMessage) (fits : (encodeMessage message).length ≤ defaultMaxFrameSize) :
    split defaultMaxFrameSize (frame (encodeMessage message)) = .whole (encodeMessage message) [] := by
  have found := split_frame defaultMaxFrameSize (encodeMessage message) [] fits (fits_word fits)
  rwa [List.append_nil] at found

theorem sending_cases (bytes : Bytes) :
    (∃ error, sending bytes = .done (failed error)) ∨
      sending bytes = .writing (frame bytes) ∧ bytes.length ≤ defaultMaxFrameSize := by
  unfold sending
  split_ifs with none above
  · exact .inl ⟨_,rfl⟩
  · exact .inl ⟨_,rfl⟩
  · exact .inr ⟨rfl,Nat.le_of_not_lt above⟩

theorem sending_late (bytes : Bytes) : sending bytes ≠ .idle ∧ sending bytes ≠ .connecting := by
  rcases sending_cases bytes with ⟨error,fails⟩ | ⟨writes,_⟩
  · rw [fails]
    exact ⟨nofun,nofun⟩
  · rw [writes]
    exact ⟨nofun,nofun⟩

/-- The call of a message connects. -/
theorem standing_connects (v : View) (message : A2AMessage) (pipe : v.pipe = []) (arrived : v.arrived = [])
    (known : v.message = some message) :
    Standing fromSlice {v with call := sending (encodeMessage message), peer := .waiting} := by
  have nothing : split defaultMaxFrameSize v.pipe = .incomplete := pipe ▸ split_nil _
  rcases sending_cases (encodeMessage message) with ⟨error,fails⟩ | ⟨writes,fits⟩
  · rw [fails]
    exact .short ⟨nofun,nofun⟩ nofun nothing nofun (.inl rfl) arrived
  · rw [writes]
    refine .short ⟨nofun,nofun⟩ nofun nothing (fun rest writing => ?_) (.inl rfl) arrived
    obtain rfl := Call.writing.inj writing
    exact ⟨message,known,fits,by rw [pipe,List.nil_append]⟩

/-- It writes some more bytes, the last of them perhaps. -/
theorem standing_writes (v : View) (message : A2AMessage) (rest : Bytes) (count : ℕ)
    (known : v.message = some message) (fits : (encodeMessage message).length ≤ defaultMaxFrameSize)
    (joined : v.pipe ++ rest = frame (encodeMessage message))
    (peer : v.peer = .waiting ∨ v.peer = .handled .receiving) (arrived : v.arrived = []) :
    Standing fromSlice {v with
      call := if rest.length ≤ count then .done (.ok ()) else .writing (rest.drop count)
      pipe := v.pipe ++ rest.take count} := by
  have parts : (v.pipe ++ rest.take count) ++ rest.drop count = frame (encodeMessage message) := by
    rw [List.append_assoc,List.take_append_drop,joined]
  by_cases all : rest.length ≤ count
  · rw [if_pos all]
    refine .whole message rfl known fits ?_ peer arrived
    change v.pipe ++ rest.take count = _
    rw [List.take_of_length_le all,joined]
  · rw [if_neg all]
    have more : rest.drop count ≠ [] := fun none => all (List.drop_eq_nil_iff.mp none)
    have missing := split_short defaultMaxFrameSize (encodeMessage message) _ _ fits (fits_word fits) parts more
    refine .short ⟨nofun,nofun⟩ nofun missing (fun later writing => ?_) (peer.imp_right .inl) arrived
    obtain rfl := Call.writing.inj writing
    exact ⟨message,known,fits,parts⟩

theorem standing_connecting (v : View) (standing : Standing fromSlice v) (connecting : v.call = .connecting) :
    v.peer = .none ∧ v.pipe = [] ∧ v.arrived = [] := by
  cases standing with
  | early call peer pipe arrived => exact ⟨peer,pipe,arrived⟩
  | short late => exact absurd connecting late.2
  | whole message call => cases connecting.symm.trans call
  | read message call => cases connecting.symm.trans call
  | lost peer late => exact absurd connecting late.2
  | elsewhere gone peer late => exact absurd connecting late.2

theorem standing_changes (closes reaches others : Prop) (v w : View) (standing : Standing fromSlice v)
    (changes : Changes fromSlice closes reaches others v w) : Standing fromSlice w := by
  cases changes with
  | same => exact standing
  | sends message idle =>
    cases standing with
    | early call peer pipe arrived => exact .early (.inr rfl) peer pipe arrived
    | short late => exact absurd idle late.1
    | whole message call => cases idle.symm.trans call
    | read message call => cases idle.symm.trans call
    | lost peer late => exact absurd idle late.1
    | elsewhere gone peer late => exact absurd idle late.1
  | refused error connecting =>
    obtain ⟨peer,pipe,arrived⟩ := standing_connecting fromSlice v standing connecting
    exact .short ⟨nofun,nofun⟩ nofun (pipe ▸ split_nil _) nofun (.inr (.inr ⟨rfl,.inl peer⟩)) arrived
  | connects message connecting known isOpen =>
    obtain ⟨_,pipe,arrived⟩ := standing_connecting fromSlice v standing connecting
    exact standing_connects fromSlice v message pipe arrived known
  | writes rest count writing stands =>
    cases standing with
    | early call =>
      rcases call with call | call <;> cases writing.symm.trans call
    | short late fails missing bytes peer arrived =>
      obtain ⟨message,known,fits,joined⟩ := bytes rest writing
      refine standing_writes fromSlice v message rest count known fits joined ?_ arrived
      rcases peer with peer | peer | ⟨closed,_⟩
      · exact .inl peer
      · exact .inr peer
      · rw [writing] at closed
        cases closed
    | whole message call => cases writing.symm.trans call
    | read message call => cases writing.symm.trans call
    | lost peer => exact absurd peer stands
    | elsewhere gone peer late arrived =>
      refine .elsewhere gone peer ?_ arrived
      dsimp only
      split_ifs
      · exact ⟨nofun,nofun⟩
      · exact ⟨nofun,nofun⟩
  | strays message connecting known there =>
    obtain ⟨_,_,arrived⟩ := standing_connecting fromSlice v standing connecting
    exact .elsewhere false rfl (sending_late _) arrived
  | breaks rest writing broken =>
    cases standing with
    | early call peer => rcases broken with broken | broken <;> cases broken.symm.trans peer
    | short late fails missing bytes peer =>
      rcases broken with broken | broken <;>
        rcases peer with peer | peer | ⟨_,peer | peer⟩ <;> cases broken.symm.trans peer
    | whole message call => cases writing.symm.trans call
    | read message call => cases writing.symm.trans call
    | lost peer late arrived => exact .lost peer ⟨nofun,nofun⟩ arrived
    | elsewhere gone peer late arrived => exact .elsewhere gone peer ⟨nofun,nofun⟩ arrived
  | leaves active =>
    cases standing with
    | early call peer pipe arrived =>
      exact .short ⟨nofun,nofun⟩ nofun (pipe ▸ split_nil _) nofun (.inr (.inr ⟨rfl,.inl peer⟩)) arrived
    | short late fails missing bytes peer arrived =>
      refine .short ⟨nofun,nofun⟩ nofun missing nofun ?_ arrived
      exact peer.imp_right (fun peer => peer.imp_right (fun both => ⟨rfl,both.2⟩))
    | whole message call =>
      rcases active with active | ⟨rest,active⟩ <;> cases active.symm.trans call
    | read message call =>
      rcases active with active | ⟨rest,active⟩ <;> cases active.symm.trans call
    | lost peer late arrived => exact .lost peer ⟨nofun,nofun⟩ arrived
    | elsewhere gone peer late arrived => exact .elsewhere gone peer ⟨nofun,nofun⟩ arrived
  | accepted waiting =>
    cases standing with
    | early call peer => cases waiting.symm.trans peer
    | short late fails missing bytes peer arrived => exact .short late fails missing bytes (.inr (.inl rfl)) arrived
    | whole message call known fits pipe peer arrived => exact .whole message call known fits pipe (.inr rfl) arrived
    | read message call known pipe peer =>
      obtain ⟨task,handled⟩ := peer
      cases waiting.symm.trans handled
    | lost peer => cases waiting.symm.trans peer
    | elsewhere gone peer => cases waiting.symm.trans peer
  | reset waiting =>
    cases standing with
    | early call peer => cases waiting.symm.trans peer
    | short late fails missing bytes peer arrived => exact .lost rfl late arrived
    | whole message call known fits pipe peer arrived =>
      exact .lost rfl ⟨fun idle => (nomatch idle.symm.trans call),fun connecting => (nomatch connecting.symm.trans call)⟩
        arrived
    | read message call known pipe peer =>
      obtain ⟨task,handled⟩ := peer
      cases waiting.symm.trans handled
    | lost peer => cases waiting.symm.trans peer
    | elsewhere gone peer => cases waiting.symm.trans peer
  | reads payload rest receiving found =>
    cases standing with
    | early call peer => cases receiving.symm.trans peer
    | short late fails missing => cases found.symm.trans missing
    | whole message call known fits pipe peer arrived =>
      rw [pipe,split_whole message fits] at found
      obtain ⟨rfl,rfl⟩ := Split.whole.inj found
      exact .read message call known rfl ⟨_,rfl⟩ (by rw [arrived]; exact List.nil_append _)
    | read message call known pipe =>
      rw [pipe,split_nil] at found
      cases found
    | lost peer => cases receiving.symm.trans peer
    | elsewhere gone peer => cases receiving.symm.trans peer
  | ends receiving missing =>
    cases standing with
    | early call peer => cases receiving.symm.trans peer
    | short late fails short bytes peer arrived =>
      rcases missing with ⟨length,long⟩ | ⟨_,closed⟩
      · cases long.symm.trans short
      · exact .short late fails short bytes (.inr (.inr ⟨closed,.inr rfl⟩)) arrived
    | whole message call known fits pipe =>
      rw [pipe,split_whole message fits] at missing
      rcases missing with ⟨length,long⟩ | ⟨short,_⟩
      · cases long
      · cases short
    | read message call known pipe peer arrived => exact .read message call known pipe ⟨_,rfl⟩ arrived
    | lost peer => cases receiving.symm.trans peer
    | elsewhere gone peer => cases receiving.symm.trans peer
  | routes message task routing =>
    cases standing with
    | early call peer => cases routing.symm.trans peer
    | short late fails missing bytes peer =>
      rcases peer with peer | peer | ⟨_,peer | peer⟩ <;> cases routing.symm.trans peer
    | whole message call known fits pipe peer => rcases peer with peer | peer <;> cases routing.symm.trans peer
    | read message call known pipe peer arrived => exact .read message call known pipe ⟨task,rfl⟩ arrived
    | lost peer => cases routing.symm.trans peer
    | elsewhere gone peer => cases routing.symm.trans peer
  | hangsUp gone strayed =>
    cases standing with
    | early call peer => cases strayed.symm.trans peer
    | short late fails missing bytes peer =>
      rcases peer with peer | peer | ⟨_,peer | peer⟩ <;> cases strayed.symm.trans peer
    | whole message call known fits pipe peer => rcases peer with peer | peer <;> cases strayed.symm.trans peer
    | read message call known pipe peer =>
      obtain ⟨task,handled⟩ := peer
      cases strayed.symm.trans handled
    | lost peer => cases strayed.symm.trans peer
    | elsewhere gone peer late arrived => exact .elsewhere true rfl late arrived

structure Inv (s : State) : Prop where
  queued : Queued s
  standing : ∀ n, Standing fromSlice (s.view n)

theorem inv_start (router : IpcRouter) : Inv fromSlice (start router) :=
  ⟨queued_start router,fun _ => .early (.inl rfl) rfl rfl rfl⟩

theorem queued_connect (s : State) (n : ℕ) (refused : Bool) (message : A2AMessage) (queued : Queued s)
    (apart : s.peer n = .none) : Queued (s.connect n refused message) := by
  have kept (call : Call) : Queued (s.call n call) :=
    queued_same s _ queued rfl (fun _ => Iff.rfl) (.inl rfl)
  unfold State.connect
  split
  next listener _ =>
    split_ifs with refuses
    · exact kept _
    · rw [not_or,Bool.not_eq_false] at refuses
      have absent : n ∉ s.backlog := fun member => nomatch apart.symm.trans ((queued.waits n).mp member)
      constructor
      · intro k
        change k ∈ s.backlog ++ [n] ↔ Function.update s.peer n .waiting k = .waiting
        rw [List.mem_append,List.mem_singleton]
        by_cases same : k = n
        · rw [same,Function.update_self]
          exact ⟨fun _ => rfl,fun _ => .inr rfl⟩
        · rw [Function.update_of_ne same,← queued.waits k]
          exact ⟨fun member => member.resolve_right same,.inl⟩
      · exact List.nodup_append.mpr ⟨queued.distinct,List.nodup_singleton n,fun a before b here =>
          fun same => absent (List.mem_singleton.mp here ▸ same ▸ before)⟩
      · exact fun _ => ⟨listener,refuses.2⟩
  · split_ifs
    · exact kept _
    · exact queued_meet s _ n _ queued rfl rfl rfl (fun waits => nomatch apart.symm.trans waits) nofun
  · exact kept _

theorem queued_accept (s t : State) (n listener : ℕ) (later : List ℕ) (queued : Queued s)
    (before : s.backlog = n :: later) (backlog : t.backlog = later)
    (peers : t.peer = Function.update s.peer n (.handled .receiving)) (leaving : t.acceptor = .leaving listener) :
    Queued t := by
  have apart := queued.distinct
  rw [before,List.nodup_cons] at apart
  constructor
  · intro k
    rw [backlog,peers]
    by_cases same : k = n
    · rw [same,Function.update_self]
      exact ⟨fun member => absurd member apart.1,nofun⟩
    · rw [Function.update_of_ne same,← queued.waits k,before,List.mem_cons]
      exact ⟨.inr,fun member => member.resolve_left same⟩
  · exact backlog ▸ apart.2
  · refine fun _ => ⟨listener,?_⟩
    rw [State.listens,leaving]
    exact decide_eq_true (.inr rfl)

theorem queued_step (s : State) (act : Act) (inv : Inv fromSlice s) : Queued (step fromSlice s act) := by
  have queued := inv.queued
  have quiet (acceptor : Acceptor) (at_ : s.acceptor = acceptor)
      (closed : ∀ listener, acceptor ≠ .accepting listener ∧ acceptor ≠ .leaving listener) (listener : ℕ) :
      s.listens listener = false := by
    rw [State.listens,at_]
    exact decide_eq_false (by rw [not_or]; exact closed listener)
  cases act with
  | send n message =>
    simp only [step]
    split
    · exact queued_same s _ queued rfl (fun _ => Iff.rfl) (.inl rfl)
    · exact queued
  | connect n refused =>
    simp only [step]
    split
    next message connecting _ =>
      exact queued_connect s n refused message queued
        (standing_connecting fromSlice (s.view n) (inv.standing n) connecting).1
    · exact queued
  | write n count =>
    simp only [step]
    split
    · simp only [State.write]
      split <;> exact queued_same s _ queued rfl (fun _ => Iff.rfl) (.inl rfl)
    · exact queued
  | leave n =>
    simp only [step]
    split
    · exact queued_same s _ queued rfl (fun _ => Iff.rfl) (.inl rfl)
    · exact queued_same s _ queued rfl (fun _ => Iff.rfl) (.inl rfl)
    · exact queued
  | unlink removed =>
    simp only [step]
    split
    next unlinking =>
      exact queued_same s _ queued rfl (fun _ => Iff.rfl)
        (.inr (quiet .unlinking unlinking (fun _ => ⟨nofun,nofun⟩)))
    · exact queued
  | bind refused =>
    simp only [step]
    split
    next binding =>
      split_ifs <;> exact queued_same s _ queued rfl (fun _ => Iff.rfl)
        (.inr (quiet .binding binding (fun _ => ⟨nofun,nofun⟩)))
    · exact queued
  | accept =>
    simp only [step]
    split
    next listener n later _ before => exact queued_accept s _ n listener later queued before rfl rfl rfl
    · exact queued
  | acceptFails =>
    simp only [step]
    split
    · exact queued_close s .stopped queued
    · exact queued
  | drop =>
    simp only [step]
    split
    · exact queued_close s .unlinking queued
    · exact queued
  | disturb present => exact queued_same s _ queued rfl (fun _ => Iff.rfl) (.inl rfl)
  | hangUp n =>
    simp only [step]
    split
    next gone strayed =>
      exact queued_meet s _ n _ queued rfl rfl rfl (fun waits => nomatch strayed.symm.trans waits) nofun
    · exact queued
  | agents agents => exact queued_same s _ queued rfl (fun _ => Iff.rfl) (.inl rfl)
  | recv n =>
    simp only [step]
    split
    next receiving =>
      have active : s.peer n ≠ .waiting := fun waits => nomatch receiving.symm.trans waits
      simp only [State.recv]
      split
      · split
        · exact queued_meet s _ n _ queued rfl rfl rfl active nofun
        · exact queued_same s _ queued rfl (fun _ => Iff.rfl) (.inl rfl)
      · exact queued_meet s _ n _ queued rfl rfl rfl active nofun
      · split_ifs
        · exact queued_meet s _ n _ queued rfl rfl rfl active nofun
        · exact queued
    · exact queued
  | route n meanwhile =>
    simp only [step]
    split
    next message routing =>
      have active : s.peer n ≠ .waiting := fun waits => nomatch routing.symm.trans waits
      exact queued_meet s _ n _ queued rfl rfl rfl active nofun
    · exact queued

theorem inv_step (s : State) (act : Act) (inv : Inv fromSlice s) : Inv fromSlice (step fromSlice s act) :=
  ⟨queued_step fromSlice s act inv,
    fun n => standing_changes fromSlice _ _ _ _ _ (inv.standing n) (step_changes fromSlice s act n inv.queued)⟩

/-! Whole runs. -/

/-- The call has said `Ok`, and the connection is gone with its listener. -/
def Lost (s : State) (n : ℕ) : Prop := s.calls n = .done (.ok ()) ∧ s.peer n = .reset

/-- No listener is dropped that has a message whole in its backlog. -/
def Patient (s : State) (act : Act) : Prop := Closes s act → ∀ n ∈ s.backlog, s.calls n ≠ .done (.ok ())

/-- The message is whole in its connection, for the acceptor or a task to take. -/
structure Whole (s : State) (n : ℕ) (message : A2AMessage) : Prop where
  pipe : s.pipe n = frame (encodeMessage message)
  peer : n ∈ s.backlog ∨ s.peer n = .handled .receiving
  arrived : s.arrived n = []

theorem lost_arises (closes reaches others : Prop) (v w : View) (changes : Changes fromSlice closes reaches others v w)
    (call : w.call = .done (.ok ())) (peer : w.peer = .reset) :
    v.call = .done (.ok ()) ∧ (v.peer = .reset ∨ closes) := by
  cases changes with
  | same => exact ⟨call,.inl peer⟩
  | sends message => cases call
  | refused error => cases call
  | connects message => cases peer
  | writes rest count writing stands => exact absurd peer stands
  | strays message => cases peer
  | breaks rest => cases call
  | leaves => cases call
  | accepted => cases peer
  | reset waiting gone => exact ⟨call,.inr gone⟩
  | reads payload rest => cases peer
  | ends => cases peer
  | routes message task => cases peer
  | hangsUp => cases peer

theorem closes_reset (s : State) (act : Act) (n : ℕ) (closes : Closes s act) (member : n ∈ s.backlog) :
    (step fromSlice s act).peer n = .reset ∧ (step fromSlice s act).calls n = s.calls n := by
  rcases closes with ⟨rfl,listener,leaving⟩ | ⟨rfl,listener,accepting⟩
  · simp only [step,leaving]
    exact ⟨if_pos member,rfl⟩
  · simp only [step,accepting]
    exact ⟨if_pos member,rfl⟩

theorem patient_iff (s : State) (act : Act) (inv : Inv fromSlice s) (none : ∀ n, ¬Lost s n) :
    (∀ n, ¬Lost (step fromSlice s act) n) ↔ Patient s act := by
  constructor
  · intro after closes n member done
    obtain ⟨reset,same⟩ := closes_reset fromSlice s act n closes member
    exact after n ⟨same.trans done,reset⟩
  · rintro patient n ⟨done,reset⟩
    obtain ⟨before,was | ⟨closes,member⟩⟩ :=
      lost_arises fromSlice _ _ _ _ _ (step_changes fromSlice s act n inv.queued) done reset
    · exact none n ⟨before,was⟩
    · exact patient closes n member before

theorem messages_same (s : State) (act : Act) (silent : ∀ n message, act ≠ .send n message) :
    (step fromSlice s act).messages = s.messages := by
  cases act with
  | send n message => exact absurd rfl (silent n message)
  | connect n refused =>
    simp only [step]
    split
    · simp only [State.connect]
      split
      · split_ifs <;> rfl
      · split_ifs <;> rfl
      · rfl
    · rfl
  | write n count =>
    simp only [step]
    split
    · simp only [State.write]
      split <;> rfl
    · rfl
  | recv n =>
    simp only [step]
    split
    · simp only [State.recv]
      split
      · split <;> rfl
      · rfl
      · split_ifs <;> rfl
    · rfl
  | bind refused =>
    simp only [step]
    split
    · split_ifs <;> rfl
    · rfl
  | leave n =>
    simp only [step]
    split <;> rfl
  | unlink removed =>
    simp only [step]
    split <;> rfl
  | accept =>
    simp only [step]
    split <;> rfl
  | acceptFails =>
    simp only [step]
    split <;> rfl
  | drop =>
    simp only [step]
    split <;> rfl
  | route n meanwhile =>
    simp only [step]
    split <;> rfl
  | hangUp n =>
    simp only [step]
    split <;> rfl
  | disturb present => rfl
  | agents agents => rfl

/-- What a call sends is a message it was asked to send. -/
theorem sent_of_run (router : IpcRouter) (acts : List Act) (n : ℕ) (message : A2AMessage)
    (known : (run (step fromSlice) (start router) acts).messages n = some message) : .send n message ∈ acts := by
  obtain ⟨before,act,after,parts,missing,arises⟩ := run_arises (step fromSlice) (fun s => s.messages n = some message)
    (start router) acts nofun known
  have sends : act = .send n message := by
    by_contra other
    by_cases silent : ∀ k m, act ≠ .send k m
    · rw [messages_same fromSlice _ act silent] at arises
      exact missing arises
    · push Not at silent
      obtain ⟨k,m,rfl⟩ := silent
      simp only [step] at arises
      split at arises
      · by_cases same : n = k
        · rw [same] at arises
          obtain rfl := Option.some.inj ((Function.update_self k _ _).symm.trans arises)
          exact other (by rw [same])
        · exact missing ((Function.update_of_ne same _ _).symm.trans arises)
      · exact missing arises
  rw [parts,sends]
  exact List.mem_append_right _ List.mem_cons_self

/-- The call has connected to what others put at the endpoint's path. -/
def Strayed (s : State) (n : ℕ) : Prop := ∃ gone, s.peer n = .elsewhere gone

/-- Nobody else has been at the endpoint. -/
def Own (s : State) : Prop := s.node ≠ .other ∧ ∀ n, ¬Strayed s n

theorem strayed_arises (closes reaches others : Prop) (v w : View)
    (changes : Changes fromSlice closes reaches others v w) (gone : Bool) (peer : w.peer = .elsewhere gone) :
    (∃ before, v.peer = .elsewhere before) ∨ others := by
  cases changes with
  | same => exact .inl ⟨gone,peer⟩
  | sends message => exact .inl ⟨gone,peer⟩
  | refused error => exact .inl ⟨gone,peer⟩
  | connects message => cases peer
  | writes rest count => exact .inl ⟨gone,peer⟩
  | strays message connecting known there => exact .inr there
  | breaks rest => exact .inl ⟨gone,peer⟩
  | leaves => exact .inl ⟨gone,peer⟩
  | accepted => cases peer
  | reset => cases peer
  | reads payload rest => cases peer
  | ends => cases peer
  | routes message task => cases peer
  | hangsUp before strayed => exact .inl ⟨before,strayed⟩

/-- A step of a call, a task or a connection, and not of the acceptor, its backlog or the endpoint's path. -/
def Act.aside : Act → Bool
  | .send _ _ => true
  | .write _ _ => true
  | .leave _ => true
  | .hangUp _ => true
  | .agents _ => true
  | .recv _ => true
  | .route _ _ => true
  | _ => false

theorem aside_same (s : State) (act : Act) (aside : act.aside = true) :
    (step fromSlice s act).acceptor = s.acceptor ∧ (step fromSlice s act).node = s.node ∧
      (step fromSlice s act).backlog = s.backlog := by
  cases act with
  | send n message =>
    simp only [step]
    split <;> exact ⟨rfl,rfl,rfl⟩
  | write n count =>
    simp only [step]
    split
    · simp only [State.write]
      split <;> exact ⟨rfl,rfl,rfl⟩
    · exact ⟨rfl,rfl,rfl⟩
  | leave n =>
    simp only [step]
    split <;> exact ⟨rfl,rfl,rfl⟩
  | hangUp n =>
    simp only [step]
    split <;> exact ⟨rfl,rfl,rfl⟩
  | agents agents => exact ⟨rfl,rfl,rfl⟩
  | recv n =>
    simp only [step]
    split
    · simp only [State.recv]
      split
      · split <;> exact ⟨rfl,rfl,rfl⟩
      · exact ⟨rfl,rfl,rfl⟩
      · split_ifs <;> exact ⟨rfl,rfl,rfl⟩
    · exact ⟨rfl,rfl,rfl⟩
  | route n meanwhile =>
    simp only [step]
    split <;> exact ⟨rfl,rfl,rfl⟩
  | connect n refused => cases aside
  | unlink removed => cases aside
  | bind refused => cases aside
  | accept => cases aside
  | acceptFails => cases aside
  | drop => cases aside
  | disturb present => cases aside

theorem connect_node (s : State) (n : ℕ) (refused : Bool) (message : A2AMessage) :
    (s.connect n refused message).node = s.node := by
  unfold State.connect
  split
  · split_ifs <;> rfl
  · split_ifs <;> rfl
  · rfl

theorem node_step (s : State) (act : Act) (own : s.node ≠ .other) (kept : act ≠ .disturb true) :
    (step fromSlice s act).node ≠ .other := by
  have outside (aside : act.aside = true) : (step fromSlice s act).node ≠ .other := by
    rw [(aside_same fromSlice s act aside).2.1]
    exact own
  cases act with
  | send n message => exact outside rfl
  | connect n refused =>
    simp only [step]
    split
    next message _ _ =>
      rw [connect_node]
      exact own
    · exact own
  | write n count => exact outside rfl
  | leave n => exact outside rfl
  | unlink removed =>
    simp only [step]
    split
    · cases removed with
      | false => exact own
      | true => exact nofun
    · exact own
  | bind refused =>
    simp only [step]
    split
    · split_ifs
      · exact own
      · exact nofun
    · exact own
  | accept =>
    simp only [step]
    split <;> exact own
  | acceptFails =>
    simp only [step]
    split <;> exact own
  | drop =>
    simp only [step]
    split <;> exact own
  | disturb present =>
    cases present with
    | false => exact nofun
    | true => exact absurd rfl kept
  | hangUp n => exact outside rfl
  | agents agents => exact outside rfl
  | recv n => exact outside rfl
  | route n meanwhile => exact outside rfl

theorem own_step (s : State) (act : Act) (inv : Inv fromSlice s) (own : Own s) (kept : act ≠ .disturb true) :
    Own (step fromSlice s act) := by
  refine ⟨node_step fromSlice s act own.1 kept,fun n strayed => ?_⟩
  obtain ⟨gone,there⟩ := strayed
  have changes := step_changes fromSlice s act n inv.queued
  rcases strayed_arises fromSlice _ _ _ _ _ changes gone there with before | others
  · exact own.2 n before
  · exact own.1 others

theorem own_of_run (router : IpcRouter) (acts : List Act) (kept : .disturb true ∉ acts) :
    Own (run (step fromSlice) (start router) acts) := by
  have allowed : Along (step fromSlice) (fun _ act => act ≠ .disturb true) (start router) acts :=
    along_inputs (step fromSlice) (fun act => act ≠ .disturb true) (start router) acts
      (fun act member same => kept (same ▸ member))
  have both : Inv fromSlice _ ∧ Own _ :=
    run_invariant (step fromSlice) (fun _ act => act ≠ .disturb true) (fun s => Inv fromSlice s ∧ Own s)
      (fun s act now kept => ⟨inv_step fromSlice s act now.1,own_step fromSlice s act now.1 now.2 kept⟩)
      (start router) acts ⟨inv_start fromSlice router,nofun,fun _ strayed => nomatch strayed.choose_spec⟩ allowed
  exact both.2

/-- A remote `route_message` that has said `Ok` comes to one of these: its message stands whole in its
connection; or it has been read there, once, and published as it was sent unless a parameter hides its action; or it was
in the backlog of a listener that was dropped, and nobody knows; or it went to what others had put at the endpoint's
path, if they ever did. The third happens in no run exactly when no listener is dropped while a message is whole in
its backlog. -/
theorem delivered_of_run (router : IpcRouter) (acts : List Act)
    (faithful : ∀ n message, .send n message ∈ acts → fromSlice (encodeMessage message) = some message.toTree) :
    let s := run (step fromSlice) (start router) acts
    (∀ n message, s.messages n = some message → s.calls n = .done (.ok ()) →
      Whole s n message ∨ s.arrived n = (if Clashes message.payload then [] else [message]) ∧ s.pipe n = [] ∨
        Lost s n ∧ s.arrived n = [] ∨ Strayed s n ∧ s.arrived n = []) ∧
      (∀ n message, s.messages n = some message → s.arrived n = [] ∨ s.arrived n = [message]) ∧
      (∀ n, Strayed s n → .disturb true ∈ acts) ∧
      (Always (step fromSlice) (fun t => ∀ n, ¬Lost t n) (start router) acts ↔
        Along (step fromSlice) Patient (start router) acts) := by
  intro s
  have inv : Inv fromSlice s :=
    run_always (step fromSlice) (Inv fromSlice) (inv_step fromSlice) (start router) acts (inv_start fromSlice router)
  have decodes (n : ℕ) (message : A2AMessage) (known : s.messages n = some message) :
      (decodeMessage fromSlice (encodeMessage message)).toList = if Clashes message.payload then [] else [message] := by
    rw [decodeMessage,faithful n message (sent_of_run fromSlice router acts n message known),Option.bind_some,message_eq]
    split_ifs <;> rfl
  refine ⟨fun n message known done => ?_,fun n message known => ?_,fun n strayed => ?_,?_⟩
  · cases inv.standing n with
    | early call => rcases call with call | call <;> cases done.symm.trans call
    | short late fails => exact absurd done fails
    | whole other call named fits pipe peer arrived =>
      obtain rfl := Option.some.inj (named.symm.trans known)
      exact .inl ⟨pipe,peer.imp_left (inv.queued.waits n).mpr,arrived⟩
    | read other call named pipe peer arrived =>
      obtain rfl := Option.some.inj (named.symm.trans known)
      exact .inr (.inl ⟨arrived.trans (decodes n other known),pipe⟩)
    | lost peer late arrived => exact .inr (.inr (.inl ⟨⟨done,peer⟩,arrived⟩))
    | elsewhere gone peer late arrived => exact .inr (.inr (.inr ⟨⟨gone,peer⟩,arrived⟩))
  · cases inv.standing n with
    | early call peer pipe arrived => exact .inl arrived
    | short late fails missing writing peer arrived => exact .inl arrived
    | whole other call named fits pipe peer arrived => exact .inl arrived
    | read other call named pipe peer arrived =>
      obtain rfl := Option.some.inj (named.symm.trans known)
      have read := arrived.trans (decodes n other known)
      split_ifs at read
      · exact .inl read
      · exact .inr read
    | lost peer late arrived => exact .inl arrived
    | elsewhere gone peer late arrived => exact .inl arrived
  · by_contra kept
    exact (own_of_run fromSlice router acts kept).2 n strayed
  · exact always_iff_along (step fromSlice) Patient (fun t => ∀ n, ¬Lost t n) (Inv fromSlice) (fun _ => True)
      (fun t act now _ => inv_step fromSlice t act now) (fun t act now _ none => patient_iff fromSlice t act now none)
      (start router) acts (fun _ _ => trivial) (inv_start fromSlice router) (fun _ lost => Call.noConfusion lost.1)

/-! An endpoint that leads elsewhere. -/

/-- The acceptor has stopped, or waits at a listener that the endpoint's path does not lead to. -/
def Unreachable (s : State) : Prop :=
  s.acceptor = .stopped ∨
    ∃ listener, s.acceptor = .accepting listener ∧ s.node ≠ .socket listener ∧ s.backlog = []

/-- Nothing takes the endpoint from the acceptor: no bind fails or finds something at the path, no `accept` fails,
and the path stays as it is while the acceptor waits for a first connection. -/
def Undisturbed (s : State) : Act → Prop
  | .bind refused => s.acceptor = .binding → refused = false ∧ s.node = .nothing
  | .acceptFails => ∀ listener, s.acceptor ≠ .accepting listener
  | .disturb _ => s.backlog = [] → ∀ listener, s.acceptor ≠ .accepting listener
  | _ => True

theorem unreachable_same (s t : State) (acceptor : t.acceptor = s.acceptor) (node : t.node = s.node)
    (backlog : t.backlog = s.backlog) : Unreachable t ↔ Unreachable s := by
  rw [Unreachable,Unreachable,acceptor,node,backlog]

theorem unreachable_closed (s : State) (cut : Unreachable s) : ¬Reaches s := by
  rintro ⟨listener,node,isOpen⟩
  rw [State.listens,decide_eq_true_eq] at isOpen
  rcases cut with stopped | ⟨other,accepting,apart,_⟩
  · rw [stopped] at isOpen
    rcases isOpen with now | now <;> cases now
  · rw [accepting] at isOpen
    rcases isOpen with now | now
    · obtain rfl := Acceptor.accepting.inj now
      exact apart node
    · cases now

theorem connect_unreachable (s : State) (n : ℕ) (refused : Bool) (message : A2AMessage) :
    Unreachable (s.connect n refused message) ↔ Unreachable s := by
  unfold State.connect
  split
  next listener node =>
    split_ifs with refuses
    · exact unreachable_same s _ rfl rfl rfl
    · rw [not_or,Bool.not_eq_false] at refuses
      have reached : ¬Unreachable s := fun cut => unreachable_closed s cut ⟨listener,node,refuses.2⟩
      refine iff_of_false ?_ reached
      rintro (stopped | ⟨other,_,_,none⟩)
      · exact reached (.inl stopped)
      · exact absurd none (List.append_ne_nil_of_right_ne_nil _ (List.cons_ne_nil _ _))
  · split_ifs <;> exact unreachable_same s _ rfl rfl rfl
  · exact unreachable_same s _ rfl rfl rfl

theorem bind_unreachable (s : State) (refused : Bool) (binding : s.acceptor = .binding) :
    Unreachable (step fromSlice s (.bind refused)) ↔ ¬(refused = false ∧ s.node = .nothing) := by
  simp only [step,binding]
  split_ifs with fails
  · refine iff_of_true (.inl rfl) (fun fine => ?_)
    rcases fails with refuses | present
    · cases fine.1.symm.trans refuses
    · exact present fine.2
  · rw [not_or,Bool.not_eq_true,not_not] at fails
    refine iff_of_false ?_ (not_not.mpr fails)
    rintro (stopped | ⟨listener,accepting,apart,_⟩)
    · cases stopped
    · obtain rfl := Acceptor.accepting.inj accepting
      exact apart rfl

theorem undisturbed_iff (s : State) (act : Act) (reached : ¬Unreachable s) :
    ¬Unreachable (step fromSlice s act) ↔ Undisturbed s act := by
  have stays (t : State) (acceptor : t.acceptor = s.acceptor) (node : t.node = s.node)
      (backlog : t.backlog = s.backlog) : ¬Unreachable t ↔ True :=
    iff_true_intro (fun cut => reached ((unreachable_same s t acceptor node backlog).mp cut))
  have outside (aside : act.aside = true) (free : Undisturbed s act) :
      ¬Unreachable (step fromSlice s act) ↔ Undisturbed s act := by
    obtain ⟨acceptor,node,backlog⟩ := aside_same fromSlice s act aside
    exact iff_of_true (fun cut => reached ((unreachable_same s _ acceptor node backlog).mp cut)) free
  have other (t : State) (acceptor : t.acceptor ≠ .stopped) (active : ∀ listener, t.acceptor ≠ .accepting listener) :
      ¬Unreachable t :=
    fun cut => cut.elim acceptor (fun ⟨listener,accepting,_⟩ => active listener accepting)
  cases act with
  | send n message => exact outside rfl trivial
  | connect n refused =>
    simp only [step]
    split
    next message _ _ => exact iff_true_intro (fun cut => reached ((connect_unreachable s n refused message).mp cut))
    · exact stays s rfl rfl rfl
  | write n count => exact outside rfl trivial
  | leave n => exact outside rfl trivial
  | unlink removed =>
    simp only [step]
    split
    · exact iff_true_intro (other _ nofun nofun)
    · exact stays s rfl rfl rfl
  | bind refused =>
    by_cases binding : s.acceptor = .binding
    · rw [bind_unreachable fromSlice s refused binding,not_not]
      exact ⟨fun fine _ => fine,fun fine => fine binding⟩
    · refine iff_of_true ?_ (fun now => absurd now binding)
      simp only [step]
      exact reached
  | accept =>
    simp only [step]
    split
    · exact iff_true_intro (other _ nofun nofun)
    · exact stays s rfl rfl rfl
  | acceptFails =>
    simp only [step]
    split
    next listener accepting =>
      exact iff_of_false (fun none => none (.inl rfl)) (fun none => none listener accepting)
    next idle => exact iff_of_true reached idle
  | drop =>
    simp only [step]
    split
    · exact iff_true_intro (other _ nofun nofun)
    · exact stays s rfl rfl rfl
  | disturb present =>
    by_cases waits : s.backlog = [] ∧ ∃ listener, s.acceptor = .accepting listener
    · obtain ⟨none,listener,accepting⟩ := waits
      refine iff_of_false (fun there => there (.inr ⟨listener,accepting,?_,none⟩)) (fun idle => idle none listener accepting)
      simp only [step]
      cases present <;> exact nofun
    · refine iff_of_true ?_ (fun none listener accepting => waits ⟨none,listener,accepting⟩)
      rintro (stopped | ⟨listener,accepting,_,none⟩)
      · exact reached (.inl stopped)
      · exact waits ⟨none,listener,accepting⟩
  | hangUp n => exact outside rfl trivial
  | agents agents => exact outside rfl trivial
  | recv n => exact outside rfl trivial
  | route n meanwhile => exact outside rfl trivial

theorem unreachable_step (s : State) (act : Act) (cut : Unreachable s) : Unreachable (step fromSlice s act) := by
  have outside (aside : act.aside = true) : Unreachable (step fromSlice s act) := by
    obtain ⟨acceptor,node,backlog⟩ := aside_same fromSlice s act aside
    exact (unreachable_same s _ acceptor node backlog).mpr cut
  have idle (acceptor : Acceptor) (now : s.acceptor = acceptor) (going : acceptor ≠ .stopped)
      (active : ∀ listener, acceptor ≠ .accepting listener) (holds : Prop) : holds := by
    rcases cut with stopped | ⟨listener,accepting,_⟩
    · exact absurd (now.symm.trans stopped) going
    · exact absurd (now.symm.trans accepting) (active listener)
  cases act with
  | send n message => exact outside rfl
  | connect n refused =>
    simp only [step]
    split
    next message _ _ => exact (connect_unreachable s n refused message).mpr cut
    · exact cut
  | write n count => exact outside rfl
  | leave n => exact outside rfl
  | unlink removed =>
    simp only [step]
    split
    next now => exact idle .unlinking now nofun nofun _
    · exact cut
  | bind refused =>
    simp only [step]
    split
    next now => exact idle .binding now nofun nofun _
    · exact cut
  | accept =>
    simp only [step]
    split
    next listener n later accepting backlog =>
      rcases cut with stopped | ⟨_,_,_,none⟩
      · cases accepting.symm.trans stopped
      · cases none.symm.trans backlog
    · exact cut
  | acceptFails =>
    simp only [step]
    split
    · exact .inl rfl
    · exact cut
  | drop =>
    simp only [step]
    split
    next listener now => exact idle (.leaving listener) now nofun nofun _
    · exact cut
  | disturb present =>
    rcases cut with stopped | ⟨listener,accepting,_,none⟩
    · exact .inl stopped
    · refine .inr ⟨listener,accepting,?_,none⟩
      simp only [step]
      cases present <;> exact nofun
  | hangUp n => exact outside rfl
  | agents agents => exact outside rfl
  | recv n => exact outside rfl
  | route n meanwhile => exact outside rfl

/-- A message whose call has no connection and has not said `Ok`, or has one to what others put at the path. -/
inductive Away (v : View) : Prop where
  | apart (peer : v.peer = .none) (fails : v.call ≠ .done (.ok ())) (silent : ∀ rest, v.call ≠ .writing rest)
  | strayed (gone : Bool) (peer : v.peer = .elsewhere gone)

theorem away_changes (closes reaches others : Prop) (v w : View) (away : Away v) (shut : ¬reaches)
    (changes : Changes fromSlice closes reaches others v w) : Away w := by
  have neither (peer : Peer) (now : v.peer = peer) (some_ : peer ≠ .none) (here : ∀ gone, peer ≠ .elsewhere gone)
      (holds : Prop) : holds := by
    cases away with
    | apart none => exact absurd (now.symm.trans none) some_
    | strayed gone there => exact absurd (now.symm.trans there) (here gone)
  cases changes with
  | same => exact away
  | sends message idle =>
    cases away with
    | apart peer => exact .apart peer nofun nofun
    | strayed gone peer => exact .strayed gone peer
  | refused error connecting =>
    cases away with
    | apart peer => exact .apart peer nofun nofun
    | strayed gone peer => exact .strayed gone peer
  | connects message connecting known isOpen => exact absurd isOpen shut
  | writes rest count writing =>
    cases away with
    | apart peer fails silent => exact absurd writing (silent rest)
    | strayed gone peer => exact .strayed gone peer
  | strays message => exact .strayed false rfl
  | breaks rest writing =>
    cases away with
    | apart peer fails silent => exact absurd writing (silent rest)
    | strayed gone peer => exact .strayed gone peer
  | leaves =>
    cases away with
    | apart peer => exact .apart peer nofun nofun
    | strayed gone peer => exact .strayed gone peer
  | accepted waiting => exact neither _ waiting nofun nofun _
  | reset waiting => exact neither _ waiting nofun nofun _
  | reads payload rest receiving => exact neither _ receiving nofun nofun _
  | ends receiving => exact neither _ receiving nofun nofun _
  | routes message task routing => exact neither _ routing nofun nofun _
  | hangsUp => exact .strayed true rfl

theorem away_early (s : State) (n : ℕ) (inv : Inv fromSlice s) (early : s.calls n = .idle ∨ s.calls n = .connecting) :
    Away (s.view n) := by
  have fails : s.calls n ≠ .done (.ok ()) := fun done => by
    rcases early with call | call <;> cases call.symm.trans done
  have silent (rest : Bytes) (writing : s.calls n = .writing rest) : False := by
    rcases early with call | call <;> cases call.symm.trans writing
  cases inv.standing n with
  | early call peer => exact .apart peer fails silent
  | short late => exact absurd early (not_or.mpr late)
  | whole message call => exact absurd call fails
  | read message call => exact absurd call fails
  | lost peer late => exact absurd early (not_or.mpr late)
  | elsewhere gone peer late => exact absurd early (not_or.mpr late)

theorem away_arrived (v : View) (standing : Standing fromSlice v) (away : Away v) : v.arrived = [] := by
  cases standing with
  | early call peer pipe arrived => exact arrived
  | short late fails missing writing peer arrived => exact arrived
  | whole message call known fits pipe peer arrived => exact arrived
  | read message call known pipe handled =>
    obtain ⟨task,peer⟩ := handled
    cases away with
    | apart none => cases peer.symm.trans none
    | strayed gone there => cases peer.symm.trans there
  | lost peer late arrived => exact arrived
  | elsewhere gone peer late arrived => exact arrived

end Step

/-! Two messages at once, and a second router at the same endpoint. -/

def anyRouter : IpcRouter := ⟨∅,∅,[],[]⟩

/-- The second connects between the acceptor's `accept` and the end of its listener. -/
def twoAtOnce : List Act :=
  [.unlink true,.bind false,.send 0 (asking "target"),.send 1 (asking "target"),.connect 0 false,.connect 1 false,
    .write 0 1000,.write 1 1000,.accept,.drop,.recv 0]

theorem delivered_of_run_twoAtOnce :
    let s := run (step (readsOnly (asking "target"))) (start anyRouter) twoAtOnce
    (∀ n message, s.messages n = some message → s.calls n = .done (.ok ()) →
      Whole s n message ∨ s.arrived n = (if Clashes message.payload then [] else [message]) ∧ s.pipe n = [] ∨
        Lost s n ∧ s.arrived n = [] ∨ Strayed s n ∧ s.arrived n = []) ∧
      (∀ n message, s.messages n = some message → s.arrived n = [] ∨ s.arrived n = [message]) ∧
      (∀ n, Strayed s n → .disturb true ∈ twoAtOnce) ∧
      (Always (step (readsOnly (asking "target"))) (fun t => ∀ n, ¬Lost t n) (start anyRouter) twoAtOnce ↔
        Along (step (readsOnly (asking "target"))) Patient (start anyRouter) twoAtOnce) := by
  refine delivered_of_run (readsOnly (asking "target")) anyRouter twoAtOnce (fun n message member => ?_)
  simp only [twoAtOnce,List.mem_cons,List.not_mem_nil,reduceCtorEq,Act.send.injEq,false_or,or_false] at member
  rcases member with ⟨_,rfl⟩ | ⟨_,rfl⟩ <;> exact if_pos rfl

end ClawKernel.A2A.Remote
