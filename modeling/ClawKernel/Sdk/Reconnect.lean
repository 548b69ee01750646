import Mathlib.Data.List.Count
import Mathlib.Logic.Function.Basic
import ClawKernel.Lib.Runs

/-! `SyncRpc.call` with its reconnection over `SyncTransport`, in one thread. A call whose connection
fails opens another one, authenticates there by a call of its own, which may do the same, and sends its
request again. A daemon goes on reading what a connection holds when the client has left it.
-/
namespace ClawKernel.Sdk.Reconnect
open Lib.Runs

inductive Frame where
  | auth (id : ℕ) (token : String)
  | request (id : ℕ) (method : String)
  deriving DecidableEq

def Frame.id : Frame → ℕ
  | .auth id _ => id
  | .request id _ => id

/-- What a daemon sends: the response to a request, or a frame that is no response to it. -/
inductive Answer where
  | result (id : ℕ)
  | error (id : ℕ)
  | other
  deriving DecidableEq

inductive Phase where
  | sending
  | receiving
  | reconnecting
  deriving DecidableEq

/-- An activation of `call`; it stays `reconnecting` while its `authenticate` runs. -/
structure Call where
  frame : Frame
  retries : ℕ
  phase : Phase
  deriving DecidableEq

inductive Outcome where
  | returned
  | raised
  deriving DecidableEq

/-- A connection: the token of the daemon that accepted it, and whether that daemon still has it. When
a timeout has cut a frame in two, what is written after its first part is no frame to the daemon, and
what is read after it none to the client. -/
structure Link where
  token : String
  authenticated : Bool
  up : Bool
  cutOff : Bool
  misread : Bool
  deriving DecidableEq

/-- `wire` are the frames no daemon has read yet, each with its connection, and `answers` what the
connection of the client brings. Kept beside: the ids the user's calls got, a copy of the id for each time
a request went out and each time a daemon performed it, how the outermost calls ended, and their number. -/
structure State where
  links : ℕ → Link
  opened : ℕ
  sock : Option ℕ
  reqId : ℕ
  stack : List Call
  wire : List (ℕ × Frame)
  answers : List Answer
  users : List ℕ
  sent : List ℕ
  performed : List ℕ
  ended : List (ℕ × Outcome)
  calls : ℕ
  deepest : ℕ

/-- The transport has connected. -/
def start (token : String) : State where
  links := fun _ => ⟨token,false,true,false,false⟩
  opened := 1
  sock := some 0
  reqId := 1
  stack := []
  wire := []
  answers := []
  users := []
  sent := []
  performed := []
  ended := []
  calls := 0
  deepest := 0

inductive Reply where
  | result
  | error
  | nothing
  deriving DecidableEq

/-- The user calls, or takes a notification; the innermost call sends (a timeout may cut its frame), takes
a frame, waits in vain (within a frame or before one, as may `subscribe`), or cannot read the frame as a
message; it connects to a daemon with some token or to none, and reads the token file. A daemon reads a
frame, sends a notification, or is gone from a connection. -/
inductive Act where
  | call (method : String)
  | authenticate (token : String)
  | next
  | send (whole : Bool)
  | receive
  | timeout (within : Bool)
  | garbled
  | reconnect (daemon : Option String) (token : String)
  | serve (link : ℕ) (reply : Reply)
  | push
  | hangUp (link : ℕ)

def Link.cut (link : Link) : Link := {link with cutOff := true}

def Link.misreads (link : Link) (within : Bool) : Link := {link with misread := within || link.misread}

def Link.accept (link : Link) : Link := {link with authenticated := true}

def Link.drop (link : Link) : Link := {link with up := false}

def State.change (s : State) (link : ℕ) (f : Link → Link) : State :=
  {s with links := Function.update s.links link (f (s.links link))}

/-- An exception no `call` catches: it leaves the activations below too, whose `except` it comes from. -/
def State.raise (s : State) : State :=
  {s with stack := [], ended := s.ended ++ (s.stack.getLast?.map (fun c => (c.frame.id,Outcome.raised))).toList}

def State.enter (s : State) (frame : Frame) : State :=
  {s with
    stack := ⟨frame,0,.sending⟩ :: s.stack
    reqId := s.reqId + 1
    deepest := max s.deepest (s.stack.length + 1)}

/-- A call returns: to the user, or to the `except` it authenticated in, after which that call sends again. -/
def State.leave (s : State) (c : Call) : List Call → State
  | [] => {s with stack := [], ended := s.ended ++ [(c.frame.id,.returned)]}
  | below :: rest => {s with stack := {below with phase := .sending} :: rest}

/-- The frame goes out. -/
def State.write (s : State) (link : ℕ) (frame : Frame) : State :=
  if (s.links link).cutOff then s
  else
    match frame with
    | .auth _ _ => {s with wire := s.wire ++ [(link,frame)]}
    | .request id _ => {s with wire := s.wire ++ [(link,frame)], sent := s.sent ++ [id]}

def State.answer (s : State) (link : ℕ) (answer : Answer) : State :=
  if s.sock = some link then {s with answers := s.answers ++ [answer]} else s

/-- A daemon takes a frame: the gate of `handle_message`, and what is behind it. -/
def State.handle (s : State) (link : ℕ) (reply : Reply) : Frame → State
  | .auth id token =>
    if token = (s.links link).token then
      if reply = .nothing then s.change link Link.accept else (s.change link Link.accept).answer link (.result id)
    else if reply = .nothing then s else s.answer link (.error id)
  | .request id _ =>
    if (s.links link).authenticated then
      let s := {s with performed := s.performed ++ [id]}
      match reply with
      | .result => s.answer link (.result id)
      | .error => s.answer link (.error id)
      | .nothing => s
    else if reply = .nothing then s else s.answer link (.error id)

section Call
variable (autoReconnect : Bool) (maxRetries : ℕ)

/-- `except ClawConnectionError` in the innermost call. -/
def State.broken (s : State) (c : Call) (rest : List Call) : State :=
  if autoReconnect = false ∨ maxRetries ≤ c.retries then s.raise
  else {s with stack := {c with retries := c.retries + 1, phase := .reconnecting} :: rest}

/-- `_is_response_for`, and what `call` makes of the message. -/
def State.got (s : State) (c : Call) (rest : List Call) : Answer → State
  | .result id => if id = c.frame.id then s.leave c rest else s
  | .error id => if id = c.frame.id then s.raise else s
  | .other => s

/-- `send_frame`; a closed transport is an `AssertionError`. -/
def State.sendFrame (s : State) (whole : Bool) (c : Call) (rest : List Call) : State :=
  match s.sock with
  | none => s.raise
  | some link =>
    if (s.links link).up = false then s.broken autoReconnect maxRetries c rest
    else if whole then {s.write link c.frame with stack := {c with phase := .receiving} :: rest}
    else (s.change link Link.cut).broken autoReconnect maxRetries c rest

/-- `recv_frame`, as far as frames come whole. -/
def State.recvFrame (s : State) (c : Call) (rest : List Call) : State :=
  match s.sock with
  | none => s.raise
  | some link =>
    if (s.links link).misread then s
    else
      match s.answers with
      | [] => if (s.links link).up then s else s.broken autoReconnect maxRetries c rest
      | answer :: later => {s with answers := later}.got c rest answer

def State.timesOut (s : State) (within : Bool) (c : Call) (rest : List Call) : State :=
  match s.sock with
  | none => s.raise
  | some link => (s.change link (fun l => l.misreads within)).broken autoReconnect maxRetries c rest

/-- The same outside of a call, in `subscribe`, which connects to nothing anew. -/
def State.misses (s : State) (within : Bool) : State :=
  match s.sock with
  | none => s
  | some link => s.change link (fun l => l.misreads within)

/-- `reconnect` of the transport, which closes the socket first, and `authenticate`. -/
def State.reconnect (s : State) (token : String) : Option String → State
  | none => State.raise {s with sock := none}
  | some daemon =>
    State.enter {s with
      links := Function.update s.links s.opened ⟨daemon,false,true,false,false⟩
      opened := s.opened + 1
      sock := some s.opened
      answers := []} (.auth s.reqId token)

def step (s : State) : Act → State
  | .call method =>
    match s.stack with
    | [] => {s with users := s.users ++ [s.reqId], calls := s.calls + 1}.enter (.request s.reqId method)
    | _ :: _ => s
  | .authenticate token =>
    match s.stack with
    | [] => {s with calls := s.calls + 1}.enter (.auth s.reqId token)
    | _ :: _ => s
  | .next => if s.stack = [] then {s with answers := s.answers.tail} else s
  | .send whole =>
    match s.stack with
    | ⟨frame,retries,.sending⟩ :: rest => s.sendFrame autoReconnect maxRetries whole ⟨frame,retries,.sending⟩ rest
    | _ => s
  | .receive =>
    match s.stack with
    | ⟨frame,retries,.receiving⟩ :: rest => s.recvFrame autoReconnect maxRetries ⟨frame,retries,.receiving⟩ rest
    | _ => s
  | .timeout within =>
    match s.stack with
    | ⟨frame,retries,.receiving⟩ :: rest => s.timesOut autoReconnect maxRetries within ⟨frame,retries,.receiving⟩ rest
    | [] => s.misses within
    | _ => s
  | .garbled =>
    match s.stack with
    | ⟨_,_,.receiving⟩ :: _ => s.raise
    | _ => s
  | .reconnect daemon token =>
    match s.stack with
    | ⟨_,_,.reconnecting⟩ :: _ => s.reconnect token daemon
    | _ => s
  | .serve link reply =>
    if (s.links link).up then
      match s.wire.find? (fun e => e.1 = link) with
      | some e => {s with wire := s.wire.eraseP (fun e => e.1 = link)}.handle link reply e.2
      | none => s
    else s
  | .push =>
    match s.sock with
    | some link => if (s.links link).up then s.answer link .other else s
    | none => s
  | .hangUp link => {s.change link Link.drop with wire := s.wire.filter (fun e => e.1 ≠ link)}

/-! What a step does to the calls. -/

/-- The activations below one that has returned. -/
def resumed : List Call → List Call
  | [] => []
  | below :: rest => {below with phase := .sending} :: rest

structure Still (s t : State) : Prop where
  reqId : t.reqId = s.reqId
  opened : t.opened = s.opened
  calls : t.calls = s.calls
  deepest : t.deepest = s.deepest

inductive Moves (s t : State) : Prop where
  | stays (still : Still s t) (sent : t.sent = s.sent) (stack : t.stack = s.stack)
  | raises (still : Still s t) (sent : t.sent = s.sent) (stack : t.stack = [])
  | writes (c : Call) (rest : List Call) (was : s.stack = c :: rest) (phase : c.phase = .sending) (still : Still s t)
      (sent : t.sent = s.sent ∨ t.sent = s.sent ++ [c.frame.id])
      (stack : t.stack = {c with phase := .receiving} :: rest)
  | breaks (c : Call) (rest : List Call) (was : s.stack = c :: rest) (auto : autoReconnect = true)
      (less : c.retries < maxRetries) (still : Still s t) (sent : t.sent = s.sent) (phase : c.phase ≠ .reconnecting)
      (stack : t.stack = {c with retries := c.retries + 1, phase := .reconnecting} :: rest)
  | returns (c : Call) (rest : List Call) (was : s.stack = c :: rest) (still : Still s t) (sent : t.sent = s.sent)
      (stack : t.stack = resumed rest)
  | begins (frame : Frame) (idle : s.stack = []) (named : frame.id = s.reqId) (sent : t.sent = s.sent)
      (stack : t.stack = [⟨frame,0,.sending⟩]) (reqId : t.reqId = s.reqId + 1) (opened : t.opened = s.opened)
      (calls : t.calls = s.calls + 1) (deepest : t.deepest = max s.deepest 1)
  | reopens (frame : Frame) (c : Call) (rest : List Call) (was : s.stack = c :: rest) (phase : c.phase = .reconnecting)
      (named : frame.id = s.reqId) (sent : t.sent = s.sent) (stack : t.stack = ⟨frame,0,.sending⟩ :: s.stack)
      (reqId : t.reqId = s.reqId + 1) (opened : t.opened = s.opened + 1) (calls : t.calls = s.calls)
      (deepest : t.deepest = max s.deepest (s.stack.length + 1))

theorem still_refl (s : State) : Still s s := ⟨rfl,rfl,rfl,rfl⟩

theorem answer_still (s t : State) (link : ℕ) (answer : Answer) (still : Still s t) (sent : t.sent = s.sent)
    (stack : t.stack = s.stack) :
    Still s (t.answer link answer) ∧ (t.answer link answer).sent = s.sent ∧
      (t.answer link answer).stack = s.stack := by
  rw [State.answer]
  split_ifs <;> exact ⟨⟨still.reqId,still.opened,still.calls,still.deepest⟩,sent,stack⟩

/-- What a daemon does leaves the calls alone. -/
theorem handle_still (s : State) (link : ℕ) (reply : Reply) (frame : Frame) :
    Still s (s.handle link reply frame) ∧ (s.handle link reply frame).sent = s.sent ∧
      (s.handle link reply frame).stack = s.stack := by
  cases frame with
  | auth id token =>
    simp only [State.handle]
    split_ifs
    · exact ⟨⟨rfl,rfl,rfl,rfl⟩,rfl,rfl⟩
    · exact answer_still s _ link _ ⟨rfl,rfl,rfl,rfl⟩ rfl rfl
    · exact ⟨still_refl s,rfl,rfl⟩
    · exact answer_still s _ link _ (still_refl s) rfl rfl
  | request id method =>
    simp only [State.handle]
    split_ifs
    · cases reply with
      | result => exact answer_still s _ link _ ⟨rfl,rfl,rfl,rfl⟩ rfl rfl
      | error => exact answer_still s _ link _ ⟨rfl,rfl,rfl,rfl⟩ rfl rfl
      | nothing => exact ⟨⟨rfl,rfl,rfl,rfl⟩,rfl,rfl⟩
    · exact ⟨still_refl s,rfl,rfl⟩
    · exact answer_still s _ link _ (still_refl s) rfl rfl

theorem write_still (s : State) (link : ℕ) (frame : Frame) :
    Still s (s.write link frame) ∧ (s.write link frame).stack = s.stack ∧
      ((s.write link frame).sent = s.sent ∨ (s.write link frame).sent = s.sent ++ [frame.id]) := by
  cases frame with
  | auth id token =>
    simp only [State.write]
    split_ifs
    · exact ⟨still_refl s,rfl,.inl rfl⟩
    · exact ⟨⟨rfl,rfl,rfl,rfl⟩,rfl,.inl rfl⟩
  | request id method =>
    simp only [State.write]
    split_ifs
    · exact ⟨still_refl s,rfl,.inl rfl⟩
    · exact ⟨⟨rfl,rfl,rfl,rfl⟩,rfl,.inr rfl⟩

/-- The `except` of the innermost call, in a state that differs from `s` in its connection only. -/
theorem broken_moves (s t : State) (c : Call) (rest : List Call) (was : s.stack = c :: rest)
    (phase : c.phase ≠ .reconnecting) (still : Still s t) (sent : t.sent = s.sent) :
    Moves autoReconnect maxRetries s (t.broken autoReconnect maxRetries c rest) := by
  rw [State.broken]
  split_ifs with last
  · exact .raises ⟨still.reqId,still.opened,still.calls,still.deepest⟩ sent rfl
  · rw [not_or,Bool.not_eq_false,Nat.not_le] at last
    exact .breaks c rest was last.1 last.2 ⟨still.reqId,still.opened,still.calls,still.deepest⟩ sent phase rfl

theorem raise_moves (s t : State) (still : Still s t) (sent : t.sent = s.sent) :
    Moves autoReconnect maxRetries s t.raise :=
  .raises ⟨still.reqId,still.opened,still.calls,still.deepest⟩ sent rfl

theorem leave_moves (s t : State) (c : Call) (rest : List Call) (was : s.stack = c :: rest) (still : Still s t)
    (sent : t.sent = s.sent) : Moves autoReconnect maxRetries s (t.leave c rest) := by
  cases rest with
  | nil => exact .returns c [] was ⟨still.reqId,still.opened,still.calls,still.deepest⟩ sent rfl
  | cons below rest =>
    exact .returns c (below :: rest) was ⟨still.reqId,still.opened,still.calls,still.deepest⟩ sent rfl

theorem got_moves (s t : State) (c : Call) (rest : List Call) (answer : Answer) (was : s.stack = c :: rest)
    (still : Still s t) (sent : t.sent = s.sent) (stack : t.stack = s.stack) :
    Moves autoReconnect maxRetries s (t.got c rest answer) := by
  cases answer with
  | result id =>
    simp only [State.got]
    split_ifs
    · exact leave_moves autoReconnect maxRetries s t c rest was still sent
    · exact .stays still sent stack
  | error id =>
    simp only [State.got]
    split_ifs
    · exact raise_moves autoReconnect maxRetries s t still sent
    · exact .stays still sent stack
  | other => exact .stays still sent stack

theorem step_moves (s : State) (act : Act) :
    Moves autoReconnect maxRetries s (step autoReconnect maxRetries s act) := by
  have stays : Moves autoReconnect maxRetries s s := .stays (still_refl s) rfl rfl
  cases act with
  | call method =>
    simp only [step]
    split
    next idle =>
      refine .begins (.request s.reqId method) idle rfl rfl ?_ rfl rfl rfl ?_ <;> simp only [State.enter,idle]
      rfl
    · exact stays
  | authenticate token =>
    simp only [step]
    split
    next idle =>
      refine .begins (.auth s.reqId token) idle rfl rfl ?_ rfl rfl rfl ?_ <;> simp only [State.enter,idle]
      rfl
    · exact stays
  | next =>
    simp only [step]
    split_ifs
    · exact .stays ⟨rfl,rfl,rfl,rfl⟩ rfl rfl
    · exact stays
  | send whole =>
    simp only [step]
    split
    next frame retries rest was =>
      simp only [State.sendFrame]
      split
      · exact raise_moves autoReconnect maxRetries s s (still_refl s) rfl
      next link _ =>
        split_ifs with down
        · exact broken_moves autoReconnect maxRetries s s _ rest was nofun (still_refl s) rfl
        · obtain ⟨still,_,sent⟩ := write_still s link frame
          exact .writes ⟨frame,retries,.sending⟩ rest was rfl ⟨still.reqId,still.opened,still.calls,still.deepest⟩
            sent rfl
        · exact broken_moves autoReconnect maxRetries s _ _ rest was nofun ⟨rfl,rfl,rfl,rfl⟩ rfl
    · exact stays
  | receive =>
    simp only [step]
    split
    next frame retries rest was =>
      simp only [State.recvFrame]
      split
      · exact raise_moves autoReconnect maxRetries s s (still_refl s) rfl
      next link _ =>
        split
        · exact stays
        · split
          · split_ifs
            · exact stays
            · exact broken_moves autoReconnect maxRetries s s _ rest was nofun (still_refl s) rfl
          next answer later _ =>
            exact got_moves autoReconnect maxRetries s _ _ rest answer was ⟨rfl,rfl,rfl,rfl⟩ rfl rfl
    · exact stays
  | timeout within =>
    simp only [step]
    split
    next frame retries rest was =>
      simp only [State.timesOut]
      split
      · exact raise_moves autoReconnect maxRetries s s (still_refl s) rfl
      · exact broken_moves autoReconnect maxRetries s _ _ rest was nofun ⟨rfl,rfl,rfl,rfl⟩ rfl
    · rw [State.misses]
      split
      · exact stays
      · exact .stays ⟨rfl,rfl,rfl,rfl⟩ rfl rfl
    · exact stays
  | garbled =>
    simp only [step]
    split
    · exact raise_moves autoReconnect maxRetries s s (still_refl s) rfl
    · exact stays
  | reconnect daemon token =>
    simp only [step]
    split
    next frame retries rest was =>
      cases daemon with
      | none => exact raise_moves autoReconnect maxRetries s _ ⟨rfl,rfl,rfl,rfl⟩ rfl
      | some daemon => exact .reopens (.auth s.reqId token) _ rest was rfl rfl rfl rfl rfl rfl rfl rfl
    · exact stays
  | serve link reply =>
    simp only [step]
    split_ifs with up
    · split
      next e _ =>
        obtain ⟨still,sent,stack⟩ := handle_still {s with wire := s.wire.eraseP (fun e => e.1 = link)} link reply e.2
        exact .stays ⟨still.reqId,still.opened,still.calls,still.deepest⟩ sent stack
      · exact stays
    · exact stays
  | push =>
    simp only [step]
    split
    next link _ =>
      split_ifs
      · obtain ⟨still,sent,stack⟩ := answer_still s s link .other (still_refl s) rfl rfl
        exact .stays still sent stack
      · exact stays
    · exact stays
  | hangUp link => exact .stays ⟨rfl,rfl,rfl,rfl⟩ rfl rfl

/-! How often a request goes out. -/

/-- A call has sent its request once for each retry, and once more where it waits for the response. -/
structure Bounded (s : State) : Prop where
  retries : ∀ c ∈ s.stack, c.retries ≤ maxRetries
  copies : ∀ c ∈ s.stack, s.sent.count c.frame.id ≤ c.retries + if c.phase = .receiving then 1 else 0
  most : ∀ id, s.sent.count id ≤ maxRetries + 1
  fresh : ∀ id ∈ s.sent, id < s.reqId
  known : ∀ c ∈ s.stack, c.frame.id < s.reqId
  distinct : (s.stack.map (fun c => c.frame.id)).Nodup
  waits : ∀ c ∈ s.stack.tail, c.phase = .reconnecting

theorem bounded_start (daemon : String) : Bounded maxRetries (start daemon) where
  retries := nofun
  copies := nofun
  most _ := Nat.zero_le _
  fresh := nofun
  known := nofun
  distinct := List.nodup_nil
  waits := nofun

/-- An activation begins, above those that wait for it. -/
theorem bounded_enter (s t : State) (frame : Frame) (bounded : Bounded maxRetries s)
    (waits : ∀ c ∈ s.stack, c.phase = .reconnecting) (named : frame.id = s.reqId) (sent : t.sent = s.sent)
    (stack : t.stack = ⟨frame,0,.sending⟩ :: s.stack) (reqId : t.reqId = s.reqId + 1) : Bounded maxRetries t where
  retries c member := by
    rw [stack,List.mem_cons] at member
    rcases member with rfl | member
    · exact Nat.zero_le _
    · exact bounded.retries c member
  copies c member := by
    rw [sent]
    rw [stack,List.mem_cons] at member
    rcases member with rfl | member
    · have unused : s.reqId ∉ s.sent := fun used => absurd (bounded.fresh _ used) (Nat.lt_irrefl _)
      change s.sent.count frame.id ≤ _
      rw [named,List.count_eq_zero_of_not_mem unused]
      exact Nat.zero_le _
    · exact bounded.copies c member
  most id := sent ▸ bounded.most id
  fresh id member := by
    rw [reqId]
    exact Nat.lt_succ_of_lt (bounded.fresh id (sent ▸ member))
  known c member := by
    rw [reqId]
    rw [stack,List.mem_cons] at member
    rcases member with rfl | member
    · exact named ▸ Nat.lt_succ_self _
    · exact Nat.lt_succ_of_lt (bounded.known c member)
  distinct := by
    rw [stack,List.map_cons,List.nodup_cons]
    refine ⟨fun member => ?_,bounded.distinct⟩
    obtain ⟨c,there,same⟩ := List.mem_map.mp member
    have less := bounded.known c there
    rw [same] at less
    exact absurd (named ▸ less) (Nat.lt_irrefl _)
  waits c member := waits c (by rwa [stack] at member)

/-- The innermost activation goes on, having sent its request at most once more. -/
theorem bounded_top (s t : State) (c d : Call) (rest : List Call) (bounded : Bounded maxRetries s)
    (was : s.stack = c :: rest) (stack : t.stack = d :: rest) (frame : d.frame = c.frame)
    (retries : d.retries ≤ maxRetries) (reqId : t.reqId = s.reqId)
    (sent : t.sent = s.sent ∨ t.sent = s.sent ++ [c.frame.id])
    (copies : t.sent.count c.frame.id ≤ d.retries + if d.phase = .receiving then 1 else 0) :
    Bounded maxRetries t := by
  have here : c ∈ s.stack := was ▸ List.mem_cons_self
  have later (b : Call) (member : b ∈ rest) : b ∈ s.stack := was ▸ List.mem_cons_of_mem c member
  have apart := bounded.distinct
  rw [was,List.map_cons,List.nodup_cons] at apart
  have other (id : ℕ) (differs : id ≠ c.frame.id) : t.sent.count id = s.sent.count id := by
    rcases sent with sent | sent
    · rw [sent]
    · rw [sent,List.count_append,List.count_singleton,if_neg (by simpa using differs.symm),Nat.add_zero]
  constructor
  · intro b member
    rw [stack,List.mem_cons] at member
    rcases member with rfl | member
    · exact retries
    · exact bounded.retries b (later b member)
  · intro b member
    rw [stack,List.mem_cons] at member
    rcases member with rfl | member
    · rw [frame]
      exact copies
    · have differs : b.frame.id ≠ c.frame.id := fun same => apart.1 (List.mem_map.mpr ⟨b,member,same⟩)
      rw [other _ differs]
      exact bounded.copies b (later b member)
  · intro id
    by_cases same : id = c.frame.id
    · rw [same]
      split_ifs at copies <;> omega
    · rw [other id same]
      exact bounded.most id
  · intro id member
    rw [reqId]
    rcases sent with sent | sent
    · exact bounded.fresh id (sent ▸ member)
    · rw [sent,List.mem_append,List.mem_singleton] at member
      rcases member with member | rfl
      · exact bounded.fresh id member
      · exact bounded.known c here
  · intro b member
    rw [reqId]
    rw [stack,List.mem_cons] at member
    rcases member with rfl | member
    · rw [frame]
      exact bounded.known c here
    · exact bounded.known b (later b member)
  · rw [stack,List.map_cons,List.nodup_cons,frame]
    exact apart
  · intro b member
    exact bounded.waits b (by rw [was]; rwa [stack] at member)

/-- What lies below the innermost activation, of which the first may go on. -/
theorem bounded_below (s t : State) (c : Call) (rest : List Call) (bounded : Bounded maxRetries s)
    (was : s.stack = c :: rest) (reqId : t.reqId = s.reqId) (sent : t.sent = s.sent)
    (stack : t.stack = resumed rest) : Bounded maxRetries t := by
  have apart := bounded.distinct
  rw [was,List.map_cons,List.nodup_cons] at apart
  cases rest with
  | nil =>
    exact ⟨stack ▸ nofun,stack ▸ nofun,sent ▸ bounded.most,by rw [sent,reqId]; exact bounded.fresh,stack ▸ nofun,
      stack ▸ List.nodup_nil,stack ▸ nofun⟩
  | cons below rest =>
    have lower : Bounded maxRetries {s with stack := below :: rest} :=
      ⟨fun b member => bounded.retries b (was ▸ List.mem_cons_of_mem c member),
        fun b member => bounded.copies b (was ▸ List.mem_cons_of_mem c member),bounded.most,bounded.fresh,
        fun b member => bounded.known b (was ▸ List.mem_cons_of_mem c member),apart.2,
        fun b member => bounded.waits b (by rw [was]; exact List.mem_cons_of_mem below member)⟩
    have waited : below.phase = .reconnecting := bounded.waits below (by rw [was]; exact List.mem_cons_self)
    refine bounded_top maxRetries _ t below _ rest lower rfl stack rfl (lower.retries below List.mem_cons_self) reqId
      (.inl sent) ?_
    have copies := lower.copies below List.mem_cons_self
    rw [waited,if_neg nofun] at copies
    rw [sent,if_neg nofun]
    exact copies

theorem bounded_moves (s t : State) (bounded : Bounded maxRetries s) (moves : Moves autoReconnect maxRetries s t) :
    Bounded maxRetries t := by
  cases moves with
  | stays still sent stack =>
    exact ⟨stack ▸ bounded.retries,by rw [stack,sent]; exact bounded.copies,sent ▸ bounded.most,
      by rw [sent,still.reqId]; exact bounded.fresh,by rw [stack,still.reqId]; exact bounded.known,
      stack ▸ bounded.distinct,stack ▸ bounded.waits⟩
  | raises still sent stack =>
    exact ⟨stack ▸ nofun,stack ▸ nofun,sent ▸ bounded.most,by rw [sent,still.reqId]; exact bounded.fresh,
      stack ▸ nofun,stack ▸ List.nodup_nil,stack ▸ nofun⟩
  | writes c rest was phase still sent stack =>
    have copies := bounded.copies c (was ▸ List.mem_cons_self)
    rw [phase,if_neg nofun] at copies
    refine bounded_top maxRetries s t c _ rest bounded was stack rfl (bounded.retries c (was ▸ List.mem_cons_self))
      still.reqId sent ?_
    rw [if_pos rfl]
    rcases sent with sent | sent
    · rw [sent]
      exact Nat.le_succ_of_le copies
    · rw [sent,List.count_append,List.count_singleton_self]
      exact Nat.succ_le_succ copies
  | breaks c rest was auto less still sent phase stack =>
    have copies := bounded.copies c (was ▸ List.mem_cons_self)
    refine bounded_top maxRetries s t c _ rest bounded was stack rfl less still.reqId (.inl sent) ?_
    rw [sent,if_neg nofun]
    have once : s.sent.count c.frame.id ≤ c.retries + 1 := by split_ifs at copies <;> omega
    exact once
  | returns c rest was still sent stack => exact bounded_below maxRetries s t c rest bounded was still.reqId sent stack
  | begins frame idle named sent stack reqId =>
    refine bounded_enter maxRetries s t frame bounded ?_ named sent (idle ▸ stack) reqId
    rw [idle]
    exact nofun
  | reopens frame c rest was phase named sent stack reqId =>
    refine bounded_enter maxRetries s t frame bounded ?_ named sent stack reqId
    intro b member
    rw [was,List.mem_cons] at member
    rcases member with rfl | member
    · exact phase
    · exact bounded.waits b (by rwa [was])

theorem bounded_step (s : State) (act : Act) (bounded : Bounded maxRetries s) :
    Bounded maxRetries (step autoReconnect maxRetries s act) :=
  bounded_moves autoReconnect maxRetries s _ bounded (step_moves autoReconnect maxRetries s act)

end Call

end ClawKernel.Sdk.Reconnect
