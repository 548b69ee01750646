import ClawKernel.Lib.LengthPrefix
import ClawKernel.Server.Params
import ClawKernel.Server.Protocol

/-! `handle_message`: one frame of the client, the dispatch on its method, and the
response. The handlers that only compute a result are parameters; `session.close`
and `channel.send` are the ones that `handle_message` and the connection's own
queue decide.
-/
namespace ClawKernel.Server.Dispatch
open Lib.Json Lib.LengthPrefix Lib.Schema Server.Connection Server.Params Server.Protocol

/-- Another connection, for one that sends to its queue: its loop goes on draining the
queue, it is gone, or its loop itself waits for ever and the queue is full. -/
inductive Peer where
  | draining
  | gone
  | stuck
  deriving DecidableEq, Repr

/-- Where a channel sends its outbound frames: nowhere, to this connection's queue,
or to the queue of another connection. -/
inductive Outbound where
  | absent
  | own
  | elsewhere (peer : Peer)
  deriving DecidableEq, Repr

/-- What the connection and the shared registries hold. `queued` counts the
notifications that wait in this connection's queue. -/
structure KernelState where
  authenticated : Bool
  authToken : String
  sessions : List String
  channels : List (String × Outbound)
  queued : Nat
  deriving DecidableEq, Repr

structure Services where
  fromSlice : Bytes → Except String Request
  decodeError : Fields → Value → String
  now : Nat
  handle : KernelState → String → Option Value → Except ServerError Value × KernelState

inductive Finish where
  | returned (result : Except ServerError Unit)
  | blocked

structure Outcome where
  state : KernelState
  written : List Response
  finish : Finish

/-- What the dispatch gives: a result to respond with, an error that leaves
`handle_message`, or a send that never completes. -/
inductive Dispatched where
  | result (value : Except ServerError Value) (state : KernelState)
  | left (error : ServerError)
  | blocked

def closeSession (state : KernelState) (params : Value) : Dispatched :=
  let id := textOf "session_id" destroySessionParams params
  if id ∈ state.sessions then
    .result (.ok (.object [("closed",.bool true),("session_id",.string id)]))
      {state with sessions := state.sessions.erase id}
  else .result (.error (.sessionNotFound id)) state

/-- `tx.send(frame).await` waits for room in the queue. The queue of this connection
is drained by the loop that awaits `handle_message`. -/
def handleChannelSend (state : KernelState) (params : Value) : Dispatched :=
  let id := textOf "channel_id" channelSendParams params
  let sent : Value := .object [("channel_id",.string id),("ok",.bool true)]
  match state.channels.lookup id with
  | none => .result (.error (.serialization ("channel '" ++ id ++ "' not found"))) state
  | some .absent => .result (.error (.serialization ("channel '" ++ id ++ "' has no outbound sender"))) state
  | some (.elsewhere .gone) =>
    .result (.error (.serialization ("channel '" ++ id ++ "' outbound sender closed"))) state
  | some (.elsewhere .draining) => .result (.ok sent) state
  | some (.elsewhere .stuck) => .blocked
  | some .own =>
    if state.queued < notifyCapacity then .result (.ok sent) {state with queued := state.queued + 1}
    else .blocked

def dispatch (services : Services) (state : KernelState) (request : Request) : Dispatched :=
  match armOf request.method with
  | none => .result (.error (.serialization ("Method not found: " ++ request.method))) state
  | some .direct =>
    if request.method = "kernel.ping" then
      .result (.ok (.object [("pong",.bool true),("ts",.integer services.now)])) state
    else
      let (value,state) :=
        if request.method = "session.create" then
          services.handle state "createSession" (request.params.map (fun config => .object [("config",config)]))
        else services.handle state request.method request.params
      .result value state
  | some (.parsed fields) =>
    let params := request.params.getD .null
    if (Kind.record fields).accepts params then
      if request.method = "session.close" then closeSession state params
      else if request.method = "channel.send" then handleChannelSend state params
      else
        let (value,state) := services.handle state request.method (some params)
        .result value state
    else if request.method = "session.close" then
      .left (.serialization ("Invalid params: " ++ services.decodeError fields params))
    else .left (.serialization ("invalid params: " ++ services.decodeError fields params))

def respond (id : Option RequestId) (result : Except ServerError Value) : List Response :=
  match id with
  | none => []
  | some id =>
    match result with
    | .ok value => [.success value (some id)]
    | .error error => [.failure error.errorCode error.display none (some id)]

def tokenOf (params : Option Value) : String :=
  match params with
  | some (.object members) =>
    match members.lookup "token" with
    | some (.string token) => token
    | _ => ""
  | _ => ""

def handleMessage (services : Services) (state : KernelState) (data : Bytes) : Outcome :=
  match services.fromSlice data with
  | .error message =>
    ⟨state,[.failure parseErrorCode ("Parse error: " ++ message) none none],.returned (.ok ())⟩
  | .ok request =>
    if request.method = "kernel.auth" then
      if tokenOf request.params = state.authToken then
        ⟨{state with authenticated := true},respond request.id (.ok (.object [("ok",.bool true)])),.returned (.ok ())⟩
      else
        ⟨state,respond request.id (.error (.serialization "kernel.auth: invalid token")),.returned (.ok ())⟩
    else if state.authenticated = false then
      ⟨state,respond request.id (.error (.serialization "not authenticated: send kernel.auth first")),
        .returned (.ok ())⟩
    else
      match dispatch services state request with
      | .result value state => ⟨state,respond request.id value,.returned (.ok ())⟩
      | .left error => ⟨state,[],.returned (.error error)⟩
      | .blocked => ⟨state,[],.blocked⟩

/-- The method decodes its parameters in `handle_message`, and they do not decode. -/
def LeavesEarly (state : KernelState) (request : Request) : Prop :=
  request.method ≠ "kernel.auth" ∧ state.authenticated = true ∧
    ∃ fields, armOf request.method = some (.parsed fields) ∧
      (Kind.record fields).accepts (request.params.getD .null) = false

/-- The queue behind a channel is full for good: this connection's own, which is not
drained meanwhile, or that of a connection that is stuck. -/
def FullForGood (state : KernelState) (channelId : String) : Prop :=
  (state.channels.lookup channelId = some .own ∧ notifyCapacity ≤ state.queued) ∨
    state.channels.lookup channelId = some (.elsewhere .stuck)

def SendsToFullQueue (state : KernelState) (request : Request) : Prop :=
  request.method = "channel.send" ∧ state.authenticated = true ∧
    (Kind.record channelSendParams).accepts (request.params.getD .null) = true ∧
    FullForGood state (textOf "channel_id" channelSendParams (request.params.getD .null))

theorem respond_some (id : RequestId) (result : Except ServerError Value) :
    ∃ response, respond (some id) result = [response] ∧ response.id = some id := by
  cases result with
  | ok value => exact ⟨_,rfl,rfl⟩
  | error error => exact ⟨_,rfl,rfl⟩

theorem closeSession_result (state : KernelState) (params : Value) :
    ∃ value next, closeSession state params = .result value next := by
  unfold closeSession
  dsimp only
  split <;> exact ⟨_,_,rfl⟩

theorem handleChannelSend_blocked (state : KernelState) (params : Value) :
    (FullForGood state (textOf "channel_id" channelSendParams params) ∧ handleChannelSend state params = .blocked) ∨
    (¬FullForGood state (textOf "channel_id" channelSendParams params) ∧
      ∃ value next, handleChannelSend state params = .result value next) := by
  unfold handleChannelSend FullForGood
  dsimp only
  cases found : state.channels.lookup (textOf "channel_id" channelSendParams params) with
  | none => exact .inr ⟨by simp,_,_,rfl⟩
  | some outbound =>
    cases outbound with
    | absent => exact .inr ⟨by simp,_,_,rfl⟩
    | elsewhere peer =>
      cases peer with
      | draining => exact .inr ⟨by simp,_,_,rfl⟩
      | gone => exact .inr ⟨by simp,_,_,rfl⟩
      | stuck => exact .inl ⟨.inr rfl,rfl⟩
    | own =>
      by_cases room : state.queued < notifyCapacity
      · exact .inr ⟨by simpa using room,_,_,if_pos room⟩
      · exact .inl ⟨.inl ⟨rfl,not_lt.mp room⟩,if_neg room⟩

theorem armOf_channelSend : armOf "channel.send" = some (.parsed channelSendParams) := rfl

theorem dispatch_cases (services : Services) (state : KernelState) (request : Request)
    (method : request.method ≠ "kernel.auth") (authenticated : state.authenticated = true) :
    (LeavesEarly state request ∧ ∃ error, dispatch services state request = .left error) ∨
    (SendsToFullQueue state request ∧ dispatch services state request = .blocked) ∨
    (¬LeavesEarly state request ∧ ¬SendsToFullQueue state request ∧
      ∃ value next, dispatch services state request = .result value next) := by
  have quiet : ∀ arm, armOf request.method = some arm → (∀ fields, arm ≠ .parsed fields) →
      ¬LeavesEarly state request ∧ ¬SendsToFullQueue state request := by
    intro arm found other
    refine ⟨?_,?_⟩
    · rintro ⟨-,-,fields,parsed,-⟩
      exact other fields (Option.some.inj (found.symm.trans parsed))
    · rintro ⟨sends,-⟩
      rw [sends,armOf_channelSend] at found
      exact other _ (Option.some.inj found).symm
  unfold dispatch
  cases arm : armOf request.method with
  | none =>
    refine .inr (.inr ⟨?_,?_,_,_,rfl⟩)
    · rintro ⟨-,-,fields,parsed,-⟩
      simp [arm] at parsed
    · rintro ⟨sends,-⟩
      simp [sends,armOf_channelSend] at arm
  | some kind =>
    cases kind with
    | direct =>
      obtain ⟨stays,sends⟩ := quiet _ arm (by simp)
      refine .inr (.inr ⟨stays,sends,?_⟩)
      dsimp only
      split <;> exact ⟨_,_,rfl⟩
    | parsed fields =>
      dsimp only
      by_cases accepted : (Kind.record fields).accepts (request.params.getD .null) = true
      · have stays : ¬LeavesEarly state request := by
          rintro ⟨-,-,other,parsed,refused⟩
          rw [arm] at parsed
          cases parsed
          rw [accepted] at refused
          cases refused
        rw [if_pos accepted]
        by_cases close : request.method = "session.close"
        · rw [if_pos close]
          refine .inr (.inr ⟨stays,?_,closeSession_result state _⟩)
          rintro ⟨sends,-⟩
          simp [sends] at close
        · rw [if_neg close]
          by_cases send : request.method = "channel.send"
          · rw [if_pos send]
            rw [send,armOf_channelSend] at arm
            cases arm
            rcases handleChannelSend_blocked state (request.params.getD .null) with ⟨full,blocked⟩ | ⟨room,result⟩
            · exact .inr (.inl ⟨⟨send,authenticated,accepted,full⟩,blocked⟩)
            · exact .inr (.inr ⟨stays,fun full => room full.2.2.2,result⟩)
          · rw [if_neg send]
            exact .inr (.inr ⟨stays,fun full => send full.1,_,_,rfl⟩)
      · rw [if_neg accepted]
        refine .inl ⟨⟨method,authenticated,fields,arm,by simpa using accepted⟩,?_⟩
        split <;> exact ⟨_,rfl⟩

theorem handleMessage_cases (services : Services) (state : KernelState) (data : Bytes) (request : Request)
    (parsed : services.fromSlice data = .ok request) :
    (∃ value next finish, handleMessage services state data = ⟨next,respond request.id value,finish⟩ ∧
      ¬LeavesEarly state request ∧ ¬SendsToFullQueue state request) ∨
    (∃ finish, handleMessage services state data = ⟨state,[],finish⟩ ∧
      ¬(¬LeavesEarly state request ∧ ¬SendsToFullQueue state request)) := by
  unfold handleMessage
  rw [parsed]
  dsimp only
  by_cases auth : request.method = "kernel.auth"
  · have stays : ¬LeavesEarly state request ∧ ¬SendsToFullQueue state request :=
      ⟨fun early => early.1 auth,fun sends => absurd (auth.symm.trans sends.1) (by decide)⟩
    rw [if_pos auth]
    split <;> exact .inl ⟨_,_,_,rfl,stays⟩
  · rw [if_neg auth]
    by_cases out : state.authenticated = false
    · have stays : ¬LeavesEarly state request ∧ ¬SendsToFullQueue state request :=
        ⟨fun early => absurd (out.symm.trans early.2.1) (by decide),
          fun sends => absurd (out.symm.trans sends.2.1) (by decide)⟩
      rw [if_pos out]
      exact .inl ⟨_,_,_,rfl,stays⟩
    · rw [if_neg out]
      rcases dispatch_cases services state request auth (by simpa using out) with
        ⟨early,error,left⟩ | ⟨sends,blocked⟩ | ⟨stays,free,value,next,result⟩
      · rw [left]
        exact .inr ⟨_,rfl,fun holds => holds.1 early⟩
      · rw [blocked]
        exact .inr ⟨_,rfl,fun holds => holds.2 sends⟩
      · rw [result]
        exact .inl ⟨_,_,_,rfl,stays,free⟩

/-- A request with an id gets one response, with that id, exactly if it neither
leaves early nor waits for a queue that never gets room. One without an id gets none. -/
theorem answered_iff (services : Services) (state : KernelState) (data : Bytes) (request : Request)
    (parsed : services.fromSlice data = .ok request) :
    (∀ id, request.id = some id →
      ((∃ response, (handleMessage services state data).written = [response] ∧ response.id = some id) ↔
        ¬LeavesEarly state request ∧ ¬SendsToFullQueue state request)) ∧
    (request.id = none → (handleMessage services state data).written = []) := by
  rcases handleMessage_cases services state data request parsed with
    ⟨value,next,finish,outcome,free⟩ | ⟨finish,outcome,stuck⟩
  · rw [outcome]
    refine ⟨fun id named => iff_of_true ?_ free,?_⟩
    · rw [named]
      exact respond_some id value
    · intro unnamed
      rw [unnamed]
      rfl
  · rw [outcome]
    exact ⟨fun id _ => iff_of_false (by simp) stuck,fun _ => rfl⟩

/-! A connection that is past its handshake, and two frames of it. -/

def authenticatedState : KernelState := ⟨true,"secret",["s"],[],0⟩

def closeFrames (data : Bytes) : Except String Request :=
  if data = [1] then .ok ⟨"2.0","session.close",some (.object [("session_id",.string "s")]),some (.number 7)⟩
  else if data = [2] then .ok ⟨"2.0","session.close",none,some (.number 7)⟩
  else .error "expected value at line 1 column 1"

def closeServices : Services where
  fromSlice := closeFrames
  decodeError := fun _ _ => "invalid type: null, expected struct DestroySessionParams"
  now := 0
  handle := fun state _ _ => (.ok .null,state)

theorem answered_close :
    ∃ response, (handleMessage closeServices authenticatedState [1]).written = [response] ∧
      response.id = some (.number 7) := by
  refine ((answered_iff closeServices authenticatedState [1] _ rfl).1 _ rfl).mpr ⟨?_,?_⟩
  · rintro ⟨-,-,fields,arm,refused⟩
    cases arm
    cases refused
  · rintro ⟨sends,-⟩
    simp at sends

theorem close_without_params_unanswered :
    closeServices.fromSlice [2] = .ok ⟨"2.0","session.close",none,some (.number 7)⟩ ∧
    (handleMessage closeServices authenticatedState [2]).written = [] ∧
    (handleMessage closeServices authenticatedState [2]).finish = .returned (.error (.serialization
      "Invalid params: invalid type: null, expected struct DestroySessionParams")) :=
  ⟨rfl,rfl,rfl⟩

end ClawKernel.Server.Dispatch
