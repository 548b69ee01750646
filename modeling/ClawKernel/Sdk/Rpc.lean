import ClawKernel.Lib.Runs
import ClawKernel.Server.Outbound

/-! The synchronous call layer of the Python client: calls and subscriptions of any threads
read whole frames from one socket, each of them the frames of all the others too. The frames
are the messages of the server, which answers each request once at most; the connection holds.
A frame is received and dispatched in one step: two threads that read two notifications of a
session, and queue them in the other order, are left out.
-/
namespace ClawKernel.Sdk.Rpc
open Lib.Json Lib.Runs
open Server.Outbound (Message)
open Server.Protocol (Response Notification RequestId RpcError member)

def json : Message → Value
  | .response response => response.json
  | .notification notification => notification.json

/-- `_is_response_for`; the ids of the server are strings, integers and null. -/
def isResponseFor (msg : Value) (reqId : Int) : Bool :=
  match msg.get "id" with
  | some (.integer id) => id = reqId
  | _ => false

def isNotification (msg : Value) : Bool :=
  match msg.get "id" with
  | none => (msg.get "method").isSome
  | some .null => (msg.get "method").isSome
  | some _ => false

/-- What Python takes as false. -/
def falsy : Value → Bool
  | .null => true
  | .bool value => !value
  | .integer value => value = 0
  | .float text => text = "0.0" ∨ text = "-0.0"
  | .string text => text = ""
  | .array items => items.isEmpty
  | .object members => members.isEmpty

/-- `params.get("session_id", "")`; nothing where this raises, for `params` that are no object. -/
def sessionOf (msg : Value) : Option Value :=
  match msg.get "params" with
  | none => some (.string "")
  | some params =>
    if falsy params then some (.string "")
    else
      match params with
      | .object _ => some ((params.get "session_id").getD (.string ""))
      | _ => none

/-- What a call returns or raises. -/
inductive Outcome where
  | returned (value : Value)
  | raised (code : Option Value) (message : Value) (data : Option Value)

def outcomeOf (msg : Value) : Outcome :=
  match msg.get "error" with
  | some err => .raised (err.get "code") ((err.get "message").getD (.string "")) (err.get "data")
  | none => .returned ((msg.get "result").getD (.object []))

/-- Where the generator of a subscription is: before its queue, at the socket, at a `yield`,
or at its end. -/
inductive Phase where
  | draining
  | reading
  | yielded
  | ended
  deriving DecidableEq

structure Subscriber where
  session : String
  phase : Phase

/-- `unanswered` is the server's; the frames received, the calls returned and the
notifications yielded, each to a session, are kept for good. -/
structure State where
  reqId : Int
  unanswered : List Int
  wire : List Message
  waiting : List Int
  pendingResponses : List (Int × Value)
  notifQueues : String → List Value
  subscribers : List Subscriber
  received : List Message
  returned : List (Int × Outcome)
  yielded : List (String × Value)

def State.new : State := ⟨1,[],[],[],[],fun _ => [],[],[],[],[]⟩

/-- A call sends its request, a generator starts; the server sends a frame; the thread of a
call or of a generator takes the next frame; a generator looks into its queue, is asked for
more, or is closed. -/
inductive Act where
  | call
  | subscribe (session : String)
  | respond (response : Response)
  | notify (notification : Notification)
  | recvCall (id : Int)
  | recvSubscriber (index : Nat)
  | drain (index : Nat)
  | next (index : Nat)
  | close (index : Nat)

def put (queues : String → List Value) (session : String) (msg : Value) : String → List Value :=
  fun other => if other = session then queues other ++ [msg] else queues other

/-- `_dispatch_notification`. A session id that is no text names a queue no subscriber has;
an array or an object is no key, and nothing is what this comes to. -/
def dispatchNotification (queues : String → List Value) (msg : Value) : Option (String → List Value) :=
  match sessionOf msg with
  | none => none
  | some session =>
    if falsy session then some queues
    else
      match session with
      | .string session => some (put queues session msg)
      | .array _ => none
      | .object _ => none
      | _ => some queues

/-- `_dispatch`. -/
def dispatch (s : State) (msg : Value) : Option State :=
  if isNotification msg then
    (dispatchNotification s.notifQueues msg).map (fun queues => {s with notifQueues := queues})
  else
    match msg.get "id" with
    | some (.integer id) => some {s with pendingResponses := s.pendingResponses ++ [(id,msg)]}
    | _ => some s

def State.taken (s : State) (m : Message) (rest : List Message) : State :=
  {s with wire := rest, received := s.received ++ [m]}

def State.leave (s : State) (id : Int) : State := {s with waiting := s.waiting.filter (fun other => other ≠ id)}

/-- The loop of `call` with the frame it got. -/
def callGot (s : State) (id : Int) (msg : Value) : State :=
  if isResponseFor msg id then State.leave {s with returned := s.returned ++ [(id,outcomeOf msg)]} id
  else (dispatch s msg).getD (s.leave id)

def State.phase (s : State) (index : Nat) (sub : Subscriber) (phase : Phase) : State :=
  {s with subscribers := s.subscribers.set index {sub with phase := phase}}

def State.yield (s : State) (index : Nat) (sub : Subscriber) (msg : Value) : State :=
  State.phase {s with yielded := s.yielded ++ [(sub.session,msg)]} index sub .yielded

/-- The loop of `subscribe` with the frame it got. -/
def subscriberGot (s : State) (index : Nat) (sub : Subscriber) (msg : Value) : State :=
  if isNotification msg then
    match sessionOf msg with
    | none => s.phase index sub .ended
    | some session =>
      if session.asStr = some sub.session then s.yield index sub msg
      else
        match dispatchNotification s.notifQueues msg with
        | none => s.phase index sub .ended
        | some queues => State.phase {s with notifQueues := queues} index sub .draining
  else s.phase index sub .draining

def step (s : State) : Act → State
  | .call => {s with reqId := s.reqId + 1, unanswered := s.unanswered ++ [s.reqId], waiting := s.waiting ++ [s.reqId]}
  | .subscribe session => {s with subscribers := s.subscribers ++ [⟨session,.draining⟩]}
  | .respond response =>
    match response.id with
    | some (.number id) =>
      if id ∈ s.unanswered then
        {s with unanswered := s.unanswered.filter (fun other => other ≠ id), wire := s.wire ++ [.response response]}
      else s
    | some (.string _) => s
    | _ => {s with wire := s.wire ++ [.response response]}
  | .notify notification => {s with wire := s.wire ++ [.notification notification]}
  | .recvCall id =>
    match s.wire with
    | [] => s
    | m :: rest => if id ∈ s.waiting then callGot (s.taken m rest) id (json m) else s
  | .recvSubscriber index =>
    match s.subscribers[index]?, s.wire with
    | some ⟨session,.reading⟩, m :: rest => subscriberGot (s.taken m rest) index ⟨session,.reading⟩ (json m)
    | _, _ => s
  | .drain index =>
    match s.subscribers[index]? with
    | some ⟨session,.draining⟩ =>
      match s.notifQueues session with
      | msg :: rest =>
        State.yield {s with notifQueues := fun other => if other = session then rest else s.notifQueues other} index
          ⟨session,.draining⟩ msg
      | [] => s.phase index ⟨session,.draining⟩ .reading
    | _ => s
  | .next index =>
    match s.subscribers[index]? with
    | some ⟨session,.yielded⟩ => s.phase index ⟨session,.yielded⟩ .draining
    | _ => s
  | .close index =>
    match s.subscribers[index]? with
    | some ⟨session,.yielded⟩ => s.phase index ⟨session,.yielded⟩ .ended
    | _ => s

/-- The call a message answers. -/
def answer : Message → Option Int
  | .response response =>
    match response.id with
    | some (.number id) => some id
    | _ => none
  | .notification _ => none

/-- The session a message carries. -/
def carried : Message → Option String
  | .response _ => none
  | .notification notification => ((sessionOf notification.json).bind Value.asStr).filter (fun session => session ≠ "")

def State.arrived (s : State) (session : String) : List Value :=
  (s.received.filter (fun m => carried m = some session)).map json

def State.yieldedTo (s : State) (session : String) : List Value :=
  (s.yielded.filter (fun taken => taken.1 = session)).map Prod.snd

/-- A generator of the session blocks on the socket. -/
def State.Reads (s : State) (session : String) : Prop := ⟨session,.reading⟩ ∈ s.subscribers

/-- A call whose response has been received has returned it, a call returns its own response
only, and none waits for a frame that was taken before. -/
structure Answered (s : State) : Prop where
  answered : ∀ m ∈ s.received, ∀ id, answer m = some id → (id,outcomeOf (json m)) ∈ s.returned
  own : ∀ id outcome, (id,outcome) ∈ s.returned → ∃ m ∈ s.received, answer m = some id ∧ outcome = outcomeOf (json m)
  waits : ∀ id ∈ s.waiting, ∀ m ∈ s.received, answer m ≠ some id

/-- The notifications of a session have been yielded to it once each in the order of their
arrival, up to those that its queue still holds, and the queue holds none while a
subscriber of the session waits for more. -/
structure Streamed (s : State) : Prop where
  inOrder : ∀ session, session ≠ "" → s.yieldedTo session ++ s.notifQueues session = s.arrived session
  prompt : ∀ session, session ≠ "" → s.Reads session → s.notifQueues session = []

structure Multiplexed (s : State) : Prop where
  calls : Answered s
  streams : Streamed s

inductive Reader where
  | call (id : Int)
  | subscriber (session : String)

/-- Who takes the next frame in this step. -/
def State.reader (s : State) : Act → Option Reader
  | .recvCall id => if id ∈ s.waiting then some (.call id) else none
  | .recvSubscriber index =>
    match s.subscribers[index]? with
    | some ⟨session,.reading⟩ => some (.subscriber session)
    | _ => none
  | _ => none

/-- The condition on a step: a response is taken by the call that it answers, and a
notification of a session by a subscriber of it if one waits at the socket. -/
def Suits (s : State) (act : Act) : Prop :=
  ∀ reader m, s.reader act = some reader → s.wire.head? = some m →
    (∀ id, answer m = some id → reader = .call id) ∧
    (∀ session, carried m = some session → s.Reads session → reader = .subscriber session)

@[simp] theorem get_id_response (response : Response) :
    response.json.get "id" = some ((response.id.map RequestId.json).getD .null) := by
  unfold Response.json Value.get
  cases response.result <;> cases response.error <;> rfl

@[simp] theorem get_method_response (response : Response) : response.json.get "method" = none := by
  unfold Response.json Value.get
  cases response.result <;> cases response.error <;> rfl

@[simp] theorem get_id_notification (notification : Notification) : notification.json.get "id" = none := by
  unfold Notification.json Value.get
  cases notification.params <;> rfl

@[simp] theorem get_method_notification (notification : Notification) :
    notification.json.get "method" = some (.string notification.method) := rfl

@[simp] theorem isNotification_notification (notification : Notification) : isNotification notification.json = true := by
  simp [isNotification]

@[simp] theorem isNotification_response (response : Response) : isNotification response.json = false := by
  unfold isNotification
  rw [get_id_response,get_method_response]
  split
  · rfl
  · rfl
  · rfl

theorem isResponseFor_iff (m : Message) (id : Int) : isResponseFor (json m) id = true ↔ answer m = some id := by
  cases m with
  | notification notification => simp [isResponseFor,json,answer]
  | response response =>
    unfold isResponseFor json answer
    simp only [get_id_response]
    cases response.id with
    | none => simp
    | some given => cases given <;> simp [RequestId.json]

theorem isNotification_answer (m : Message) (carries : isNotification (json m) = true) : answer m = none := by
  cases m with
  | notification _ => rfl
  | response response => simp [json] at carries

theorem carried_response (m : Message) (other : isNotification (json m) = false) : carried m = none := by
  cases m with
  | response _ => rfl
  | notification notification => simp [json] at other

theorem carried_iff (m : Message) (session : String) : carried m = some session ↔
    isNotification (json m) = true ∧ sessionOf (json m) = some (.string session) ∧ session ≠ "" := by
  cases m with
  | response response => simp [carried,json]
  | notification notification =>
    simp only [carried,json,isNotification_notification,true_and,Option.filter_eq_some_iff,Option.bind_eq_some_iff,
      decide_eq_true_eq]
    refine and_congr_left (fun _ => ⟨?_,fun found => ⟨_,found,rfl⟩⟩)
    rintro ⟨value,found,text⟩
    cases value <;> simp_all [Value.asStr]

theorem dispatchNotification_carried (queues : String → List Value) (m : Message) (session : String)
    (carries : carried m = some session) : dispatchNotification queues (json m) = some (put queues session (json m)) := by
  obtain ⟨_,found,nonempty⟩ := (carried_iff m session).mp carries
  unfold dispatchNotification
  simp [found,falsy,nonempty]

theorem dispatchNotification_none (queues : String → List Value) (m : Message) (notifies : isNotification (json m) = true)
    (carries : carried m = none) :
    dispatchNotification queues (json m) = none ∨ dispatchNotification queues (json m) = some queues := by
  unfold dispatchNotification
  cases found : sessionOf (json m) with
  | none => exact Or.inl rfl
  | some value =>
    simp only
    split
    · exact Or.inr rfl
    · rename_i truthy
      cases value with
      | string session =>
        have nonempty : session ≠ "" := by simpa [falsy] using truthy
        rw [(carried_iff m session).mpr ⟨notifies,found,nonempty⟩] at carries
        cases carries
      | array _ => exact Or.inl rfl
      | object _ => exact Or.inl rfl
      | _ => exact Or.inr rfl

/-- The server answers each request once, and no other. -/
structure Sound (s : State) : Prop where
  fresh : ∀ id ∈ s.unanswered, id < s.reqId
  sent : ∀ m ∈ s.received ++ s.wire, ∀ id, answer m = some id → id < s.reqId ∧ id ∉ s.unanswered
  once : ((s.received ++ s.wire).filterMap answer).Nodup

theorem sound_same (s after : State) (sound : Sound s) (reqId : after.reqId = s.reqId)
    (unanswered : after.unanswered = s.unanswered) (frames : after.received ++ after.wire = s.received ++ s.wire) :
    Sound after := by
  constructor
  · rw [reqId,unanswered]
    exact sound.fresh
  · rw [reqId,unanswered,frames]
    exact sound.sent
  · rw [frames]
    exact sound.once

theorem sound_sent (s : State) (m : Message) (unanswered : List Int) (sound : Sound s)
    (fewer : ∀ id ∈ unanswered, id ∈ s.unanswered)
    (open_ : ∀ id, answer m = some id → id ∈ s.unanswered ∧ id ∉ unanswered) :
    Sound {s with unanswered := unanswered, wire := s.wire ++ [m]} where
  fresh id member := sound.fresh id (fewer id member)
  sent other member id answers := by
    rw [← List.append_assoc] at member
    rcases List.mem_append.mp member with earlier | last
    · have before := sound.sent other earlier id answers
      exact ⟨before.1,fun still => before.2 (fewer id still)⟩
    · rw [List.mem_singleton.mp last] at answers
      exact ⟨sound.fresh id (open_ id answers).1,(open_ id answers).2⟩
  once := by
    rw [← List.append_assoc,List.filterMap_append]
    cases answers : answer m with
    | none => simpa [answers] using sound.once
    | some id =>
      simp only [List.filterMap_cons,answers,List.filterMap_nil]
      refine List.nodup_append.mpr ⟨sound.once,by simp,fun earlier member last within same => ?_⟩
      obtain ⟨other,sent,found⟩ := List.mem_filterMap.mp member
      rw [same,List.mem_singleton.mp within] at found
      exact (sound.sent other sent id found).2 (open_ id answers).1

/-- What the loop of a call makes of a frame. -/
theorem callGot_cases (s : State) (id : Int) (m : Message) :
    (answer m = some id ∧
      callGot s id (json m) = State.leave {s with returned := s.returned ++ [(id,outcomeOf (json m))]} id) ∨
    (answer m ≠ some id ∧ carried m = none ∧
      (callGot s id (json m) = s.leave id ∨ ∃ pending, callGot s id (json m) = {s with pendingResponses := pending})) ∨
    (answer m = none ∧ ∃ session, carried m = some session ∧
      callGot s id (json m) = {s with notifQueues := put s.notifQueues session (json m)}) := by
  unfold callGot
  by_cases own : answer m = some id
  · rw [if_pos ((isResponseFor_iff m id).mpr own)]
    exact Or.inl ⟨own,rfl⟩
  rw [if_neg (fun yes => own ((isResponseFor_iff m id).mp yes))]
  right
  unfold dispatch
  cases notifies : isNotification (json m) with
  | true =>
    rw [if_pos rfl]
    cases carries : carried m with
    | some session =>
      rw [dispatchNotification_carried s.notifQueues m session carries]
      exact Or.inr ⟨isNotification_answer m notifies,session,rfl,rfl⟩
    | none =>
      rcases dispatchNotification_none s.notifQueues m notifies carries with raises | drops
      · rw [raises]
        exact Or.inl ⟨own,rfl,Or.inl rfl⟩
      · rw [drops]
        exact Or.inl ⟨own,rfl,Or.inr ⟨s.pendingResponses,rfl⟩⟩
  | false =>
    rw [if_neg Bool.false_ne_true]
    refine Or.inl ⟨own,carried_response m notifies,Or.inr ?_⟩
    split
    · exact ⟨_,rfl⟩
    · exact ⟨s.pendingResponses,rfl⟩

/-- What the loop of a subscription makes of a frame. -/
theorem subscriberGot_cases (s : State) (index : Nat) (sub : Subscriber) (m : Message) :
    (carried m = none ∧ ((∃ phase, phase ≠ .reading ∧ subscriberGot s index sub (json m) = s.phase index sub phase) ∨
      (sub.session = "" ∧ subscriberGot s index sub (json m) = s.yield index sub (json m)))) ∨
    (carried m = some sub.session ∧ subscriberGot s index sub (json m) = s.yield index sub (json m)) ∨
    (∃ session, carried m = some session ∧ session ≠ sub.session ∧ subscriberGot s index sub (json m) =
      State.phase {s with notifQueues := put s.notifQueues session (json m)} index sub .draining) := by
  unfold subscriberGot
  cases notifies : isNotification (json m) with
  | false =>
    rw [if_neg Bool.false_ne_true]
    exact Or.inl ⟨carried_response m notifies,Or.inl ⟨.draining,by decide,rfl⟩⟩
  | true =>
    rw [if_pos rfl]
    cases found : sessionOf (json m) with
    | none =>
      have plain : carried m = none := by
        by_contra carries
        obtain ⟨session,carries⟩ := Option.ne_none_iff_exists'.mp carries
        rw [((carried_iff m session).mp carries).2.1] at found
        cases found
      exact Or.inl ⟨plain,Or.inl ⟨.ended,by decide,rfl⟩⟩
    | some value =>
      simp only
      by_cases own : value.asStr = some sub.session
      · have text : value = .string sub.session := by
          cases value <;> simp_all [Value.asStr]
        rw [if_pos own]
        by_cases empty : sub.session = ""
        · refine Or.inl ⟨?_,Or.inr ⟨empty,rfl⟩⟩
          by_contra carries
          obtain ⟨session,carries⟩ := Option.ne_none_iff_exists'.mp carries
          obtain ⟨_,same,nonempty⟩ := (carried_iff m session).mp carries
          rw [found,text] at same
          cases same
          exact nonempty empty
        · exact Or.inr (Or.inl ⟨(carried_iff m sub.session).mpr ⟨notifies,text ▸ found,empty⟩,rfl⟩)
      · rw [if_neg own]
        cases carries : carried m with
        | some session =>
          rw [dispatchNotification_carried s.notifQueues m session carries]
          refine Or.inr (Or.inr ⟨session,rfl,?_,rfl⟩)
          rintro rfl
          have same := ((carried_iff m sub.session).mp carries).2.1
          rw [found] at same
          cases same
          exact own rfl
        | none =>
          rcases dispatchNotification_none s.notifQueues m notifies carries with raises | drops
          · rw [raises]
            exact Or.inl ⟨rfl,Or.inl ⟨.ended,by decide,rfl⟩⟩
          · rw [drops]
            exact Or.inl ⟨rfl,Or.inl ⟨.draining,by decide,rfl⟩⟩

end ClawKernel.Sdk.Rpc
