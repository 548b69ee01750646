import ClawKernel.Lib.Runs
import ClawKernel.Lib.Utf8
import ClawKernel.Server.Protocol

/-! What a connection writes to its client. Responses, queued notifications and
forwarded events share one locked writer. The queue holds byte strings, and the
connection's own task frames each of them as it drains the queue.
-/
namespace ClawKernel.Server.Outbound
open Lib.Json Lib.LengthPrefix Lib.Runs Server.Connection Server.Protocol

def toVec (value : Value) : Bytes := Lib.Utf8.encode value.chars

inductive Message where
  | response (response : Response)
  | notification (notification : Notification)

def Message.payload : Message → Bytes
  | .response sent => toVec sent.json
  | .notification sent => toVec sent.json

/-! The producers that push onto the connection's queue. -/

inductive Push where
  | notifyChunk (sessionId delta : String) (done : Bool)
  | notifyToolCall (sessionId toolCallId toolName : String) (arguments : Value)
  | notifyFinish (sessionId : String) (content : Option String) (reason : String)
  | channelSend (channelId message : String)
  | hotReloaded (path : String)
  | channelInbound (channelId senderId sessionId content : String)
  | channelBroadcast (channelId senderId sessionId agentId content : String)

namespace Push

/-- The notification a producer serialises. A JSON object has its members sorted. -/
def notification : Push → Notification
  | .notifyChunk sessionId delta done =>
    .new "agent/streamChunk" (some (.object [("delta",.string delta),("done",.bool done),
      ("session_id",.string sessionId)]))
  | .notifyToolCall sessionId toolCallId toolName arguments =>
    .new "agent/toolCall" (some (.object [("arguments",arguments),("session_id",.string sessionId),
      ("tool_call_id",.string toolCallId),("tool_name",.string toolName)]))
  | .notifyFinish sessionId content reason =>
    .new "agent/finish" (some (.object (member "content" (content.map .string) ++
      [("reason",.string reason),("session_id",.string sessionId)])))
  | .channelSend channelId message =>
    .new "channel/outbound" (some (.object [("channel_id",.string channelId),("message",.string message)]))
  | .hotReloaded path => .new "tool/hot_reloaded" (some (.object [("path",.string path)]))
  | .channelInbound channelId senderId sessionId content =>
    .new "channel/inbound_reply" (some (.object [("channel_id",.string channelId),("content",.string content),
      ("finish_reason",.string "stop"),("sender_id",.string senderId),("session_id",.string sessionId)]))
  | .channelBroadcast channelId senderId sessionId agentId content =>
    .new "channel/inbound_reply" (some (.object [("agent_id",.string agentId),("broadcast",.bool true),
      ("channel_id",.string channelId),("content",.string content),("finish_reason",.string "stop"),
      ("sender_id",.string senderId),("session_id",.string sessionId)]))

/-- The two reply builders put the length in front themselves. -/
def framesItself : Push → Bool
  | .channelInbound _ _ _ _ => true
  | .channelBroadcast _ _ _ _ _ => true
  | _ => false

def bytes (push : Push) : Bytes :=
  if push.framesItself then frame (toVec push.notification.json) else toVec push.notification.json

end Push

inductive Owner where
  | connection
  | forwarder (sessionId : String)
  deriving DecidableEq, Repr

/-- A frame under way: the bytes of it on the socket, and the ones still to come. -/
structure Writing where
  owner : Owner
  begun : Bytes
  left : Bytes
  unfinished : left ≠ []

def Writing.start (owner : Owner) (payload : Bytes) : Writing := ⟨owner,[],frame payload,frame_ne_nil payload⟩

/-- `waiting` is what the connection's task is to write once it has the lock. -/
structure Wire where
  socket : Bytes
  queue : List Bytes
  waiting : Option Bytes
  writing : Option Writing
  connected : Bool

def Wire.opened : Wire := ⟨[],[],none,none,true⟩

def Wire.idle (wire : Wire) : Bool :=
  wire.waiting.isNone && wire.writing.all (fun writing => writing.owner ≠ .connection)

inductive Step where
  | push (push : Push)
  | respond (response : Response)
  | recv
  | lock
  | forward (sessionId : String) (event : Value)
  | write (count : Nat)
  | abort (sessionId : String)
  | hangUp

def eventNotification (event : Value) : Notification := .new "events.notification" (some event)

/-- The socket takes `count` bytes of the frame under way. The lock is released with
the last of them, or when the client is gone and the write fails. -/
def write (wire : Wire) (count : Nat) : Wire :=
  match wire.writing with
  | none => wire
  | some writing =>
    if wire.connected then
      if unfinished : writing.left.drop count ≠ [] then
        {wire with
          socket := wire.socket ++ writing.left.take count
          writing := some ⟨writing.owner,writing.begun ++ writing.left.take count,writing.left.drop count,unfinished⟩}
      else {wire with socket := wire.socket ++ writing.left, writing := none}
    else {wire with writing := none}

/-- One step of one task. A step that has to wait changes nothing: a push to a full
queue, a task that does not get the lock. -/
def step (wire : Wire) : Step → Wire
  | .push push =>
    if wire.queue.length < notifyCapacity then {wire with queue := wire.queue ++ [push.bytes]} else wire
  | .respond response => if wire.idle then {wire with waiting := some (toVec response.json)} else wire
  | .recv =>
    match wire.idle, wire.queue with
    | true, data :: rest => {wire with queue := rest, waiting := some data}
    | _, _ => wire
  | .lock =>
    match wire.writing, wire.waiting with
    | none, some data => {wire with waiting := none, writing := some (.start .connection data)}
    | _, _ => wire
  | .forward sessionId event =>
    match wire.writing with
    | none => {wire with writing := some (.start (.forwarder sessionId) (toVec (eventNotification event).json))}
    | some _ => wire
  | .write count => write wire count
  | .abort sessionId =>
    -- the task is dropped at its await, and with it the lock and what it had still to write
    match wire.writing with
    | some writing => if writing.owner = .forwarder sessionId then {wire with writing := none} else wire
    | none => wire
  | .hangUp => {wire with connected := false}

def maxLength : Nat := 2 ^ 32 - 1

def Whole (data : Bytes) : Prop := data.length ≤ maxLength ∧ ∃ message : Message, message.payload = data

/-- The condition on a step: a push that finds room does not frame itself, the length
fits the prefix, and no forwarder is aborted within a frame. -/
def Sound (wire : Wire) : Step → Prop
  | .push push => wire.queue.length < notifyCapacity → push.framesItself = false ∧ push.bytes.length ≤ maxLength
  | .respond response => wire.idle = true → (toVec response.json).length ≤ maxLength
  | .forward _ event => wire.writing.isNone → (toVec (eventNotification event).json).length ≤ maxLength
  | .abort sessionId =>
    ∀ writing, wire.writing = some writing → writing.owner = .forwarder sessionId → writing.begun = []
  | _ => True

def Framed (socket : Bytes) : Prop :=
  ∃ (payloads : List Bytes) (coming : Bytes), (∀ payload ∈ payloads, Whole payload) ∧
    socket ++ coming = payloads.flatMap frame

/-- Whole frames stand on the socket, and after them what is begun of the frame under way. -/
def Stands (socket : Bytes) : Option Writing → Prop
  | none => ∃ payloads : List Bytes, (∀ payload ∈ payloads, Whole payload) ∧ socket = payloads.flatMap frame
  | some writing =>
    ∃ (payloads : List Bytes) (payload : Bytes), (∀ data ∈ payloads, Whole data) ∧ Whole payload ∧
      socket = payloads.flatMap frame ++ writing.begun ∧ writing.begun ++ writing.left = frame payload

structure Keeps (wire : Wire) : Prop where
  queued : ∀ data ∈ wire.queue, Whole data
  waits : ∀ data, wire.waiting = some data → Whole data
  framed : Framed wire.socket
  stands : wire.connected = true → Stands wire.socket wire.writing

theorem whole_response (response : Response) (fits : (toVec response.json).length ≤ maxLength) :
    Whole (toVec response.json) :=
  ⟨fits,.response response,rfl⟩

theorem whole_notification (notification : Notification) (fits : (toVec notification.json).length ≤ maxLength) :
    Whole (toVec notification.json) :=
  ⟨fits,.notification notification,rfl⟩

theorem whole_push (push : Push) (raw : push.framesItself = false) (fits : push.bytes.length ≤ maxLength) :
    Whole push.bytes := by
  have plain : push.bytes = toVec push.notification.json := by simp [Push.bytes,raw]
  rw [plain] at fits ⊢
  exact whole_notification push.notification fits

theorem whole_snoc (payloads : List Bytes) (payload : Bytes) (all : ∀ data ∈ payloads, Whole data)
    (whole : Whole payload) : ∀ data ∈ payloads ++ [payload], Whole data := by
  intro data member
  rcases List.mem_append.mp member with earlier | last
  · exact all data earlier
  · rw [List.mem_singleton.mp last]
    exact whole

theorem stands_start (socket payload : Bytes) (owner : Owner) (free : Stands socket none) (whole : Whole payload) :
    Stands socket (some (.start owner payload)) := by
  obtain ⟨payloads,all,same⟩ := free
  exact ⟨payloads,payload,all,whole,by simpa [Writing.start] using same,rfl⟩

theorem framed_of_stands (socket : Bytes) (writing : Option Writing) (stands : Stands socket writing) : Framed socket := by
  cases writing with
  | none =>
    obtain ⟨payloads,all,same⟩ := stands
    exact ⟨payloads,[],all,by simpa using same⟩
  | some writing =>
    obtain ⟨payloads,payload,all,whole,same,joined⟩ := stands
    refine ⟨payloads ++ [payload],writing.left,whole_snoc payloads payload all whole,?_⟩
    rw [same,List.append_assoc,joined]
    simp

theorem stands_give_up (socket : Bytes) (writing : Writing) (stands : Stands socket (some writing))
    (unbegun : writing.begun = []) : Stands socket none := by
  obtain ⟨payloads,-,all,-,same,-⟩ := stands
  exact ⟨payloads,all,by simpa [unbegun] using same⟩

theorem stands_write (wire : Wire) (count : Nat) (connected : wire.connected = true)
    (stands : Stands wire.socket wire.writing) :
    Stands (write wire count).socket (write wire count).writing := by
  unfold write
  split
  · exact stands
  · next writing under =>
    rw [under] at stands
    obtain ⟨payloads,payload,all,whole,same,joined⟩ := stands
    rw [if_pos connected]
    split
    · refine ⟨payloads,payload,all,whole,?_,?_⟩
      · rw [same,List.append_assoc]
      · rw [List.append_assoc,List.take_append_drop,joined]
    · refine ⟨payloads ++ [payload],whole_snoc payloads payload all whole,?_⟩
      rw [same,List.append_assoc,joined]
      simp

theorem write_connected (wire : Wire) (count : Nat) : (write wire count).connected = wire.connected := by
  unfold write
  split
  · rfl
  · split
    · split <;> rfl
    · rfl

theorem write_disconnected (wire : Wire) (count : Nat) (gone : wire.connected = false) :
    (write wire count).socket = wire.socket := by
  unfold write
  split
  · rfl
  · simp [gone]

theorem write_queues (wire : Wire) (count : Nat) :
    (write wire count).queue = wire.queue ∧ (write wire count).waiting = wire.waiting := by
  unfold write
  split
  · exact ⟨rfl,rfl⟩
  · split
    · split <;> exact ⟨rfl,rfl⟩
    · exact ⟨rfl,rfl⟩

theorem keeps_write (wire : Wire) (count : Nat) (keeps : Keeps wire) : Keeps (write wire count) := by
  obtain ⟨queue,waiting⟩ := write_queues wire count
  have stands : (write wire count).connected = true → Stands (write wire count).socket (write wire count).writing := by
    intro connected
    rw [write_connected] at connected
    exact stands_write wire count connected (keeps.stands connected)
  refine ⟨by rw [queue]; exact keeps.queued,by rw [waiting]; exact keeps.waits,?_,stands⟩
  cases connected : wire.connected with
  | true => exact framed_of_stands _ _ (stands (by rw [write_connected,connected]))
  | false =>
    rw [write_disconnected wire count connected]
    exact keeps.framed

theorem keeps_step (wire : Wire) (next : Step) (keeps : Keeps wire) (sound : Sound wire next) :
    Keeps (step wire next) := by
  cases next with
  | push push =>
    simp only [step]
    split
    · next room =>
      obtain ⟨raw,fits⟩ := sound room
      exact {keeps with queued := whole_snoc wire.queue push.bytes keeps.queued (whole_push push raw fits)}
    · exact keeps
  | respond response =>
    simp only [step]
    split
    · next idle =>
      refine {keeps with waits := ?_}
      rintro data ⟨⟩
      exact whole_response response (sound idle)
    · exact keeps
  | recv =>
    simp only [step]
    split
    · next data rest idle queue =>
      have whole : ∀ item ∈ data :: rest, Whole item := by
        rw [← queue]
        exact keeps.queued
      refine {keeps with queued := fun item member => whole item (List.mem_cons_of_mem data member),waits := ?_}
      rintro item ⟨⟩
      exact whole data List.mem_cons_self
    · exact keeps
  | lock =>
    simp only [step]
    split
    · next data free waiting =>
      refine {keeps with waits := by simp,stands := fun connected => ?_}
      have before := keeps.stands connected
      rw [free] at before
      exact stands_start wire.socket data .connection before (keeps.waits data waiting)
    · exact keeps
  | forward sessionId event =>
    simp only [step]
    split
    · next free =>
      refine {keeps with stands := fun connected => ?_}
      have before := keeps.stands connected
      rw [free] at before
      exact stands_start wire.socket _ (.forwarder sessionId) before
        (whole_notification (eventNotification event) (sound (by simp [free])))
    · exact keeps
  | write count => exact keeps_write wire count keeps
  | abort sessionId =>
    simp only [step]
    split
    · next writing under =>
      split
      · next owner =>
        refine {keeps with stands := fun connected => ?_}
        have before := keeps.stands connected
        rw [under] at before
        exact stands_give_up wire.socket writing before (sound writing under owner)
      · exact keeps
    · exact keeps
  | hangUp => exact {keeps with stands := by simp [step]}

theorem keeps_opened : Keeps Wire.opened where
  queued := by simp [Wire.opened]
  waits := by simp [Wire.opened]
  framed := ⟨[],[],by simp,rfl⟩
  stands := fun _ => ⟨[],by simp,rfl⟩

theorem keeps_run (steps : List Step) (sound : Along step Sound Wire.opened steps) :
    Keeps (run step Wire.opened steps) :=
  run_invariant step Sound Keeps keeps_step Wire.opened steps keeps_opened sound

theorem framed_read (socket : Bytes) (framed : Framed socket) (payload : Bytes)
    (read : payload ∈ deframe maxLength socket) : ∃ message : Message, message.payload = payload := by
  obtain ⟨payloads,coming,all,stream⟩ := framed
  have taken := deframe_stream maxLength (by decide) payloads (fun data member => (all data member).1) socket coming stream
  exact (all payload (taken.subset read)).2

/-- In a run whose steps all meet the condition the socket holds frames of messages
and nothing else, and every frame the client reads is one message. -/
theorem frames_are_messages (steps : List Step) (sound : Along step Sound Wire.opened steps) :
    Framed (run step Wire.opened steps).socket ∧
    ∀ payload ∈ deframe maxLength (run step Wire.opened steps).socket,
      ∃ message : Message, message.payload = payload := by
  have framed := (keeps_run steps sound).framed
  exact ⟨framed,framed_read _ framed⟩

/-! A response and a notification go out whole; a channel reply does not. -/

def pong : Response := .success (.object [("pong",.bool true)]) (some (.number 1))

def chunk : Push := .notifyChunk "s" "hi" false

def pongThenChunk : List Step :=
  [.respond pong,.push chunk,.lock,.write 9,.write 1000,.recv,.lock,.write 1000]

theorem pongThenChunk_frames :
    deframe maxLength (run step Wire.opened pongThenChunk).socket = [toVec pong.json,toVec chunk.notification.json] ∧
    ∀ payload ∈ deframe maxLength (run step Wire.opened pongThenChunk).socket,
      ∃ message : Message, message.payload = payload := by
  have sound : Along step Sound Wire.opened pongThenChunk :=
    ⟨fun _ => by decide +kernel,fun _ => ⟨rfl,by decide +kernel⟩,trivial,trivial,trivial,trivial,trivial,trivial,trivial⟩
  exact ⟨by decide +kernel,(frames_are_messages pongThenChunk sound).2⟩

theorem payload_head (message : Message) : message.payload.head? = some 0x7b := by
  have object : ∀ members, (toVec (.object members)).head? = some 0x7b := by
    intro members
    obtain ⟨rest,begins⟩ := chars_object members
    rw [toVec,begins]
    rfl
  cases message with
  | response sent => exact object _
  | notification sent => exact object _

theorem frame_not_message (payload : Bytes) (short : payload.length < 0x7b * 2 ^ 24) (message : Message) :
    message.payload ≠ frame payload := by
  intro same
  have head := payload_head message
  rw [same] at head
  simp only [frame,be32,List.cons_append,List.head?_cons,Option.some.injEq] at head
  have value := congrArg UInt8.toNat head
  rw [UInt8.toNat_ofNat'] at value
  simp at value
  omega

def reply : Push := .channelInbound "c" "u" "s" "hi"

theorem reply_framed_twice :
    deframe maxLength (run step Wire.opened [.push reply,.recv,.lock,.write 1000]).socket =
      [frame (toVec reply.notification.json)] ∧
    ¬∃ message : Message, message.payload = frame (toVec reply.notification.json) := by
  refine ⟨by decide +kernel,?_⟩
  rintro ⟨message,same⟩
  exact frame_not_message _ (by decide +kernel) message same

end ClawKernel.Server.Outbound
