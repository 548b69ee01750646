import ClawKernel.Lib.Mailbox
import ClawKernel.Lib.Runs
import ClawKernel.Server.Dispatch
import ClawKernel.Server.Outbound

/-! The connections of a server and their notify queues. A connection's task takes
notifications from its queue only between two requests, and `channel.send` is the one
handler that waits, inside `handle_message`, for a slot in a notify queue: the queue of the
connection that registered the channel. All other senders are tasks of their own.
-/
namespace ClawKernel.Server.Backpressure
open Lib.Json Lib.Mailbox Lib.Runs Lib.Schema Server.Connection Server.Params Server.Protocol

inductive Sender where
  | task (task : Nat)
  | handler (conn : Nat)
  deriving DecidableEq, Repr

/-- A `channel.send` under way: the connection whose queue it waits for, and its frame. -/
structure Sending where
  target : Nat
  frame : List UInt8

structure Connection where
  alive : Bool
  authenticated : Bool
  box : Box (List UInt8) Sender
  sending : Option Sending

structure RegisteredChannel where
  channelType : String
  outboundTx : Option Nat

/-- `webhooks` says that there is a webhook server. -/
structure System where
  authToken : String
  webhooks : Bool
  conns : Nat → Connection
  channels : String → Option RegisteredChannel

inductive Step where
  | frame (conn : Nat) (request : Request)
  | recv (conn : Nat)
  | poll (conn : Nat)
  | hangUp (conn : Nat)
  | enter (conn task : Nat)
  | put (conn task : Nat) (data : List UInt8)
  | trySend (conn : Nat) (data : List UInt8)

def start (authToken : String) (webhooks : Bool) : System where
  authToken := authToken
  webhooks := webhooks
  conns := fun _ => ⟨true,false,.empty,none⟩
  channels := fun _ => none

def System.set (s : System) (conn : Nat) (connection : Connection) : System :=
  { s with conns := Function.update s.conns conn connection }

def System.setBox (s : System) (conn : Nat) (box : Box (List UInt8) Sender) : System :=
  s.set conn { s.conns conn with box := box }

def System.setSending (s : System) (conn : Nat) (sending : Option Sending) : System :=
  s.set conn { s.conns conn with sending := sending }

def System.authenticate (s : System) (conn : Nat) : System :=
  s.set conn { s.conns conn with authenticated := true }

/-- The loop ends; the receiver goes, and with it what the queue held. -/
def System.close (s : System) (conn : Nat) : System :=
  s.set conn { s.conns conn with alive := false, box := .empty }

def handleChannelRegister (s : System) (conn : Nat) (params : Value) : System :=
  let id := textOf "channel_id" channelRegisterParams params
  let channel : RegisteredChannel := ⟨textOf "type" channelRegisterParams params,some conn⟩
  if (s.channels id).isSome then s else { s with channels := Function.update s.channels id (some channel) }

/-- `channel.unregister` and `channel.close`, which decode the same one field. -/
def unregister (s : System) (params : Value) : System :=
  { s with channels := Function.update s.channels (textOf "channel_id" channelCloseParams params) none }

/-- Without a webhook server the trigger is an entry of the registry, with no queue behind it. -/
def handleTriggerAddWebhook (s : System) (params : Value) : System :=
  let id := "trigger:" ++ textOf "trigger_id" triggerAddWebhookParams params
  if s.webhooks ∨ (s.channels id).isSome then s
  else { s with channels := Function.update s.channels id (some ⟨"webhook_trigger",none⟩) }

/-- `ChannelRegistry::send_outbound`, up to the point where it waits for a slot. -/
def handleChannelSend (s : System) (conn : Nat) (params : Value) : System :=
  let id := textOf "channel_id" channelSendParams params
  match (s.channels id).bind RegisteredChannel.outboundTx with
  | none => s
  | some target =>
    if (s.conns target).alive then
      let frame := (Outbound.Push.channelSend id (textOf "message" channelSendParams params)).bytes
      (s.setBox target ((s.conns target).box.enter notifyCapacity (.handler conn))).setSending conn
        (some ⟨target,frame⟩)
    else s

/-- What a request of the client does to the queues and to the registry. No other handler
waits for a notify queue: what the others spawn comes in by `enter`, `put` and `trySend`. -/
def handleMessage (s : System) (conn : Nat) (request : Request) : System :=
  let params := request.params.getD .null
  if request.method = "kernel.auth" then
    if Dispatch.tokenOf request.params = s.authToken then s.authenticate conn else s
  else if (s.conns conn).authenticated = false then s
  else if request.method = "channel.send" then
    if (Kind.record channelSendParams).accepts params then handleChannelSend s conn params else s
  else if request.method = "channel.register" then
    if (Kind.record channelRegisterParams).accepts params then handleChannelRegister s conn params else s
  else if request.method = "channel.unregister" ∨ request.method = "channel.close" then
    if (Kind.record channelCloseParams).accepts params then unregister s params else s
  else if request.method = "trigger.add_webhook" then
    if (Kind.record triggerAddWebhookParams).accepts params then handleTriggerAddWebhook s params else s
  else s

/-- The select loop of the connection runs: it is not inside `handle_message`. -/
def Selecting (s : System) (conn : Nat) : Prop :=
  (s.conns conn).alive = true ∧ (s.conns conn).sending.isNone = true

instance (s : System) (conn : Nat) : Decidable (Selecting s conn) :=
  inferInstanceAs (Decidable (_ ∧ _))

def step (s : System) : Step → System
  | .frame conn request => if Selecting s conn then handleMessage s conn request else s
  | .recv conn =>
    if Selecting s conn then
      match (s.conns conn).box.take with
      | none => s
      | some (_,rest) => s.setBox conn rest
    else s
  | .poll conn =>
    match (s.conns conn).sending with
    | none => s
    | some sending =>
      if (s.conns sending.target).alive = false then s.setSending conn none
      else if Sender.handler conn ∈ (s.conns sending.target).box.granted then
        (s.setBox sending.target ((s.conns sending.target).box.put (.handler conn) sending.frame)).setSending conn none
      else s
  | .hangUp conn => if Selecting s conn then s.close conn else s
  | .enter conn task =>
    if (s.conns conn).alive then s.setBox conn ((s.conns conn).box.enter notifyCapacity (.task task)) else s
  | .put conn task data =>
    if Sender.task task ∈ (s.conns conn).box.granted then s.setBox conn ((s.conns conn).box.put (.task task) data)
    else s
  | .trySend conn data =>
    if (s.conns conn).alive then s.setBox conn ((s.conns conn).box.trySend notifyCapacity data) else s

/-- The connection waits for a slot that only its own loop can free. -/
def WaitsOnItself (s : System) (conn : Nat) : Prop :=
  (s.conns conn).sending.map Sending.target = some conn ∧ Sender.handler conn ∈ (s.conns conn).box.waiting

/-- The frame is a `channel.send` that is let through to a channel of its own connection. -/
def SendsToItself (s : System) (conn : Nat) (request : Request) : Prop :=
  request.method = "channel.send" ∧ (s.conns conn).authenticated = true ∧
    (Kind.record channelSendParams).accepts (request.params.getD .null) = true ∧
    (s.channels (textOf "channel_id" channelSendParams (request.params.getD .null))).bind
      RegisteredChannel.outboundTx = some conn

/-- Such a frame is read only while a slot of the connection's queue is free. -/
def FindsRoom (s : System) : Step → Prop
  | .frame conn request =>
    Selecting s conn → SendsToItself s conn request → (s.conns conn).box.occupied < notifyCapacity
  | _ => True

section Fields
variable (s : System) (conn d : Nat)

theorem set_field {β : Type} (connection : Connection) (field : Connection → β) :
    field ((s.set conn connection).conns d) = if d = conn then field connection else field (s.conns d) := by
  simp only [System.set,Function.update_apply]
  split_ifs
  · rfl
  · rfl

theorem set_same {β : Type} (connection : Connection) (field : Connection → β)
    (same : field connection = field (s.conns conn)) : field ((s.set conn connection).conns d) = field (s.conns d) := by
  rw [set_field s conn d connection field]
  split_ifs with here
  · rw [same,here]
  · rfl

@[simp] theorem setBox_box (box : Box (List UInt8) Sender) :
    ((s.setBox conn box).conns d).box = if d = conn then box else (s.conns d).box :=
  set_field s conn d _ Connection.box

@[simp] theorem setBox_sending (box : Box (List UInt8) Sender) :
    ((s.setBox conn box).conns d).sending = (s.conns d).sending :=
  set_same s conn d _ Connection.sending rfl

@[simp] theorem setBox_alive (box : Box (List UInt8) Sender) :
    ((s.setBox conn box).conns d).alive = (s.conns d).alive :=
  set_same s conn d _ Connection.alive rfl

@[simp] theorem setSending_box (sending : Option Sending) :
    ((s.setSending conn sending).conns d).box = (s.conns d).box :=
  set_same s conn d _ Connection.box rfl

@[simp] theorem setSending_sending (sending : Option Sending) :
    ((s.setSending conn sending).conns d).sending = if d = conn then sending else (s.conns d).sending :=
  set_field s conn d _ Connection.sending

@[simp] theorem setSending_alive (sending : Option Sending) :
    ((s.setSending conn sending).conns d).alive = (s.conns d).alive :=
  set_same s conn d _ Connection.alive rfl

@[simp] theorem close_box :
    ((s.close conn).conns d).box = if d = conn then .empty else (s.conns d).box :=
  set_field s conn d _ Connection.box

@[simp] theorem close_sending : ((s.close conn).conns d).sending = (s.conns d).sending :=
  set_same s conn d _ Connection.sending rfl

@[simp] theorem close_alive :
    ((s.close conn).conns d).alive = if d = conn then false else (s.conns d).alive :=
  set_field s conn d _ Connection.alive

end Fields

def sent (s : System) (conn target : Nat) (frame : List UInt8) : System :=
  (s.setBox target ((s.conns target).box.enter notifyCapacity (.handler conn))).setSending conn (some ⟨target,frame⟩)

/-- The request leaves every queue and every handler as it was. -/
def Quiet (s s' : System) : Prop :=
  ∀ c, (s'.conns c).alive = (s.conns c).alive ∧ (s'.conns c).box = (s.conns c).box ∧
    (s'.conns c).sending = (s.conns c).sending

theorem quiet_refl (s : System) : Quiet s s := fun _ => ⟨rfl,rfl,rfl⟩

theorem quiet_authenticate (s : System) (conn : Nat) : Quiet s (s.authenticate conn) :=
  fun c => ⟨set_same s conn c _ Connection.alive rfl,set_same s conn c _ Connection.box rfl,
    set_same s conn c _ Connection.sending rfl⟩

/-- A `channel.send` goes to the connection that its channel was registered by, if that lives. -/
theorem handleChannelSend_cases (s : System) (conn : Nat) (request : Request) (alive : (s.conns conn).alive = true)
    (send : request.method = "channel.send") (admitted : (s.conns conn).authenticated = true)
    (accepted : (Kind.record channelSendParams).accepts (request.params.getD .null) = true) :
    (∃ target frame, (SendsToItself s conn request ↔ target = conn) ∧ (s.conns target).alive = true ∧
      handleChannelSend s conn (request.params.getD .null) = sent s conn target frame) ∨
    (¬SendsToItself s conn request ∧ Quiet s (handleChannelSend s conn (request.params.getD .null))) := by
  unfold handleChannelSend
  simp only
  cases found : (s.channels (textOf "channel_id" channelSendParams (request.params.getD .null))).bind
    RegisteredChannel.outboundTx with
  | none =>
    refine Or.inr ⟨fun sends => ?_,quiet_refl s⟩
    have clash := found.symm.trans sends.2.2.2
    cases clash
  | some target =>
    have own : SendsToItself s conn request ↔ target = conn := by
      constructor
      · intro sends
        exact Option.some.inj (found.symm.trans sends.2.2.2)
      · intro same
        exact ⟨send,admitted,accepted,found.trans (congrArg some same)⟩
    by_cases lives : (s.conns target).alive = true
    · simp only [if_pos lives]
      exact Or.inl ⟨target,_,own,lives,rfl⟩
    · simp only [if_neg lives]
      refine Or.inr ⟨fun sends => ?_,quiet_refl s⟩
      rw [own.mp sends] at lives
      exact lives alive

/-- A request is a `channel.send` that gets in line for the queue behind its channel, or
it is quiet; a send to the connection's own channel is never quiet while that lives. -/
theorem handleMessage_cases (s : System) (conn : Nat) (request : Request) (alive : (s.conns conn).alive = true) :
    (∃ target frame, (SendsToItself s conn request ↔ target = conn) ∧ (s.conns target).alive = true ∧
      handleMessage s conn request = sent s conn target frame) ∨
    (¬SendsToItself s conn request ∧ Quiet s (handleMessage s conn request)) := by
  unfold handleMessage
  by_cases auth : request.method = "kernel.auth"
  · have other : ¬SendsToItself s conn request := by
      intro sends
      have clash := auth.symm.trans sends.1
      exact absurd clash (by decide)
    refine Or.inr ⟨other,?_⟩
    simp only [if_pos auth]
    split_ifs
    · exact quiet_authenticate s conn
    · exact quiet_refl s
  · simp only [if_neg auth]
    by_cases known : (s.conns conn).authenticated = false
    · refine Or.inr ⟨fun sends => Bool.noConfusion (known.symm.trans sends.2.1),?_⟩
      rw [if_pos known]
      exact quiet_refl s
    · rw [if_neg known]
      have admitted : (s.conns conn).authenticated = true := by simpa using known
      by_cases send : request.method = "channel.send"
      · rw [if_pos send]
        by_cases accepted : (Kind.record channelSendParams).accepts (request.params.getD .null) = true
        · rw [if_pos accepted]
          exact handleChannelSend_cases s conn request alive send admitted accepted
        · rw [if_neg accepted]
          exact Or.inr ⟨fun sends => accepted sends.2.2.1,quiet_refl s⟩
      · rw [if_neg send]
        refine Or.inr ⟨fun sends => send sends.1,?_⟩
        split_ifs
        · unfold handleChannelRegister
          simp only
          split_ifs
          · exact quiet_refl s
          · exact fun _ => ⟨rfl,rfl,rfl⟩
        · exact quiet_refl s
        · exact fun _ => ⟨rfl,rfl,rfl⟩
        · exact quiet_refl s
        · unfold handleTriggerAddWebhook
          simp only
          split_ifs
          · exact quiet_refl s
          · exact fun _ => ⟨rfl,rfl,rfl⟩
        · exact quiet_refl s
        · exact quiet_refl s

/-- A handler stands in line exactly where its `channel.send` waits, and once. -/
def InLine (s : System) : Prop :=
  ∀ c d, (s.conns d).box.line.count (Sender.handler c) =
    if (s.conns c).sending.map Sending.target = some d ∧ (s.conns d).alive = true then 1 else 0

theorem inLine_quiet (s s' : System) (quiet : Quiet s s') (inLine : InLine s) : InLine s' := by
  intro c d
  rw [(quiet d).2.1,(quiet c).2.2,(quiet d).1]
  exact inLine c d

/-- A change of one box that leaves its line alone as far as handlers go. -/
theorem inLine_setBox (s : System) (conn : Nat) (box : Box (List UInt8) Sender)
    (same : ∀ c, box.line.count (Sender.handler c) = (s.conns conn).box.line.count (Sender.handler c))
    (inLine : InLine s) : InLine (s.setBox conn box) := by
  intro c d
  rw [setBox_sending,setBox_alive,setBox_box,← inLine c d]
  split_ifs with here
  · rw [same c,here]
  · rfl

theorem start_inLine (authToken : String) (webhooks : Bool) : InLine (start authToken webhooks) := by
  intro c d
  rfl

theorem inLine_none (s : System) (inLine : InLine s) (conn : Nat) (idle : (s.conns conn).sending = none) (d : Nat) :
    Sender.handler conn ∉ (s.conns d).box.line := by
  have count := inLine conn d
  rw [idle,if_neg (by simp)] at count
  exact List.count_eq_zero.mp count

theorem sent_inLine (s : System) (conn target : Nat) (frame : List UInt8) (inLine : InLine s)
    (idle : (s.conns conn).sending = none) (alive : (s.conns target).alive = true) :
    InLine (sent s conn target frame) := by
  intro c d
  simp only [sent,setSending_box,setSending_sending,setSending_alive,setBox_box,setBox_sending,setBox_alive]
  have entered := (enter_line_perm notifyCapacity (s.conns target).box (Sender.handler conn)).count_eq
    (Sender.handler c)
  by_cases mine : c = conn
  · subst mine
    have absent := List.count_eq_zero.mpr (inLine_none s inLine c idle d)
    rw [if_pos rfl,Option.map_some]
    by_cases here : d = target
    · subst here
      rw [if_pos rfl,entered,List.count_cons_self,absent,if_pos ⟨rfl,alive⟩]
    · rw [if_neg here,absent,if_neg (fun both => here (Option.some.inj both.1).symm)]
  · rw [if_neg mine,← inLine c d]
    split_ifs with here
    · have apart : Sender.handler conn ≠ Sender.handler c := fun same => mine (Sender.handler.inj same).symm
      rw [entered,List.count_cons_of_ne apart,here]
    · rfl

theorem poll_inLine (s : System) (conn : Nat) (inLine : InLine s) : InLine (step s (.poll conn)) := by
  rw [step]
  cases held : (s.conns conn).sending with
  | none => exact inLine
  | some sending =>
    have mine : ∀ d, (s.conns d).box.line.count (Sender.handler conn) =
        if sending.target = d ∧ (s.conns d).alive = true then 1 else 0 := by
      intro d
      have count := inLine conn d
      simp only [held,Option.map_some,Option.some_inj] at count
      exact count
    simp only
    split_ifs with dead granted
    · intro c d
      rw [setSending_box,setSending_sending,setSending_alive]
      split_ifs with same both both
      · cases both.1
      · rw [same,mine d,if_neg]
        intro both
        rw [← both.1,dead] at both
        exact Bool.noConfusion both.2
      · rw [inLine c d,if_pos both]
      · rw [inLine c d,if_neg both]
    · intro c d
      simp only [setSending_box,setSending_sending,setSending_alive,setBox_box,setBox_sending,setBox_alive]
      have taken := put_count (s.conns sending.target).box (.handler conn) (.handler c) sending.frame granted
      by_cases same : c = conn
      · subst same
        simp only [if_true,Option.map_none,reduceCtorEq,false_and,if_false]
        by_cases here : d = sending.target
        · rw [if_pos here,taken,if_pos rfl,mine sending.target]
          split_ifs
          · rfl
          · rfl
        · rw [if_neg here,mine d,if_neg (fun both => here both.1.symm)]
      · rw [if_neg same,← inLine c d]
        split_ifs with here
        · rw [taken,if_neg (fun equal => same (Sender.handler.inj equal)),here,Nat.sub_zero]
        · rfl
    · exact inLine

theorem close_inLine (s : System) (conn : Nat) (inLine : InLine s) : InLine (s.close conn) := by
  intro c d
  rw [close_box,close_sending,close_alive]
  by_cases here : d = conn
  · rw [if_pos here,if_pos here,if_neg (fun both => Bool.noConfusion both.2)]
    rfl
  · rw [if_neg here,if_neg here]
    exact inLine c d

theorem step_inLine (s : System) (i : Step) (inLine : InLine s) : InLine (step s i) := by
  cases i with
  | frame conn request =>
    rw [step]
    split_ifs with selecting
    · have idle : (s.conns conn).sending = none := by simpa using selecting.2
      rcases handleMessage_cases s conn request selecting.1 with ⟨target,frame,_,alive,done⟩ | ⟨_,quiet⟩
      · rw [done]
        exact sent_inLine s conn target frame inLine idle alive
      · exact inLine_quiet s _ quiet inLine
    · exact inLine
  | recv conn =>
    rw [step]
    split_ifs
    · cases taken : (s.conns conn).box.take with
      | none => exact inLine
      | some both =>
        apply inLine_setBox s conn both.2 _ inLine
        intro c
        rw [take_line _ _ _ taken]
    · exact inLine
  | poll conn => exact poll_inLine s conn inLine
  | hangUp conn =>
    rw [step]
    split_ifs
    · exact close_inLine s conn inLine
    · exact inLine
  | enter conn task =>
    rw [step]
    split_ifs
    · apply inLine_setBox s conn _ _ inLine
      intro c
      rw [(enter_line_perm notifyCapacity _ _).count_eq,List.count_cons_of_ne (by simp)]
    · exact inLine
  | put conn task data =>
    rw [step]
    split_ifs with granted
    · apply inLine_setBox s conn _ _ inLine
      intro c
      rw [put_count _ _ _ _ granted,if_neg (by simp),Nat.sub_zero]
    · exact inLine
  | trySend conn data =>
    rw [step]
    split_ifs
    · apply inLine_setBox s conn _ _ inLine
      intro c
      rw [(trySend_line notifyCapacity _ _).1]
    · exact inLine

/-- A box whose line gains no waiting handler makes no connection wait on itself. -/
theorem waits_setBox (s : System) (conn : Nat) (box : Box (List UInt8) Sender) (c : Nat)
    (fewer : ∀ c, Sender.handler c ∈ box.waiting → Sender.handler c ∈ (s.conns conn).box.waiting)
    (waits : WaitsOnItself (s.setBox conn box) c) : WaitsOnItself s c := by
  obtain ⟨own,member⟩ := waits
  rw [setBox_sending] at own
  rw [setBox_box] at member
  refine ⟨own,?_⟩
  split_ifs at member with here
  · subst here
    exact fewer c member
  · exact member

theorem enter_waiting (box : Box (List UInt8) Sender) (sender : Sender) (c : Nat) (other : Sender.handler c ≠ sender)
    (member : Sender.handler c ∈ (box.enter notifyCapacity sender).waiting) : Sender.handler c ∈ box.waiting := by
  unfold Box.enter at member
  split_ifs at member
  · exact member
  · cases List.mem_append.mp member with
    | inl before => exact before
    | inr added => exact absurd (List.mem_singleton.mp added) other

theorem waits_setSending (s : System) (conn c : Nat) (sending : Option Sending) (other : c ≠ conn) :
    WaitsOnItself (s.setSending conn sending) c ↔ WaitsOnItself s c := by
  unfold WaitsOnItself
  rw [setSending_sending,setSending_box,if_neg other]

theorem waits_released (s : System) (conn c : Nat) (waits : WaitsOnItself (s.setSending conn none) c) :
    WaitsOnItself s c := by
  by_cases mine : c = conn
  · have own := waits.1
    rw [setSending_sending,if_pos mine] at own
    cases own
  · exact (waits_setSending s conn c none mine).mp waits

/-- Apart from frames, no step makes a connection wait on itself. -/
theorem waits_step (s : System) (i : Step) (c : Nat) (noFrame : ∀ conn request, i ≠ .frame conn request)
    (waits : WaitsOnItself (step s i) c) : WaitsOnItself s c := by
  cases i with
  | frame conn request => exact absurd rfl (noFrame conn request)
  | recv conn =>
    rw [step] at waits
    split_ifs at waits
    · cases taken : (s.conns conn).box.take with
      | none =>
        rw [taken] at waits
        exact waits
      | some both =>
        rw [taken] at waits
        apply waits_setBox s conn both.2 c _ waits
        exact fun d member => take_waiting _ _ _ taken _ member
    · exact waits
  | poll conn =>
    rw [step] at waits
    cases held : (s.conns conn).sending with
    | none =>
      rw [held] at waits
      exact waits
    | some sending =>
      simp only [held] at waits
      split_ifs at waits
      · exact waits_released s conn c waits
      · apply waits_setBox s sending.target _ c _ (waits_released _ conn c waits)
        exact fun _ member => member
      · exact waits
  | hangUp conn =>
    rw [step] at waits
    split_ifs at waits
    · obtain ⟨own,member⟩ := waits
      rw [close_sending] at own
      rw [close_box] at member
      split_ifs at member
      · exact absurd member List.not_mem_nil
      · exact ⟨own,member⟩
    · exact waits
  | enter conn task =>
    rw [step] at waits
    split_ifs at waits
    · apply waits_setBox s conn _ c _ waits
      exact fun d member => enter_waiting _ _ d (by simp) member
    · exact waits
  | put conn task data =>
    rw [step] at waits
    split_ifs at waits
    · apply waits_setBox s conn _ c _ waits
      exact fun _ member => member
    · exact waits
  | trySend conn data =>
    rw [step] at waits
    split_ifs at waits
    · apply waits_setBox s conn _ c _ waits
      intro d member
      rw [(trySend_line notifyCapacity _ _).2] at member
      exact member
    · exact waits

theorem waits_quiet (s s' : System) (quiet : Quiet s s') (c : Nat) : WaitsOnItself s' c ↔ WaitsOnItself s c := by
  unfold WaitsOnItself
  rw [(quiet c).2.1,(quiet c).2.2]

theorem waits_sent_other (s : System) (conn target : Nat) (frame : List UInt8) (c : Nat)
    (other : c ≠ conn ∨ target ≠ conn) (waits : WaitsOnItself (sent s conn target frame) c) : WaitsOnItself s c := by
  obtain ⟨own,member⟩ := waits
  simp only [sent,setSending_sending,setBox_sending] at own
  simp only [sent,setSending_box,setBox_box] at member
  by_cases mine : c = conn
  · rw [if_pos mine,Option.map_some,Option.some_inj] at own
    rcases other with apart | apart
    · exact absurd mine apart
    · exact absurd (own.trans mine) apart
  · rw [if_neg mine] at own
    refine ⟨own,?_⟩
    split_ifs at member with here
    · subst here
      exact enter_waiting _ _ c (fun same => mine (Sender.handler.inj same)) member
    · exact member

theorem waits_sent_own (s : System) (conn : Nat) (frame : List UInt8) (inLine : InLine s)
    (idle : (s.conns conn).sending = none) :
    WaitsOnItself (sent s conn conn frame) conn ↔ notifyCapacity ≤ (s.conns conn).box.occupied := by
  have fresh := inLine_none s inLine conn idle conn
  rw [← waits_iff notifyCapacity (s.conns conn).box (Sender.handler conn) fresh]
  simp only [WaitsOnItself,sent,setSending_sending,setBox_sending,setSending_box,setBox_box,if_true,Option.map_some,
    true_and]

theorem step_waits_iff (s : System) (i : Step) (inLine : InLine s) (free : ∀ c, ¬WaitsOnItself s c) :
    (∀ c, ¬WaitsOnItself (step s i) c) ↔ FindsRoom s i := by
  by_cases frame : ∃ conn request, i = .frame conn request
  · obtain ⟨conn,request,rfl⟩ := frame
    rw [step,FindsRoom]
    by_cases selecting : Selecting s conn
    · have idle : (s.conns conn).sending = none := by simpa using selecting.2
      rw [if_pos selecting]
      rcases handleMessage_cases s conn request selecting.1 with ⟨target,frame,own,_,done⟩ | ⟨other,quiet⟩
      · rw [done]
        by_cases mine : target = conn
        · have waits := waits_sent_own s conn frame inLine idle
          subst mine
          constructor
          · intro none _ _
            exact Nat.lt_of_not_le (fun full => none target (waits.mpr full))
          · intro room c waiting
            by_cases here : c = target
            · subst here
              exact absurd (room selecting (own.mpr rfl)) (Nat.not_lt.mpr (waits.mp waiting))
            · exact free c (waits_sent_other s target target frame c (Or.inl here) waiting)
        · constructor
          · intro _ _ sends
            exact absurd (own.mp sends) mine
          · intro _ c waiting
            exact free c (waits_sent_other s conn target frame c (Or.inr mine) waiting)
      · constructor
        · intro _ _ sends
          exact absurd sends other
        · intro _ c waiting
          exact free c ((waits_quiet s _ quiet c).mp waiting)
    · rw [if_neg selecting]
      exact ⟨fun _ now => absurd now selecting,fun _ => free⟩
  · have noFrame : ∀ conn request, i ≠ .frame conn request := fun conn request same => frame ⟨conn,request,same⟩
    constructor
    · intro _
      cases i with
      | frame conn request => exact absurd rfl (noFrame conn request)
      | _ => exact True.intro
    · intro _ c waiting
      exact free c (waits_step s i c noFrame waiting)

theorem never_waits_on_itself_iff (authToken : String) (webhooks : Bool) (steps : List Step) :
    Always step (fun s => ∀ conn, ¬WaitsOnItself s conn) (start authToken webhooks) steps ↔
      Along step FindsRoom (start authToken webhooks) steps := by
  apply always_iff_along step FindsRoom _ InLine (fun _ => True)
  · exact fun s i inLine _ => step_inLine s i inLine
  · exact fun s i inLine _ free => step_waits_iff s i inLine free
  · exact fun _ _ => True.intro
  · exact start_inLine authToken webhooks
  · intro conn waits
    exact absurd waits.2 List.not_mem_nil

section Forever
variable (s : System) (conn : Nat) (waits : WaitsOnItself s conn)
include waits

theorem waits_busy : ¬Selecting s conn := by
  intro selecting
  have own := waits.1
  rw [Option.isNone_iff_eq_none.mp selecting.2] at own
  cases own

theorem waits_alive (inLine : InLine s) : (s.conns conn).alive = true := by
  have count := inLine conn conn
  have there := List.count_pos_iff.mpr (List.mem_append_right (s.conns conn).box.granted waits.2)
  by_contra dead
  rw [if_neg (fun both => dead both.2)] at count
  exact absurd there (Nat.not_lt.mpr count.le)

theorem waits_ungranted (inLine : InLine s) : Sender.handler conn ∉ (s.conns conn).box.granted := by
  intro granted
  have count := inLine conn conn
  rw [if_pos ⟨waits.1,waits_alive s conn waits inLine⟩,Box.line,List.count_append] at count
  have first := List.count_pos_iff.mpr granted
  have second := List.count_pos_iff.mpr waits.2
  omega

theorem waits_kept (d : Nat) (box : Box (List UInt8) Sender)
    (kept : conn = d → Sender.handler conn ∈ box.waiting) : WaitsOnItself (s.setBox d box) conn := by
  unfold WaitsOnItself
  rw [setBox_sending,setBox_box]
  refine ⟨waits.1,?_⟩
  split_ifs with here
  · exact kept here
  · exact waits.2

/-- Whoever comes to a queue gets in line behind those that wait there. -/
theorem waits_enter (d : Nat) (sender : Sender) :
    WaitsOnItself (s.setBox d ((s.conns d).box.enter notifyCapacity sender)) conn := by
  apply waits_kept s conn waits
  intro here
  rw [← here]
  unfold Box.enter
  split_ifs
  · exact waits.2
  · exact List.mem_append_left _ waits.2

theorem poll_waits_forever (inLine : InLine s) (c : Nat) : WaitsOnItself (step s (.poll c)) conn := by
  rw [step]
  cases held : (s.conns c).sending with
  | none => exact waits
  | some sending =>
    simp only
    by_cases mine : conn = c
    · subst mine
      have own := waits.1
      rw [held,Option.map_some,Option.some_inj] at own
      rw [own,waits_alive s conn waits inLine,if_neg (by decide),if_neg (waits_ungranted s conn waits inLine)]
      exact waits
    · split_ifs
      · exact (waits_setSending s c conn none mine).mpr waits
      · apply (waits_setSending _ c conn none mine).mpr
        apply waits_kept s conn waits
        intro here
        rw [← here]
        exact waits.2
      · exact waits

/-- A connection that waits on itself waits for good, whatever the other tasks do. -/
theorem step_waits_forever (i : Step) (inLine : InLine s) : WaitsOnItself (step s i) conn := by
  have busy := waits_busy s conn waits
  cases i with
  | frame c request =>
    rw [step]
    split_ifs with selecting
    · rcases handleMessage_cases s c request selecting.1 with ⟨target,frame,_,_,done⟩ | ⟨_,quiet⟩
      · have other : conn ≠ c := fun same => busy (same ▸ selecting)
        rw [done,sent]
        apply (waits_setSending _ c conn _ other).mpr
        exact waits_enter s conn waits target (.handler c)
      · exact (waits_quiet s _ quiet conn).mpr waits
    · exact waits
  | recv c =>
    rw [step]
    split_ifs with selecting
    · cases taken : (s.conns c).box.take with
      | none => exact waits
      | some both => exact waits_kept s conn waits c both.2 (fun here => absurd (here ▸ selecting) busy)
    · exact waits
  | poll c => exact poll_waits_forever s conn waits inLine c
  | hangUp c =>
    rw [step]
    split_ifs with selecting
    · have other : conn ≠ c := fun same => busy (same ▸ selecting)
      unfold WaitsOnItself
      rw [close_sending,close_box,if_neg other]
      exact waits
    · exact waits
  | enter c task =>
    rw [step]
    split_ifs
    · exact waits_enter s conn waits c (.task task)
    · exact waits
  | put c task data =>
    rw [step]
    split_ifs
    · exact waits_kept s conn waits c _ (fun here => here ▸ waits.2)
    · exact waits
  | trySend c data =>
    rw [step]
    split_ifs
    · apply waits_kept s conn waits c
      intro here
      rw [(trySend_line notifyCapacity _ _).2,← here]
      exact waits.2
    · exact waits

end Forever

theorem waits_forever (s : System) (conn : Nat) (inLine : InLine s) (waits : WaitsOnItself s conn) (steps : List Step) :
    WaitsOnItself (run step s steps) conn := by
  have kept := run_always step (fun t => InLine t ∧ WaitsOnItself t conn)
    (fun t i both => ⟨step_inLine t i both.1,step_waits_forever t conn both.2 i both.1⟩) s steps ⟨inLine,waits⟩
  exact kept.2

/-- A `channel.send` to the connection's own channel is done at its next poll exactly
when it found a free slot. -/
theorem own_send_completes_iff (s : System) (conn : Nat) (request : Request) (inLine : InLine s)
    (selecting : Selecting s conn) (sends : SendsToItself s conn request) :
    ((step (step s (.frame conn request)) (.poll conn)).conns conn).sending = none ↔
      (s.conns conn).box.occupied < notifyCapacity := by
  have idle : (s.conns conn).sending = none := by simpa using selecting.2
  have fresh := inLine_none s inLine conn idle conn
  rw [step,if_pos selecting]
  rcases handleMessage_cases s conn request selecting.1 with ⟨target,frame,own,alive,done⟩ | ⟨other,_⟩
  · have mine := own.mp sends
    subst mine
    rw [done,step]
    have granted : Sender.handler target ∈ ((s.conns target).box.enter notifyCapacity (.handler target)).granted ↔
        (s.conns target).box.occupied < notifyCapacity := by
      unfold Box.enter
      split_ifs with room
      · exact ⟨fun _ => room,fun _ => List.mem_append_right _ (List.mem_singleton_self _)⟩
      · exact ⟨fun member => absurd (List.mem_append_left _ member) fresh,fun now => absurd now room⟩
    simp only [sent,setSending_sending,if_true,setSending_alive,setBox_alive,alive,Bool.true_eq_false,if_false,
      setSending_box,setBox_box]
    split_ifs with room
    · exact ⟨fun _ => granted.mp room,fun _ => by rw [setSending_sending,if_pos rfl]⟩
    · constructor
      · intro none
        rw [setSending_sending,if_pos rfl] at none
        cases none
      · intro now
        exact absurd (granted.mpr now) room
  · exact absurd sends other

instance (s : System) (conn : Nat) : Decidable (WaitsOnItself s conn) :=
  inferInstanceAs (Decidable (_ ∧ _))

def call (method : String) (members : List (String × Value)) : Request :=
  ⟨"2.0",method,some (.object members),some (.number 1)⟩

/-- A client that registers a channel and sends to it while a hundred notifications wait. -/
def selfSend : List Step :=
  .frame 0 (call "kernel.auth" [("token",.string "t")]) ::
  .frame 0 (call "channel.register" [("type",.string "stdin"),("channel_id",.string "c"),("config",.null)]) ::
  (List.replicate 100 (.trySend 0 []) ++
    [.frame 0 (call "channel.send" [("channel_id",.string "c"),("message",.string "hi")])])

theorem full_queue_self_send_waits : WaitsOnItself (run step (start "t" false) selfSend) 0 := by
  decide +kernel

end ClawKernel.Server.Backpressure
