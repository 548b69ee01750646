import ClawKernel.A2A.Codec
import ClawKernel.Lib.Tables

/-! Routing a message: `route_message` of the IPC router publishes it first, then looks for
its target among the local agents and the remote endpoints; `SimpleRouter` drops expired
messages, sends to one agent or tries every agent but the source. The clock, the encoder
and the transport answer as they like, and so do other tasks while the call waits.
-/
namespace ClawKernel.A2A.Routing
open Lib.Tables Codec
open Priority (MessagePriority)

inductive RuntimeError where
  | agentNotFound (agentId : String)
  | agentAlreadyExists (agentId : String)
  | ipcError (message : String)
  | eventBusError (message : String)
  | shuttingDown
  | timeout
  | processError (message : String)
  | unsupportedCommand (command : String)
  deriving DecidableEq, Repr

/-- One of the five channels of an agent; it is open while its receiver lives. -/
structure Channel where
  queue : List A2AMessage
  capacity : Nat
  isOpen : Bool

structure AgentHandle where
  channel : MessagePriority → Channel

/-- The agents of the `SimpleRouter`, the endpoint registry, the `Event::A2A`s on the bus and
the frames that transports have taken. -/
structure IpcRouter where
  agents : Table String AgentHandle
  remoteEndpoints : Table String String
  published : List A2AMessage
  frames : List (String × List UInt8)

structure Transport where
  encode : A2AMessage → Except RuntimeError (List UInt8)
  createClient : String → Except RuntimeError Unit
  send : String → List UInt8 → Except RuntimeError Unit

/-- What becomes of a full channel while a send waits: its receiver takes messages, it
goes, or it does neither. -/
inductive Wait where
  | drains (more : Nat)
  | closes
  | forever
  deriving DecidableEq, Repr

/-- What other tasks do during the call: `unregistered` says that the target goes after it
has been found registered. -/
structure Meanwhile where
  now : UInt64
  unregistered : Bool
  wait : Wait

/-- How a call ends; `none` if it waits for ever. -/
structure Outcome where
  router : IpcRouter
  result : Option (Except RuntimeError Unit)

def isExpired (now : UInt64) (message : A2AMessage) : Bool :=
  match message.ttlSecs with
  | some ttl => ttl.toNat * 1000 < now.toNat - message.timestamp.toNat
  | none => false

def Channel.push (channel : Channel) (message : A2AMessage) : Channel :=
  {channel with queue := channel.queue ++ [message]}

def Channel.HasRoom (channel : Channel) : Prop := channel.isOpen = true ∧ channel.queue.length < channel.capacity

instance hasRoomDecidable (channel : Channel) : Decidable channel.HasRoom := inferInstanceAs (Decidable (_ ∧ _))

/-- `Sender::send`, which waits while the channel is full. -/
def Channel.send (wait : Wait) (channel : Channel) (message : A2AMessage) :
    Channel × Option (Except RuntimeError Unit) :=
  if channel.isOpen = false then (channel,some (.error (.ipcError "agent channel closed")))
  else if channel.queue.length < channel.capacity then (channel.push message,some (.ok ()))
  else
    match wait with
    | .drains more => (Channel.push {channel with queue := channel.queue.drop (more + 1)} message,some (.ok ()))
    | .closes => ({channel with isOpen := false},some (.error (.ipcError "agent channel closed")))
    | .forever => (channel,none)

def Channel.trySend (channel : Channel) (message : A2AMessage) : Channel × Except RuntimeError Unit :=
  if channel.HasRoom then (channel.push message,.ok ())
  else (channel,.error (.ipcError "agent channel full or closed"))

def AgentHandle.set (handle : AgentHandle) (priority : MessagePriority) (channel : Channel) : AgentHandle :=
  ⟨Function.update handle.channel priority channel⟩

def AgentHandle.trySend (handle : AgentHandle) (message : A2AMessage) : AgentHandle × Except RuntimeError Unit :=
  let sent := (handle.channel message.priority).trySend message
  (handle.set message.priority sent.1,sent.2)

section Route
variable (transport : Transport) (meanwhile : Meanwhile)

/-- The errors of `try_send` are not looked at. -/
def broadcastMessage (agents : Table String AgentHandle) (message : A2AMessage) : Table String AgentHandle :=
  agents.entries.foldl (fun agents entry =>
    if message.source = entry.1 then agents
    else modify agents entry.1 (fun handle => (handle.trySend message).1)) agents

/-- `SimpleRouter::route_message`. -/
def routeLocal (router : IpcRouter) (message : A2AMessage) : Outcome :=
  if isExpired meanwhile.now message then ⟨router,some (.ok ())⟩
  else
    match message.target with
    | none => ⟨{router with agents := broadcastMessage router.agents message},some (.ok ())⟩
    | some target =>
      let agents := if meanwhile.unregistered then router.agents.erase target else router.agents
      match agents.lookup target with
      | none => ⟨{router with agents := agents},some (.error (.agentNotFound target))⟩
      | some handle =>
        let sent := (handle.channel message.priority).send meanwhile.wait message
        ⟨{router with agents := agents.insert target (handle.set message.priority sent.1)},sent.2⟩

def sendRemote (router : IpcRouter) (endpoint : String) (message : A2AMessage) : IpcRouter × Except RuntimeError Unit :=
  match transport.encode message with
  | .error error => (router,.error error)
  | .ok bytes =>
    match transport.createClient endpoint with
    | .error error => (router,.error error)
    | .ok () =>
      match transport.send endpoint bytes with
      | .error error => (router,.error error)
      | .ok () => ({router with frames := router.frames ++ [(endpoint,bytes)]},.ok ())

def publish (router : IpcRouter) (message : A2AMessage) : IpcRouter :=
  {router with published := router.published ++ [message]}

def routeMessage (router : IpcRouter) (message : A2AMessage) : Outcome :=
  let router := publish router message
  match message.target with
  | none => routeLocal meanwhile router message
  | some target =>
    if target ∈ router.agents then routeLocal meanwhile router message
    else
      match router.remoteEndpoints.lookup target with
      | some endpoint =>
        let sent := sendRemote transport router endpoint message
        ⟨sent.1,some sent.2⟩
      | none => ⟨router,some (.error (.agentNotFound target))⟩

/-- The call answers `Ok`, and not because the message is too old. -/
def Routed (router : IpcRouter) (message : A2AMessage) : Prop :=
  (routeMessage transport meanwhile router message).result = some (.ok ()) ∧ isExpired meanwhile.now message = false

structure AllOrNothing (router : IpcRouter) (message : A2AMessage) : Prop where
  published : (routeMessage transport meanwhile router message).router.published = router.published ++ [message] ∧
      Routed transport meanwhile router message ∨
    (routeMessage transport meanwhile router message).router.published = router.published ∧
      ¬Routed transport meanwhile router message
  expired : isExpired meanwhile.now message = true →
    (routeMessage transport meanwhile router message).router.agents = router.agents ∧
      (routeMessage transport meanwhile router message).router.frames = router.frames
  broadcast : message.target = none → isExpired meanwhile.now message = false →
    (routeMessage transport meanwhile router message).result = some (.ok ()) →
    ∀ agent handle, agent ≠ message.source → router.agents.lookup agent = some handle →
      ∃ later, (routeMessage transport meanwhile router message).router.agents.lookup agent = some later ∧
        (later.channel message.priority).queue = (handle.channel message.priority).queue ++ [message]

/-- The channel takes the message, at once or when its receiver has made room. -/
def Takes (wait : Wait) (channel : Channel) : Prop :=
  channel.isOpen = true ∧ (channel.queue.length < channel.capacity ∨ ∃ more, wait = .drains more)

/-- The message is in time, and everyone it is for can be reached. -/
def Reaches (router : IpcRouter) (message : A2AMessage) : Prop :=
  isExpired meanwhile.now message = false ∧
  match message.target with
  | none => ∀ agent handle, agent ≠ message.source → router.agents.lookup agent = some handle →
      (handle.channel message.priority).HasRoom
  | some target =>
    match router.agents.lookup target with
    | some handle => meanwhile.unregistered = false ∧ Takes meanwhile.wait (handle.channel message.priority)
    | none => ∃ endpoint bytes, router.remoteEndpoints.lookup target = some endpoint ∧
        transport.encode message = .ok bytes ∧ transport.createClient endpoint = .ok () ∧
        transport.send endpoint bytes = .ok ()

/-! One channel. -/

theorem send_ok_iff (wait : Wait) (channel : Channel) (message : A2AMessage) :
    (channel.send wait message).2 = some (.ok ()) ↔ Takes wait channel := by
  unfold Channel.send Takes
  split
  · rename_i gone
    simp [gone]
  · rename_i alive
    rw [Bool.not_eq_false] at alive
    split
    · rename_i room
      simp [alive,room]
    · rename_i full
      cases wait <;> simp [alive,full]

theorem send_queue (wait : Wait) (channel : Channel) (message : A2AMessage)
    (sent : (channel.send wait message).2 = some (.ok ())) :
    [message] <:+ (channel.send wait message).1.queue := by
  unfold Channel.send at sent ⊢
  split at sent
  · cases sent
  · rename_i alive
    rw [if_neg alive]
    split at sent
    · rename_i room
      rw [if_pos room]
      exact List.suffix_append channel.queue [message]
    · rename_i full
      rw [if_neg full]
      cases wait with
      | drains more => exact List.suffix_append (channel.queue.drop (more + 1)) [message]
      | closes => cases sent
      | forever => cases sent

theorem trySend_queue_iff (handle : AgentHandle) (message : A2AMessage) :
    ((handle.trySend message).1.channel message.priority).queue =
        (handle.channel message.priority).queue ++ [message] ↔ (handle.channel message.priority).HasRoom := by
  unfold AgentHandle.trySend AgentHandle.set Channel.trySend
  dsimp only
  rw [Function.update_self]
  split
  · rename_i room
    exact ⟨fun _ => room,fun _ => rfl⟩
  · rename_i full
    exact ⟨fun same => absurd (List.self_eq_append_right.mp same) (List.cons_ne_nil _ _),
      fun room => absurd room full⟩

theorem broadcast_lookup (agents : Table String AgentHandle) (message : A2AMessage) (agent : String) (handle : AgentHandle)
    (other : agent ≠ message.source) (found : agents.lookup agent = some handle) :
    (broadcastMessage agents message).lookup agent = some (handle.trySend message).1 := by
  have apart (rest : Table String AgentHandle) (k : String) (v : AgentHandle) (there : Option AgentHandle) (away : k ≠ agent)
      (same : rest.lookup agent = there) :
      (if message.source = k then rest else modify rest k (fun handle => (handle.trySend message).1)).lookup agent =
        there := by
    split
    · exact same
    · rw [lookup_modify,if_neg (Ne.symm away)]
      exact same
  apply foldl_entry _ agents agent handle found (fun rest : Table String AgentHandle => rest.lookup agent = some handle)
    (fun rest : Table String AgentHandle => rest.lookup agent = some (handle.trySend message).1)
  · exact fun rest k v away _ same => apart rest k v _ away same
  · intro rest same
    rw [if_neg (Ne.symm other),lookup_modify,if_pos rfl,same]
    rfl
  · exact fun rest k v away _ same => apart rest k v _ away same
  · exact found

/-! One call. -/

theorem routeLocal_published (router : IpcRouter) (message : A2AMessage) :
    (routeLocal meanwhile router message).router.published = router.published := by
  unfold routeLocal
  split
  · rfl
  · split
    · rfl
    · dsimp only
      split <;> rfl

theorem sendRemote_published (router : IpcRouter) (endpoint : String) (message : A2AMessage) :
    (sendRemote transport router endpoint message).1.published = router.published := by
  unfold sendRemote
  split
  · rfl
  · split
    · rfl
    · split <;> rfl

/-- The message is published, whatever becomes of it. -/
theorem route_published (router : IpcRouter) (message : A2AMessage) :
    (routeMessage transport meanwhile router message).router.published = router.published ++ [message] := by
  unfold routeMessage
  dsimp only
  split
  · exact routeLocal_published meanwhile (publish router message) message
  · split
    · exact routeLocal_published meanwhile (publish router message) message
    · split
      · exact sendRemote_published transport (publish router message) _ message
      · rfl

theorem sendRemote_ok_iff (router : IpcRouter) (endpoint : String) (message : A2AMessage) :
    (sendRemote transport router endpoint message).2 = .ok () ↔
      ∃ bytes, transport.encode message = .ok bytes ∧ transport.createClient endpoint = .ok () ∧
        transport.send endpoint bytes = .ok () := by
  unfold sendRemote
  cases encoded : transport.encode message with
  | error error => simp
  | ok bytes =>
    cases client : transport.createClient endpoint with
    | error error => simp
    | ok connected => cases sent : transport.send endpoint bytes <;> simp [sent]

/-- To one local agent. -/
theorem routeLocal_ok_iff (router : IpcRouter) (message : A2AMessage) (target : String) (handle : AgentHandle)
    (inTime : isExpired meanwhile.now message = false) (toOne : message.target = some target)
    (found : router.agents.lookup target = some handle) :
    (routeLocal meanwhile router message).result = some (.ok ()) ↔
      meanwhile.unregistered = false ∧ Takes meanwhile.wait (handle.channel message.priority) := by
  unfold routeLocal
  rw [if_neg (by simp [inTime]),toOne]
  dsimp only
  cases gone : meanwhile.unregistered with
  | true => simp [AList.lookup_erase]
  | false => simp [found,send_ok_iff]

theorem routed_iff (router : IpcRouter) (message : A2AMessage) :
    Routed transport meanwhile router message ↔ isExpired meanwhile.now message = false ∧
      match message.target with
      | none => True
      | some target =>
        match router.agents.lookup target with
        | some handle => meanwhile.unregistered = false ∧ Takes meanwhile.wait (handle.channel message.priority)
        | none => ∃ endpoint bytes, router.remoteEndpoints.lookup target = some endpoint ∧
            transport.encode message = .ok bytes ∧ transport.createClient endpoint = .ok () ∧
            transport.send endpoint bytes = .ok () := by
  rw [Routed,and_comm]
  refine and_congr_right fun inTime => ?_
  unfold routeMessage
  cases toOne : message.target with
  | none => simp [routeLocal,inTime,toOne]
  | some target =>
    dsimp only
    cases found : router.agents.lookup target with
    | some handle =>
      have present : target ∈ (publish router message).agents :=
        AList.lookup_isSome.mp (Option.isSome_iff_exists.mpr ⟨handle,found⟩)
      rw [if_pos present]
      exact routeLocal_ok_iff meanwhile (publish router message) message target handle inTime toOne found
    | none =>
      have absent : target ∉ (publish router message).agents := AList.lookup_eq_none.mp found
      rw [if_neg absent]
      change (match router.remoteEndpoints.lookup target with
        | some endpoint => _
        | none => _ : Outcome).result = _ ↔ _
      cases known : router.remoteEndpoints.lookup target with
      | none => simp
      | some endpoint => simp [sendRemote_ok_iff]

/-- A routed message with a target is the last in its queue, or a transport has taken it. -/
theorem routed_delivered (router : IpcRouter) (message : A2AMessage) (target : String)
    (toOne : message.target = some target) (routed : Routed transport meanwhile router message) :
    (∃ handle, (routeMessage transport meanwhile router message).router.agents.lookup target = some handle ∧
      [message] <:+ (handle.channel message.priority).queue) ∨
    ∃ endpoint bytes, transport.encode message = .ok bytes ∧
      (routeMessage transport meanwhile router message).router.frames = router.frames ++ [(endpoint,bytes)] := by
  obtain ⟨inTime,reached⟩ := (routed_iff transport meanwhile router message).mp routed
  rw [toOne] at reached
  dsimp only at reached
  unfold routeMessage
  rw [toOne]
  dsimp only
  cases found : router.agents.lookup target with
  | some handle =>
    rw [found] at reached
    have present : target ∈ (publish router message).agents :=
      AList.lookup_isSome.mp (Option.isSome_iff_exists.mpr ⟨handle,found⟩)
    have lookup : (publish router message).agents.lookup target = some handle := found
    left
    rw [if_pos present,routeLocal,if_neg (by simp [inTime]),toOne]
    dsimp only
    rw [reached.1,if_neg Bool.false_ne_true,lookup]
    refine ⟨_,AList.lookup_insert _,?_⟩
    change [message] <:+ (Function.update handle.channel message.priority _ message.priority).queue
    rw [Function.update_self]
    exact send_queue meanwhile.wait _ message ((send_ok_iff meanwhile.wait _ message).mpr reached.2)
  | none =>
    rw [found] at reached
    obtain ⟨endpoint,bytes,known,encoded,client,sent⟩ := reached
    have absent : target ∉ (publish router message).agents := AList.lookup_eq_none.mp found
    have endpointOf : (publish router message).remoteEndpoints.lookup target = some endpoint := known
    right
    refine ⟨endpoint,bytes,encoded,?_⟩
    rw [if_neg absent,endpointOf]
    simp [sendRemote,encoded,client,sent,publish]

theorem reaches_iff (router : IpcRouter) (message : A2AMessage) :
    Reaches transport meanwhile router message ↔
      Routed transport meanwhile router message ∧ (message.target = none →
        ∀ agent handle, agent ≠ message.source → router.agents.lookup agent = some handle →
          (handle.channel message.priority).HasRoom) := by
  rw [routed_iff,Reaches,and_assoc]
  refine and_congr_right fun _ => ?_
  cases message.target with
  | none => simp
  | some target => simp

theorem route_broadcast (router : IpcRouter) (message : A2AMessage) (toAll : message.target = none)
    (inTime : isExpired meanwhile.now message = false) :
    (routeMessage transport meanwhile router message).router.agents = broadcastMessage router.agents message := by
  simp [routeMessage,routeLocal,toAll,inTime,publish]

theorem reaches_of_all (router : IpcRouter) (message : A2AMessage)
    (all : AllOrNothing transport meanwhile router message) : Reaches transport meanwhile router message := by
  have routed : Routed transport meanwhile router message := by
    rcases all.published with ⟨-,routed⟩ | ⟨same,-⟩
    · exact routed
    · rw [route_published] at same
      exact absurd (List.self_eq_append_right.mp same.symm) (List.cons_ne_nil _ _)
  refine (reaches_iff transport meanwhile router message).mpr ⟨routed,fun toAll agent handle other found => ?_⟩
  obtain ⟨later,present,queued⟩ := all.broadcast toAll routed.2 routed.1 agent handle other found
  rw [route_broadcast transport meanwhile router message toAll routed.2,
    broadcast_lookup router.agents message agent handle other found] at present
  cases present
  exact (trySend_queue_iff handle message).mp queued

/-- Routing is all or nothing exactly where the message is in time and everyone it is for
can be reached. -/
theorem all_or_nothing_iff (router : IpcRouter) (message : A2AMessage) :
    AllOrNothing transport meanwhile router message ↔ Reaches transport meanwhile router message := by
  refine ⟨reaches_of_all transport meanwhile router message,fun reaches => ?_⟩
  obtain ⟨routed,room⟩ := (reaches_iff transport meanwhile router message).mp reaches
  constructor
  · exact .inl ⟨route_published transport meanwhile router message,routed⟩
  · intro late
    rw [routed.2] at late
    cases late
  · intro toAll inTime _ agent handle other found
    refine ⟨_,?_,(trySend_queue_iff handle message).mpr (room toAll agent handle other found)⟩
    rw [route_broadcast transport meanwhile router message toAll inTime]
    exact broadcast_lookup router.agents message agent handle other found

end Route

/-! An unknown target, an old message for a remote agent, and a broadcast to a full agent. -/

def heartbeat (target : Option String) (ttlSecs : Option UInt32) : A2AMessage where
  id := "msg-001"
  source := "sender"
  target := target
  messageType := .heartbeat
  payload := .heartbeat .active
  priority := .normal
  correlationId := none
  timestamp := 0
  ttlSecs := ttlSecs

def anyTransport : Transport where
  encode message := .ok (encodeMessage message)
  createClient _ := .ok ()
  send _ _ := .ok ()

def aMinuteLater : Meanwhile := ⟨60000,false,.forever⟩

def oneFullAgent : IpcRouter where
  agents := AList.singleton "full" ⟨fun _ => ⟨[heartbeat none none],1,true⟩⟩
  remoteEndpoints := AList.singleton "remote" "/tmp/remote.sock"
  published := []
  frames := []

theorem published_not_routed :
    ((routeMessage anyTransport aMinuteLater oneFullAgent (heartbeat (some "nobody") none)).result =
        some (.error (.agentNotFound "nobody")) ∧
      (routeMessage anyTransport aMinuteLater oneFullAgent (heartbeat (some "nobody") none)).router.published.length = 1) ∧
    (isExpired aMinuteLater.now (heartbeat (some "remote") (some 1)) = true ∧
      (routeMessage anyTransport aMinuteLater oneFullAgent (heartbeat (some "remote") (some 1))).router.frames.length = 1) ∧
    (routeMessage anyTransport aMinuteLater oneFullAgent (heartbeat none none)).result = some (.ok ()) ∧
    ¬AllOrNothing anyTransport aMinuteLater oneFullAgent (heartbeat (some "nobody") none) ∧
    ¬AllOrNothing anyTransport aMinuteLater oneFullAgent (heartbeat (some "remote") (some 1)) ∧
    ¬AllOrNothing anyTransport aMinuteLater oneFullAgent (heartbeat none none) := by
  have nobody : (routeMessage anyTransport aMinuteLater oneFullAgent (heartbeat (some "nobody") none)).result =
      some (.error (.agentNotFound "nobody")) := rfl
  have old : isExpired aMinuteLater.now (heartbeat (some "remote") (some 1)) = true := by decide
  have full : ¬Channel.HasRoom ⟨[heartbeat none none],1,true⟩ := by decide
  refine ⟨⟨nobody,?_⟩,⟨old,rfl⟩,rfl,fun all => ?_,fun all => ?_,fun all => ?_⟩
  · rw [route_published]
    rfl
  · have reaches := reaches_of_all _ _ _ _ all
    have routed := ((reaches_iff _ _ _ _).mp reaches).1
    rw [Routed,nobody] at routed
    cases routed.1
  · have reaches := reaches_of_all _ _ _ _ all
    rw [Reaches,old] at reaches
    cases reaches.1
  · have reaches := reaches_of_all _ _ _ _ all
    exact full (reaches.2 "full" _ (by decide) rfl)

end ClawKernel.A2A.Routing
