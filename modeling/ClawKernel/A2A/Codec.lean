import ClawKernel.A2A.Priority
import ClawKernel.Lib.Serde

/-! Messages between agents and their JSON, as `encode_message` and `decode_message` have it.
The text is written here; reading it back into a tree is the parameter `fromSlice`.
-/
namespace ClawKernel.A2A.Codec
open Lib Lib.Serde
open Priority (MessagePriority)

inductive A2AMessageType where
  | request
  | response
  | event
  | discoveryRequest
  | discoveryResponse
  | heartbeat
  | error
  deriving DecidableEq, Repr

inductive ResponseStatus where
  | success
  | part
  | failure
  deriving DecidableEq, Repr

inductive AgentStatus where
  | active
  | idle
  | busy
  | shuttingDown
  deriving DecidableEq, Repr

structure AgentCapability where
  name : String
  version : String
  description : Option String
  metadata : HashMap String

inductive A2AMessagePayload where
  | request (action : String) (extra : HashMap Any)
  | response (status : ResponseStatus) (result : Any)
  | event (eventType : String) (data : Any)
  | discoveryRequest (query : Option String)
  | discoveryResponse (capabilities : List AgentCapability) (metadata : Option (HashMap String))
  | heartbeat (status : AgentStatus)
  | error (code message : String)

structure A2AMessage where
  id : String
  source : String
  target : Option String
  messageType : A2AMessageType
  payload : A2AMessagePayload
  priority : MessagePriority
  correlationId : Option String
  timestamp : UInt64
  ttlSecs : Option UInt32

/-! The names of the variants. -/

def A2AMessageType.name : A2AMessageType → String
  | .request => "REQUEST"
  | .response => "RESPONSE"
  | .event => "EVENT"
  | .discoveryRequest => "DISCOVERY_REQUEST"
  | .discoveryResponse => "DISCOVERY_RESPONSE"
  | .heartbeat => "HEARTBEAT"
  | .error => "ERROR"

def messageTypes : List (String × A2AMessageType) :=
  [.request,.response,.event,.discoveryRequest,.discoveryResponse,.heartbeat,.error].map
    (fun messageType => (messageType.name,messageType))

def priorityName : MessagePriority → String
  | .critical => "CRITICAL"
  | .high => "HIGH"
  | .normal => "NORMAL"
  | .low => "LOW"
  | .background => "BACKGROUND"

def priorities : List (String × MessagePriority) :=
  MessagePriority.all.map (fun priority => (priorityName priority,priority))

def ResponseStatus.name : ResponseStatus → String
  | .success => "success"
  | .part => "partial"
  | .failure => "failure"

def responseStatuses : List (String × ResponseStatus) :=
  [.success,.part,.failure].map (fun status => (status.name,status))

def AgentStatus.name : AgentStatus → String
  | .active => "active"
  | .idle => "idle"
  | .busy => "busy"
  | .shuttingDown => "shutting_down"

def agentStatuses : List (String × AgentStatus) :=
  [.active,.idle,.busy,.shuttingDown].map (fun status => (status.name,status))

/-! Writing. -/

def orNull {α : Type} (write : α → Json.Value) : Option α → Json.Value
  | none => .null
  | some value => write value

def AgentCapability.toTree (capability : AgentCapability) : Json.Value :=
  .object [("name",.string capability.name),("version",.string capability.version),
    ("description",orNull .string capability.description),("metadata",.object (members .string capability.metadata))]

/-- A variant with its content beside its name. -/
def beside (variant : String) (content : List (String × Json.Value)) : Json.Value :=
  .object [("type",.string variant),("data",.object content)]

def A2AMessagePayload.toTree : A2AMessagePayload → Json.Value
  | .request action extra => beside "request" (("action",.string action) :: members Any.tree extra)
  | .response status result => beside "response" [("status",.string status.name),("result",result.tree)]
  | .event eventType data => beside "event" [("event_type",.string eventType),("data",data.tree)]
  | .discoveryRequest query => beside "discovery_request" [("query",orNull .string query)]
  | .discoveryResponse capabilities metadata =>
    beside "discovery_response" [("capabilities",.array (capabilities.map AgentCapability.toTree)),
      ("metadata",orNull (fun entries => .object (members .string entries)) metadata)]
  | .heartbeat status => beside "heartbeat" [("status",.string status.name)]
  | .error code message => beside "error" [("code",.string code),("message",.string message)]

def A2AMessage.members (m : A2AMessage) : List (String × Json.Value) :=
  [("id",.string m.id),("source",.string m.source),("target",orNull .string m.target),
    ("message_type",.string m.messageType.name),("payload",m.payload.toTree),
    ("priority",.string (priorityName m.priority)),("correlation_id",orNull .string m.correlationId),
    ("timestamp",.integer m.timestamp.toNat),
    ("ttl_secs",orNull (fun secs => .integer (UInt32.toNat secs)) m.ttlSecs)]

def A2AMessage.toTree (m : A2AMessage) : Json.Value := .object m.members

def encodeMessage (m : A2AMessage) : List UInt8 := m.toTree.text.toUTF8.toList

/-! Reading. The content of a variant is an object. -/

def agentCapability : Decoder AgentCapability := fun tree => do
  let field ← fields ["name","version","description","metadata"] tree
  let name ← (field "name").bind text
  let version ← (field "version").bind text
  let description ← missable text (field "description")
  let metadata ← (field "metadata").bind (hashMap text)
  return ⟨name,version,description,metadata⟩

def response : Decoder A2AMessagePayload := fun tree => do
  let field ← named ["status","result"] tree
  let status ← (field "status").bind (variant responseStatuses)
  let result ← (field "result").bind any
  return .response status result

def event : Decoder A2AMessagePayload := fun tree => do
  let field ← named ["event_type","data"] tree
  let eventType ← (field "event_type").bind text
  let data ← (field "data").bind any
  return .event eventType data

def discoveryRequest : Decoder A2AMessagePayload := fun tree => do
  let field ← named ["query"] tree
  let query ← missable text (field "query")
  return .discoveryRequest query

def discoveryResponse : Decoder A2AMessagePayload := fun tree => do
  let field ← named ["capabilities","metadata"] tree
  let capabilities ← (field "capabilities").bind (list agentCapability)
  let metadata ← missable (hashMap text) (field "metadata")
  return .discoveryResponse capabilities metadata

def heartbeat : Decoder A2AMessagePayload := fun tree => do
  let field ← named ["status"] tree
  let status ← (field "status").bind (variant agentStatuses)
  return .heartbeat status

def error : Decoder A2AMessagePayload := fun tree => do
  let field ← named ["code","message"] tree
  let code ← (field "code").bind text
  let message ← (field "message").bind text
  return .error code message

def request : Decoder A2AMessagePayload := fun tree =>
  (flattened "action" text any tree).map (fun read => .request read.1 read.2)

def contents : List (String × Decoder A2AMessagePayload) :=
  [("request",request),("response",response),("event",event),("discovery_request",discoveryRequest),
    ("discovery_response",discoveryResponse),("heartbeat",heartbeat),("error",error)]

def payload : Decoder A2AMessagePayload := fun tree => do
  let field ← fields ["type","data"] tree
  let content ← (field "type").bind (variant contents)
  (field "data").bind content

def message : Decoder A2AMessage := fun tree => do
  let field ← fields ["id","source","target","message_type","payload","priority","correlation_id","timestamp",
    "ttl_secs"] tree
  let id ← (field "id").bind text
  let source ← (field "source").bind text
  let target ← missable text (field "target")
  let messageType ← (field "message_type").bind (variant messageTypes)
  let payload ← (field "payload").bind payload
  let priority ← (field "priority").bind (variant priorities)
  let correlationId ← missable text (field "correlation_id")
  let timestamp ← (field "timestamp").bind (unsigned 64)
  let ttlSecs ← missable (unsigned 32) (field "ttl_secs")
  return ⟨id,source,target,messageType,payload,priority,correlationId,.ofNat timestamp,ttlSecs.map .ofNat⟩

/-- `none` where it answers with an error. -/
def decodeMessage (fromSlice : List UInt8 → Option Json.Value) (bytes : List UInt8) : Option A2AMessage :=
  (fromSlice bytes).bind message

/-! What is written is read back. -/

theorem orNull_text (value : Option String) : missable text (some (orNull .string value)) = some value := by
  cases value with
  | none => rfl
  | some text => rfl

theorem agentCapability_eq (capability : AgentCapability) : agentCapability capability.toTree = some capability := by
  have back := hashMap_eq .string text capability.metadata (fun _ => rfl)
  unfold agentCapability AgentCapability.toTree
  rw [fields_eq]
  · simp only [List.lookup_cons,String.reduceBEq,Option.bind_some,Option.bind_eq_bind,text,orNull_text,back]
    rfl
  · exact (by decide : ["name","version","description","metadata"].Nodup)

theorem messageType_eq (messageType : A2AMessageType) : variant messageTypes (.string messageType.name) =
    some messageType := by
  cases messageType <;> rfl

theorem priority_eq (priority : MessagePriority) : variant priorities (.string (priorityName priority)) =
    some priority := by
  cases priority <;> rfl

theorem responseStatus_eq (status : ResponseStatus) : variant responseStatuses (.string status.name) = some status := by
  cases status <;> rfl

theorem agentStatus_eq (status : AgentStatus) : variant agentStatuses (.string status.name) = some status := by
  cases status <;> rfl

/-- The payloads whose map names the field it is flattened beside. -/
def Clashes : A2AMessagePayload → Prop
  | .request _ extra => "action" ∈ keys extra.entries
  | _ => False

instance : DecidablePred Clashes
  | .request _ extra => inferInstanceAs (Decidable ("action" ∈ keys extra.entries))
  | .response .. => inferInstanceAs (Decidable False)
  | .event .. => inferInstanceAs (Decidable False)
  | .discoveryRequest _ => inferInstanceAs (Decidable False)
  | .discoveryResponse .. => inferInstanceAs (Decidable False)
  | .heartbeat _ => inferInstanceAs (Decidable False)
  | .error .. => inferInstanceAs (Decidable False)

theorem beside_eq (name : String) (content : List (String × Json.Value)) (decode : Decoder A2AMessagePayload)
    (known : contents.lookup name = some decode) : payload (beside name content) = decode (.object content) := by
  unfold payload beside
  rw [fields_eq]
  · simp only [List.lookup_cons,String.reduceBEq,Option.bind_some,Option.bind_eq_bind,variant,known]
  · exact (by decide : ["type","data"].Nodup)

theorem request_eq (action : String) (extra : HashMap Any) :
    request (.object (("action",.string action) :: members Any.tree extra)) =
      if "action" ∈ keys extra.entries then none else some (.request action extra) := by
  have read := flattened_eq "action" text any .string Any.tree action extra rfl any_eq
  rw [request,read]
  split
  · rfl
  · rfl

theorem response_eq (status : ResponseStatus) (result : Any) :
    response (.object [("status",.string status.name),("result",result.tree)]) = some (.response status result) := by
  unfold response
  rw [named_eq]
  · simp only [List.lookup_cons,String.reduceBEq,Option.bind_some,Option.bind_eq_bind,responseStatus_eq,any_eq]
    rfl
  · exact (by decide : ["status","result"].Nodup)

theorem event_eq (eventType : String) (data : Any) :
    event (.object [("event_type",.string eventType),("data",data.tree)]) = some (.event eventType data) := by
  unfold event
  rw [named_eq]
  · simp only [List.lookup_cons,String.reduceBEq,Option.bind_some,Option.bind_eq_bind,text,any_eq]
    rfl
  · exact (by decide : ["event_type","data"].Nodup)

theorem discoveryRequest_eq (query : Option String) :
    discoveryRequest (.object [("query",orNull .string query)]) = some (.discoveryRequest query) := by
  unfold discoveryRequest
  rw [named_eq]
  · simp only [List.lookup_cons,String.reduceBEq,Option.bind_some,Option.bind_eq_bind,orNull_text]
    rfl
  · exact (by decide : ["query"].Nodup)

theorem discoveryResponse_eq (capabilities : List AgentCapability) (metadata : Option (HashMap String)) :
    discoveryResponse (.object [("capabilities",.array (capabilities.map AgentCapability.toTree)),
      ("metadata",orNull (fun entries => .object (members .string entries)) metadata)]) =
      some (.discoveryResponse capabilities metadata) := by
  have listed : list agentCapability (.array (capabilities.map AgentCapability.toTree)) = some capabilities :=
    mapM_eq AgentCapability.toTree agentCapability capabilities (fun capability _ => agentCapability_eq capability)
  have mapped : missable (hashMap text) (some (orNull (fun entries => .object (members .string entries)) metadata)) =
      some metadata := by
    cases metadata with
    | none => rfl
    | some entries =>
      change (hashMap text (.object (members .string entries))).map some = _
      rw [hashMap_eq .string text entries (fun _ => rfl),Option.map_some]
  unfold discoveryResponse
  rw [named_eq]
  · simp only [List.lookup_cons,String.reduceBEq,Option.bind_some,Option.bind_eq_bind,listed,mapped]
    rfl
  · exact (by decide : ["capabilities","metadata"].Nodup)

theorem heartbeat_eq (status : AgentStatus) :
    heartbeat (.object [("status",.string status.name)]) = some (.heartbeat status) := by
  unfold heartbeat
  rw [named_eq]
  · simp only [List.lookup_cons,String.reduceBEq,Option.bind_some,Option.bind_eq_bind,agentStatus_eq]
    rfl
  · exact (by decide : ["status"].Nodup)

theorem error_eq (code text : String) :
    error (.object [("code",.string code),("message",.string text)]) = some (.error code text) := by
  unfold error
  rw [named_eq]
  · simp only [List.lookup_cons,String.reduceBEq,Option.bind_some,Option.bind_eq_bind,Serde.text]
    rfl
  · exact (by decide : ["code","message"].Nodup)

theorem payload_eq (content : A2AMessagePayload) :
    payload content.toTree = if Clashes content then none else some content := by
  cases content with
  | request action extra => exact (beside_eq "request" _ request rfl).trans (request_eq action extra)
  | response status result => exact (beside_eq "response" _ response rfl).trans (response_eq status result)
  | event eventType data => exact (beside_eq "event" _ event rfl).trans (event_eq eventType data)
  | discoveryRequest query =>
    exact (beside_eq "discovery_request" _ discoveryRequest rfl).trans (discoveryRequest_eq query)
  | discoveryResponse capabilities metadata =>
    exact (beside_eq "discovery_response" _ discoveryResponse rfl).trans (discoveryResponse_eq capabilities metadata)
  | heartbeat status => exact (beside_eq "heartbeat" _ heartbeat rfl).trans (heartbeat_eq status)
  | error code message => exact (beside_eq "error" _ error rfl).trans (error_eq code message)

theorem ttl_eq (secs : Option UInt32) :
    missable (unsigned 32) (some (orNull (fun secs => .integer (UInt32.toNat secs)) secs)) =
      some (secs.map UInt32.toNat) := by
  cases secs with
  | none => rfl
  | some secs =>
    change (unsigned 32 (.integer secs.toNat)).map some = _
    rw [unsigned_eq 32 secs.toNat secs.toNat_lt]
    rfl

theorem members_distinct (m : A2AMessage) : (keys m.members).Nodup :=
  (by decide : ["id","source","target","message_type","payload","priority","correlation_id","timestamp",
    "ttl_secs"].Nodup)

/-- A field that stands among the members is read, and what follows goes on with it. -/
theorem reads {α β : Type} (m : A2AMessage) (name : String) (tree : Json.Value) (decode : Option Json.Value → Option α)
    (value : α) (rest : α → Option β) (result : Option β) (member : (name,tree) ∈ m.members)
    (found : decode (some tree) = some value) (later : rest value = result) :
    (decode (m.members.lookup name)).bind rest = result := by
  rw [lookup_of_mem m.members (members_distinct m) name tree member,found]
  exact later

theorem message_eq (m : A2AMessage) : message m.toTree = if Clashes m.payload then none else some m := by
  have ttl : (m.ttlSecs.map UInt32.toNat).map UInt32.ofNat = m.ttlSecs := by
    cases m.ttlSecs with
    | none => rfl
    | some secs => exact congrArg some UInt32.ofNat_toNat
  unfold message A2AMessage.toTree
  rw [fields_eq _ _ (members_distinct m),Option.bind_eq_bind,Option.bind_some]
  apply reads m "id" (.string m.id) (fun tree => tree.bind text) m.id
  · simp [A2AMessage.members]
  · rfl
  apply reads m "source" (.string m.source) (fun tree => tree.bind text) m.source
  · simp [A2AMessage.members]
  · rfl
  apply reads m "target" (orNull .string m.target) (missable text) m.target
  · simp [A2AMessage.members]
  · exact orNull_text m.target
  apply reads m "message_type" (.string m.messageType.name) (fun tree => tree.bind (variant messageTypes)) m.messageType
  · simp [A2AMessage.members]
  · exact messageType_eq m.messageType
  by_cases clash : Clashes m.payload
  · have found : m.members.lookup "payload" = some m.payload.toTree :=
      lookup_of_mem m.members (members_distinct m) "payload" m.payload.toTree (by simp [A2AMessage.members])
    have refused : (m.members.lookup "payload").bind payload = none := by
      rw [found,Option.bind_some,payload_eq,if_pos clash]
    rw [if_pos clash]
    change ((m.members.lookup "payload").bind payload).bind _ = none
    rw [refused]
    rfl
  rw [if_neg clash]
  apply reads m "payload" m.payload.toTree (fun tree => tree.bind payload) m.payload
  · simp [A2AMessage.members]
  · exact (payload_eq m.payload).trans (if_neg clash)
  apply reads m "priority" (.string (priorityName m.priority)) (fun tree => tree.bind (variant priorities)) m.priority
  · simp [A2AMessage.members]
  · exact priority_eq m.priority
  apply reads m "correlation_id" (orNull .string m.correlationId) (missable text) m.correlationId
  · simp [A2AMessage.members]
  · exact orNull_text m.correlationId
  apply reads m "timestamp" (.integer m.timestamp.toNat) (fun tree => tree.bind (unsigned 64)) m.timestamp.toNat
  · simp [A2AMessage.members]
  · rw [Option.bind_some]
    exact unsigned_eq 64 m.timestamp.toNat m.timestamp.toNat_lt
  apply reads m "ttl_secs" (orNull (fun secs => .integer (UInt32.toNat secs)) m.ttlSecs) (missable (unsigned 32))
    (m.ttlSecs.map UInt32.toNat)
  · simp [A2AMessage.members]
  · exact ttl_eq m.ttlSecs
  rw [ttl,UInt64.ofNat_toNat]
  rfl

/-! Equality of messages, which sees no order in a map. -/

structure AgentCapability.Same (capability other : AgentCapability) : Prop where
  name : capability.name = other.name
  version : capability.version = other.version
  description : capability.description = other.description
  metadata : capability.metadata.Same other.metadata

inductive A2AMessagePayload.Same : A2AMessagePayload → A2AMessagePayload → Prop where
  | request (action : String) (extra other : HashMap Any) : extra.Same other →
    Same (.request action extra) (.request action other)
  | response (status : ResponseStatus) (result : Any) : Same (.response status result) (.response status result)
  | event (eventType : String) (data : Any) : Same (.event eventType data) (.event eventType data)
  | discoveryRequest (query : Option String) : Same (.discoveryRequest query) (.discoveryRequest query)
  | discoveryResponse (capabilities others : List AgentCapability) (metadata other : Option (HashMap String)) :
    List.Forall₂ AgentCapability.Same capabilities others → Option.Rel HashMap.Same metadata other →
    Same (.discoveryResponse capabilities metadata) (.discoveryResponse others other)
  | heartbeat (status : AgentStatus) : Same (.heartbeat status) (.heartbeat status)
  | error (code message : String) : Same (.error code message) (.error code message)

structure A2AMessage.Same (m other : A2AMessage) : Prop where
  payload : m.payload.Same other.payload
  rest : { m with payload := other.payload } = other

theorem AgentCapability.same_refl (capability : AgentCapability) : capability.Same capability :=
  ⟨rfl,rfl,rfl,fun _ => rfl⟩

theorem A2AMessagePayload.same_refl (content : A2AMessagePayload) : content.Same content := by
  cases content with
  | request action extra => exact .request action extra extra (fun _ => rfl)
  | response status result => exact .response status result
  | event eventType data => exact .event eventType data
  | discoveryRequest query => exact .discoveryRequest query
  | discoveryResponse capabilities metadata =>
    apply A2AMessagePayload.Same.discoveryResponse
    · exact List.forall₂_same.mpr (fun capability _ => capability.same_refl)
    · cases metadata with
      | none => exact .none
      | some entries => exact .some (fun _ => rfl)
  | heartbeat status => exact .heartbeat status
  | error code message => exact .error code message

/-- Where the text is read back as the tree it was written from: a message survives unless
the map of a request holds an `action` of its own. -/
theorem decode_encode_iff (fromSlice : List UInt8 → Option Json.Value) (m : A2AMessage)
    (faithful : fromSlice (encodeMessage m) = some m.toTree) :
    (∃ decoded, decodeMessage fromSlice (encodeMessage m) = some decoded ∧ decoded.Same m) ↔
      ∀ action extra, m.payload = .request action extra → "action" ∉ keys extra.entries := by
  have read : decodeMessage fromSlice (encodeMessage m) = if Clashes m.payload then none else some m := by
    rw [decodeMessage,faithful,Option.bind_some,message_eq]
  rw [read]
  constructor
  · intro survives action extra own clash
    obtain ⟨decoded,found,_⟩ := survives
    have clashes : Clashes m.payload := by
      rw [own]
      exact clash
    rw [if_pos clashes] at found
    cases found
  · intro apart
    have fine : ¬Clashes m.payload := by
      cases content : m.payload with
      | request action extra => exact apart action extra content
      | _ => exact id
    rw [if_neg fine]
    exact ⟨m,rfl,m.payload.same_refl,rfl⟩

/-- A request for a task, with a parameter of its own under the given name. -/
def asking (parameter : String) : A2AMessage where
  id := "msg-001"
  source := "sender"
  target := some "receiver"
  messageType := .request
  payload := .request "run" (HashMap.empty.insert (parameter,⟨.string "stop",True.intro⟩))
  priority := .normal
  correlationId := none
  timestamp := 0
  ttlSecs := none

/-- The parser on the text of one message. -/
def readsOnly (m : A2AMessage) (bytes : List UInt8) : Option Json.Value :=
  if bytes = encodeMessage m then some m.toTree else none

theorem decode_encode_target :
    ∃ decoded, decodeMessage (readsOnly (asking "target")) (encodeMessage (asking "target")) = some decoded ∧
      decoded.Same (asking "target") := by
  apply (decode_encode_iff (readsOnly (asking "target")) (asking "target") (if_pos rfl)).mpr
  intro action extra own
  cases own
  decide

theorem action_parameter_lost :
    decodeMessage (readsOnly (asking "action")) (encodeMessage (asking "action")) = none := by
  have read : readsOnly (asking "action") (encodeMessage (asking "action")) = some (asking "action").toTree := if_pos rfl
  rw [decodeMessage,read,Option.bind_some,message_eq]
  exact if_pos (by decide : "action" ∈ ["action"])

end ClawKernel.A2A.Codec
