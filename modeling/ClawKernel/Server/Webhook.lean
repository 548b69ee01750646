import Mathlib.Data.List.Basic
import ClawKernel.Lib.Tables

/-! `AxumWebhookServer`: registered endpoints and how a request is admitted to the handler of
one. SHA-256 is the parameter `digest`; instants are milliseconds.
-/
namespace ClawKernel.Server.Webhook
open Lib.Tables

inductive HttpMethod where
  | post
  | put
  | patch
  | get
  deriving DecidableEq, Repr

inductive HmacConfig where
  | none
  | sha256 (secret header : String) (sigPrefix : Option String)
  deriving DecidableEq, Repr

/-- The handler runs the inbound pipeline of its trigger for its target. -/
structure EndpointConfig where
  path : String
  methods : List HttpMethod
  triggerId : String
  target : String
  hmac : HmacConfig
  maxBodySize : Nat
  maxRequestsPerMinute : Nat
  deriving DecidableEq, Repr

def EndpointConfig.new (path triggerId target : String) : EndpointConfig where
  path := path
  methods := [.post]
  triggerId := triggerId
  target := target
  hmac := .none
  maxBodySize := 10 * 1024 * 1024
  maxRequestsPerMinute := 100

def EndpointConfig.withHmacSha256 (config : EndpointConfig) (secret header : String) : EndpointConfig :=
  { config with hmac := .sha256 secret header (some "sha256=") }

/-- What an endpoint counts: requests of the current minute with its start, and request ids seen. -/
structure Counters where
  rate : Nat × Nat
  dedupCache : Table String Nat

structure EndpointState where
  config : EndpointConfig
  counters : Counters

/-- A header value that is not visible ASCII is `none`. -/
structure Request where
  path : String
  method : String
  headers : List (String × Option String)
  body : List UInt8
  deriving DecidableEq, Repr

/-- What a handler answers. -/
structure WebhookResponse where
  status : Nat
  headers : List (String × String)
  body : List UInt8
  deriving DecidableEq, Repr

def WebhookResponse.json (text : String) : WebhookResponse :=
  ⟨200,[("content-type","application/json")],text.toUTF8.toList⟩

def WebhookResponse.error (status : Nat) (message : String) : WebhookResponse := ⟨status,[],message.toUTF8.toList⟩

inductive Response where
  | notFound
  | payloadTooLarge
  | unauthorized (message : String)
  | tooManyRequests
  | duplicate
  | handled (triggerId target : String)
  deriving DecidableEq, Repr

def convertMethod (method : String) : Option HttpMethod :=
  if method = "GET" then some .get
  else if method = "POST" then some .post
  else if method = "PUT" then some .put
  else if method = "PATCH" then some .patch
  else none

/-- `to_lowercase` on header names, which are ASCII. -/
def lowercase (text : String) : String := String.ofList (text.toList.map Char.toLower)

/-- The last legible value under a name, as the header map keeps it. -/
def headerValue (headers : List (String × Option String)) (name : String) : Option String :=
  (headers.reverse.find? (fun header => lowercase header.1 == name && header.2.isSome)).bind Prod.snd

def stripPrefix (start text : String) : Option String :=
  if start.toList <+: text.toList then some (String.ofList (text.toList.drop start.length)) else none

def hexValue (c : Char) : Option Nat :=
  if '0' ≤ c ∧ c ≤ '9' then some (c.toNat - 48)
  else if 'a' ≤ c ∧ c ≤ 'f' then some (c.toNat - 87)
  else if 'A' ≤ c ∧ c ≤ 'F' then some (c.toNat - 55)
  else none

/-- `u8::from_str_radix` of two characters; it takes a leading plus sign. -/
def hexPair (c d : Char) : Option UInt8 :=
  if c = '+' then (hexValue d).map UInt8.ofNat
  else (hexValue c).bind (fun high => (hexValue d).map (fun low => UInt8.ofNat (16 * high + low)))

def hexDecode : List Char → Option (List UInt8)
  | [] => some []
  | [_] => none
  | c :: d :: rest => (hexPair c d).bind (fun byte => (hexDecode rest).map (byte :: ·))

section Server
variable (digest : List UInt8 → List UInt8)

def computeHmacSha256 (secret : String) (body : List UInt8) : List UInt8 :=
  let key := secret.toUTF8.toList
  let short := if key.length > 64 then digest key else key
  let padded := short ++ List.replicate (64 - short.length) 0
  digest (padded.map (· ^^^ 0x5c) ++ digest (padded.map (· ^^^ 0x36) ++ body))

/-- The error's text, `none` where the signature is the body's. -/
def verifyHmacSha256 (secret : String) (body : List UInt8) (signature : String) : Option String :=
  if body.isEmpty then some "request body is empty"
  else
    match hexDecode ((stripPrefix "sha256=" signature).getD signature).toList with
    | none => some "invalid signature format"
    | some bytes => if bytes = computeHmacSha256 digest secret body then none else some "HMAC verification failed"

/-- The HMAC check of `process_webhook`: the refusal it answers with, if any. -/
def checkSignature (config : EndpointConfig) (request : Request) : Option String :=
  match config.hmac with
  | .none => none
  | .sha256 secret header sigPrefix =>
    match (headerValue request.headers (lowercase header)).filter (fun value => value ≠ "") with
    | none => some "Missing HMAC signature"
    | some value =>
      match sigPrefix with
      | none => verifyHmacSha256 digest secret request.body value
      | some start =>
        match stripPrefix start value with
        | none => some "Invalid HMAC signature format"
        | some signature => verifyHmacSha256 digest secret request.body signature

def countRequest (now limit : Nat) (rate : Nat × Nat) : Option (Nat × Nat) :=
  if now - rate.2 ≥ 60000 then some (1,now)
  else if rate.1 ≥ limit then none
  else some (rate.1 + 1,rate.2)

def evict (now : Nat) (seen : Table String Nat) : Table String Nat :=
  seen.entries.foldl (fun t entry => if now - entry.2 < 60000 then t else t.erase entry.1) seen

/-- Whether the request repeats an id of the last minute, and the cache afterwards. -/
def deduplicate (now : Nat) (seen : Table String Nat) (request : Request) : Bool × Table String Nat :=
  match headerValue request.headers "x-request-id" with
  | none => (false,seen)
  | some id =>
    let recent := evict now seen
    if id ∈ recent then (true,recent) else (false,recent.insert id now)

/-- `process_webhook` from the found endpoint on. -/
def accept (now : Nat) (state : EndpointState) (request : Request) : Counters × Response :=
  match (convertMethod request.method).filter (fun method => method ∈ state.config.methods) with
  | none => (state.counters,.notFound)
  | some _ =>
    if request.body.length > state.config.maxBodySize then (state.counters,.payloadTooLarge)
    else
      match checkSignature digest state.config request with
      | some message => (state.counters,.unauthorized message)
      | none =>
        match countRequest now state.config.maxRequestsPerMinute state.counters.rate with
        | none => (state.counters,.tooManyRequests)
        | some rate =>
          let (repeated,cache) := deduplicate now state.counters.dedupCache request
          (⟨rate,cache⟩,if repeated then .duplicate else .handled state.config.triggerId state.config.target)

def processWebhook (now : Nat) (endpoints : Table String EndpointState) (request : Request) :
    Table String EndpointState × Response :=
  match endpoints.lookup request.path with
  | none => (endpoints,.notFound)
  | some state =>
    let (counters,response) := accept digest now state request
    (modify endpoints request.path (fun entry => { entry with counters := counters }),response)

end Server

/-- `register`: `none` where the path is taken. -/
def register (now : Nat) (endpoints : Table String EndpointState) (config : EndpointConfig) :
    Option (Table String EndpointState) :=
  if config.path ∈ endpoints then none else some (endpoints.insert config.path ⟨config,(0,now),∅⟩)

theorem accept_handled (digest : List UInt8 → List UInt8) (now : Nat) (state : EndpointState) (request : Request)
    (triggerId target : String) (handled : (accept digest now state request).2 = .handled triggerId target) :
    state.config.triggerId = triggerId ∧ state.config.target = target := by
  simp only [accept] at handled
  split at handled
  · cases handled
  · split at handled
    · cases handled
    · split at handled
      · cases handled
      · split at handled
        · cases handled
        · dsimp only at handled
          split at handled
          · cases handled
          · exact Response.handled.inj handled

theorem processWebhook_handled (digest : List UInt8 → List UInt8) (now : Nat) (endpoints : Table String EndpointState)
    (request : Request) (triggerId target : String)
    (handled : (processWebhook digest now endpoints request).2 = .handled triggerId target) :
    ∃ path state, endpoints.lookup path = some state ∧ state.config.triggerId = triggerId := by
  unfold processWebhook at handled
  split at handled
  · cases handled
  · exact ⟨request.path,_,‹_›,(accept_handled digest now _ request triggerId target handled).1⟩

/-- What holds of every registered configuration. -/
def All (holds : EndpointConfig → Prop) (endpoints : Table String EndpointState) : Prop :=
  ∀ path state, endpoints.lookup path = some state → holds state.config

theorem processWebhook_all (digest : List UInt8 → List UInt8) (holds : EndpointConfig → Prop) (now : Nat)
    (endpoints : Table String EndpointState) (request : Request) (all : All holds endpoints) :
    All holds (processWebhook digest now endpoints request).1 := by
  intro path state found
  unfold processWebhook at found
  split at found
  · exact all path state found
  · rename_i old before
    rw [lookup_modify] at found
    split at found
    · rw [before,Option.map_some,Option.some_inj] at found
      rw [← found]
      exact all request.path old before
    · exact all path state found

theorem register_lookup (now : Nat) (endpoints next : Table String EndpointState) (config : EndpointConfig)
    (registered : register now endpoints config = some next) (path : String) :
    next.lookup path = if path = config.path then some ⟨config,(0,now),∅⟩ else endpoints.lookup path := by
  unfold register at registered
  split at registered
  · cases registered
  · rw [← Option.some_inj.mp registered,lookup_insert_if]

theorem register_all (holds : EndpointConfig → Prop) (now : Nat) (endpoints next : Table String EndpointState)
    (config : EndpointConfig) (registered : register now endpoints config = some next) (all : All holds endpoints)
    (new : holds config) : All holds next := by
  intro path state found
  rw [register_lookup now endpoints next config registered] at found
  split at found
  · rw [← Option.some_inj.mp found]
    exact new
  · exact all path state found

/-! An endpoint of the daemon can be reached. -/

def hexDigit (n : Nat) : Char := if n < 10 then Char.ofNat (48 + n) else Char.ofNat (87 + n)

def hexEncode (bytes : List UInt8) : List Char :=
  bytes.flatMap (fun byte => [hexDigit (byte.toNat / 16),hexDigit (byte.toNat % 16)])

theorem hexValue_hexDigit : ∀ n < 16, hexValue (hexDigit n) = some n := by decide

theorem hexDigit_ne_plus : ∀ n < 16, hexDigit n ≠ '+' := by decide

theorem hexDigit_ne_s : ∀ n < 16, hexDigit n ≠ 's' := by decide

theorem hexPair_hexDigit (byte : UInt8) :
    hexPair (hexDigit (byte.toNat / 16)) (hexDigit (byte.toNat % 16)) = some byte := by
  have size := byte.toNat_lt
  have high : byte.toNat / 16 < 16 := by omega
  have low : byte.toNat % 16 < 16 := by omega
  have whole : 16 * (byte.toNat / 16) + byte.toNat % 16 = byte.toNat := by omega
  rw [hexPair,if_neg (hexDigit_ne_plus _ high),hexValue_hexDigit _ high,hexValue_hexDigit _ low]
  rw [Option.bind_some,Option.map_some,whole,UInt8.ofNat_toNat]

theorem hexDecode_hexEncode (bytes : List UInt8) : hexDecode (hexEncode bytes) = some bytes := by
  induction bytes with
  | nil => rfl
  | cons byte rest ih =>
    change (hexPair _ _).bind (fun head => (hexDecode (hexEncode rest)).map (head :: ·)) = _
    rw [hexPair_hexDigit,ih]
    rfl

theorem stripPrefix_append (start : String) (rest : List Char) :
    stripPrefix start (String.ofList (start.toList ++ rest)) = some (String.ofList rest) := by
  unfold stripPrefix
  rw [String.toList_ofList,if_pos (List.prefix_append _ _),← String.length_toList,List.drop_left]

theorem stripPrefix_hexEncode (bytes : List UInt8) :
    stripPrefix "sha256=" (String.ofList (hexEncode bytes)) = none := by
  unfold stripPrefix
  rw [if_neg]
  intro starts
  rw [@String.toList_ofList (hexEncode bytes)] at starts
  cases bytes with
  | nil => exact absurd starts (by decide)
  | cons byte rest =>
    have size := byte.toNat_lt
    have head : 's' = hexDigit (byte.toNat / 16) := (List.cons_prefix_cons.mp starts).1
    exact hexDigit_ne_s _ (by omega) head.symm

/-- The configurations the daemon registers. -/
inductive Built : EndpointConfig → Prop where
  | plain (path triggerId target : String) : Built (.new path triggerId target)
  | signed (path triggerId target secret : String) :
    Built ((EndpointConfig.new path triggerId target).withHmacSha256 secret "X-Hub-Signature-256")

section Reach
variable (digest : List UInt8 → List UInt8)

def signatureHeader (bytes : List UInt8) : String × Option String :=
  ("X-Hub-Signature-256",some (String.ofList ("sha256=".toList ++ hexEncode bytes)))

theorem verifyHmacSha256_hexEncode (secret : String) (body : List UInt8) (present : body ≠ []) :
    verifyHmacSha256 digest secret body (String.ofList (hexEncode (computeHmacSha256 digest secret body))) = none := by
  unfold verifyHmacSha256
  rw [if_neg (by simpa using present),stripPrefix_hexEncode,Option.getD_none,String.toList_ofList,
    hexDecode_hexEncode]
  exact if_pos rfl

theorem headerValue_signatureHeader (bytes : List UInt8) :
    headerValue [signatureHeader bytes] (lowercase "X-Hub-Signature-256") =
      some (String.ofList ("sha256=".toList ++ hexEncode bytes)) := by
  have name : (lowercase "X-Hub-Signature-256" == lowercase "X-Hub-Signature-256") = true := beq_self_eq_true _
  rw [headerValue,signatureHeader,List.reverse_singleton,List.find?_singleton,name]
  rfl

theorem checkSignature_signed (config : EndpointConfig) (secret path : String) :
    checkSignature digest (config.withHmacSha256 secret "X-Hub-Signature-256")
      ⟨path,"POST",[signatureHeader (computeHmacSha256 digest secret [0])],[0]⟩ = none := by
  unfold checkSignature
  change (match (headerValue [signatureHeader _] (lowercase "X-Hub-Signature-256")).filter (fun value => value ≠ "") with
    | none => some "Missing HMAC signature"
    | some value =>
      match stripPrefix "sha256=" value with
      | none => some "Invalid HMAC signature format"
      | some signature => verifyHmacSha256 digest secret [0] signature) = none
  rw [headerValue_signatureHeader,Option.filter_some_pos]
  · simp only [stripPrefix_append]
    exact verifyHmacSha256_hexEncode digest secret [0] (by decide)
  · rw [decide_eq_true_iff,Ne,← String.toList_inj,String.toList_ofList]
    exact List.cons_ne_nil _ _

theorem headerValue_request_id (bytes : List UInt8) : headerValue [signatureHeader bytes] "x-request-id" = none := by
  have name : (lowercase "X-Hub-Signature-256" == "x-request-id") = false := by decide
  rw [headerValue,signatureHeader,List.reverse_singleton,List.find?_singleton,name]
  rfl

/-- A signed request of a new minute without an id comes to the handler. -/
theorem accept_new_window (now : Nat) (state : EndpointState) (request : Request)
    (late : state.counters.rate.2 + 60000 ≤ now) (posted : request.method = "POST")
    (taken : state.config.methods = [.post]) (fits : request.body.length ≤ state.config.maxBodySize)
    (passes : checkSignature digest state.config request = none)
    (anonymous : headerValue request.headers "x-request-id" = none) :
    (accept digest now state request).2 = .handled state.config.triggerId state.config.target := by
  have window : countRequest now state.config.maxRequestsPerMinute state.counters.rate = some (1,now) :=
    if_pos (by omega)
  have method : (convertMethod request.method).filter (fun method => method ∈ state.config.methods) = some .post := by
    rw [posted,taken]
    rfl
  rw [accept,method]
  simp only [passes,window,deduplicate,anonymous]
  rw [if_neg (Nat.not_lt.mpr fits)]
  rfl

/-- Whoever knows the secret of an endpoint, if it has one, gets a request to its handler. -/
theorem reachable (state : EndpointState) (built : Built state.config) (path : String) :
    ∃ now request, request.path = path ∧
      (accept digest now state request).2 = .handled state.config.triggerId state.config.target := by
  obtain ⟨config,counters⟩ := state
  cases built with
  | plain own triggerId target =>
    refine ⟨counters.rate.2 + 60000,⟨path,"POST",[],[]⟩,rfl,?_⟩
    exact accept_new_window digest _ ⟨_,counters⟩ _ (Nat.le_refl _) rfl rfl (Nat.zero_le _) rfl rfl
  | signed own triggerId target secret =>
    refine ⟨counters.rate.2 + 60000,
      ⟨path,"POST",[signatureHeader (computeHmacSha256 digest secret [0])],[0]⟩,rfl,?_⟩
    apply accept_new_window digest _ ⟨_,counters⟩ _ (Nat.le_refl _) rfl rfl (by simp [EndpointConfig.new])
    · exact checkSignature_signed digest _ secret path
    · exact headerValue_request_id _

end Reach

end ClawKernel.Server.Webhook
