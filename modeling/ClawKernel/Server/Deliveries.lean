import ClawKernel.Lib.Window
import ClawKernel.Server.Webhook

/-! Deliveries to the endpoints of a webhook server, with what their handlers make of them. The
id of a request is noted before the handler runs.
-/
namespace ClawKernel.Server.Deliveries
open Lib.Runs Lib.Tables Lib.Window Server.Webhook

structure AxumWebhookServer where
  endpoints : Table String EndpointState
  now : Nat

def AxumWebhookServer.new : AxumWebhookServer := ⟨∅,0⟩

/-- A request brings along what the handler of its endpoint would return for it. -/
inductive Event where
  | register (config : EndpointConfig)
  | request (request : Request) (outcome : Except String WebhookResponse)
  | wait (millis : Nat)

def requestId (request : Request) : Option String := headerValue request.headers "x-request-id"

/-- What is answered once the handler has run. -/
def handlerResponse : Except String WebhookResponse → WebhookResponse
  | .ok response => response
  | .error message => .error 500 message

/-- What stands in the way of the handler, if anything but a repeated id. -/
def reached : Response → Bool
  | .duplicate => true
  | .handled _ _ => true
  | _ => false

section Steps
variable (digest : List UInt8 → List UInt8)

def response (s : AxumWebhookServer) (request : Request) : Response := (processWebhook digest s.now s.endpoints request).2

def step (s : AxumWebhookServer) : Event → AxumWebhookServer
  | .register config => { s with endpoints := (register s.now s.endpoints config).getD s.endpoints }
  | .request request _ => { s with endpoints := (processWebhook digest s.now s.endpoints request).1 }
  | .wait millis => { s with now := s.now + millis }

/-- The request passes every check of its endpoint but that of its id. -/
def Admitted (s : AxumWebhookServer) (request : Request) : Prop :=
  ∃ state, s.endpoints.lookup request.path = some state ∧
    (∃ method ∈ state.config.methods, convertMethod request.method = some method) ∧
    request.body.length ≤ state.config.maxBodySize ∧ checkSignature digest state.config request = none ∧
    ∃ rate, countRequest s.now state.config.maxRequestsPerMinute state.counters.rate = some rate

/-- The request comes to the handler of the endpoint, under the id. -/
def Delivered (path id : String) (s : AxumWebhookServer) : Event → Prop
  | .request request _ =>
    request.path = path ∧ requestId request = some id ∧ ∃ triggerId target, response digest s request = .handled triggerId target
  | _ => False

/-- The request is handled, and with success. -/
def Succeeded (path id : String) (s : AxumWebhookServer) : Event → Prop
  | .request request outcome =>
    request.path = path ∧ requestId request = some id ∧
      (∃ triggerId target, response digest s request = .handled triggerId target) ∧
      200 ≤ (handlerResponse outcome).status ∧ (handlerResponse outcome).status < 300
  | _ => False

def seen (path : String) (s : AxumWebhookServer) : Table String Nat :=
  match s.endpoints.lookup path with
  | none => ∅
  | some state => state.counters.dedupCache

/-- The id under which a request comes to the check of the endpoint. -/
def sighting (path : String) (s : AxumWebhookServer) : Event → Option String
  | .request request _ => if request.path = path ∧ reached (response digest s request) then requestId request else none
  | _ => none

theorem deduplicate_some (now : Nat) (cache : Table String Nat) (request : Request) (id : String)
    (named : requestId request = some id) : deduplicate now cache request = observe 60000 now cache id := by
  unfold requestId at named
  unfold deduplicate
  rw [named]
  rfl

theorem deduplicate_none (now : Nat) (cache : Table String Nat) (request : Request)
    (nameless : requestId request = none) : deduplicate now cache request = (false,cache) := by
  unfold requestId at nameless
  unfold deduplicate
  rw [nameless]

/-- A request is refused before its id is looked at, or its id decides. -/
theorem accept_cases (now : Nat) (state : EndpointState) (request : Request) :
    (reached (accept digest now state request).2 = false ∧
        (accept digest now state request).1.dedupCache = state.counters.dedupCache) ∨
      (accept digest now state request).1.dedupCache = (deduplicate now state.counters.dedupCache request).2 ∧
        (accept digest now state request).2 =
          if (deduplicate now state.counters.dedupCache request).1 then .duplicate
          else .handled state.config.triggerId state.config.target := by
  unfold accept
  split
  · exact Or.inl ⟨rfl,rfl⟩
  · split
    · exact Or.inl ⟨rfl,rfl⟩
    · split
      · exact Or.inl ⟨rfl,rfl⟩
      · split
        · exact Or.inl ⟨rfl,rfl⟩
        · exact Or.inr ⟨rfl,rfl⟩

theorem response_none (s : AxumWebhookServer) (request : Request) (absent : s.endpoints.lookup request.path = none) :
    response digest s request = .notFound := by
  unfold response processWebhook
  rw [absent]

theorem response_some (s : AxumWebhookServer) (request : Request) (state : EndpointState)
    (found : s.endpoints.lookup request.path = some state) :
    response digest s request = (accept digest s.now state request).2 := by
  unfold response processWebhook
  rw [found]

theorem seen_present (path : String) (s : AxumWebhookServer) (state : EndpointState)
    (found : s.endpoints.lookup path = some state) : seen path s = state.counters.dedupCache := by
  unfold seen
  rw [found]

theorem seen_request (s : AxumWebhookServer) (request : Request) (outcome : Except String WebhookResponse)
    (state : EndpointState) (found : s.endpoints.lookup request.path = some state) :
    seen request.path (step digest s (.request request outcome)) = (accept digest s.now state request).1.dedupCache := by
  apply seen_present _ _ { state with counters := (accept digest s.now state request).1 }
  change (processWebhook digest s.now s.endpoints request).1.lookup request.path = _
  unfold processWebhook
  rw [found]
  change (modify s.endpoints request.path _).lookup request.path = _
  rw [lookup_modify,if_pos rfl,found]
  rfl

theorem seen_elsewhere (path : String) (s : AxumWebhookServer) (request : Request)
    (outcome : Except String WebhookResponse) (other : path ≠ request.path ∨ s.endpoints.lookup request.path = none) :
    seen path (step digest s (.request request outcome)) = seen path s := by
  have same : (processWebhook digest s.now s.endpoints request).1.lookup path = s.endpoints.lookup path := by
    unfold processWebhook
    split
    · rfl
    · rename_i state found
      change (modify s.endpoints request.path _).lookup path = _
      rw [lookup_modify,if_neg]
      exact other.resolve_right (fun absent => by rw [absent] at found; cases found)
  unfold seen
  change (match (processWebhook digest s.now s.endpoints request).1.lookup path with
    | none => ∅
    | some state => state.counters.dedupCache) = _
  rw [same]

theorem seen_register (path : String) (s : AxumWebhookServer) (config : EndpointConfig) :
    seen path (step digest s (.register config)) = seen path s := by
  cases registered : register s.now s.endpoints config with
  | none =>
    unfold seen
    change (match ((register s.now s.endpoints config).getD s.endpoints).lookup path with
      | none => ∅
      | some state => state.counters.dedupCache) = _
    rw [registered]
    rfl
  | some endpoints =>
    have found := register_lookup s.now s.endpoints endpoints config registered path
    unfold seen
    change (match ((register s.now s.endpoints config).getD s.endpoints).lookup path with
      | none => ∅
      | some state => state.counters.dedupCache) = _
    rw [registered,Option.getD_some,found]
    split_ifs with own
    · -- the path was free, so that there was no cache to begin with
      have free : s.endpoints.lookup path = none := by
        unfold register at registered
        split at registered
        · cases registered
        · rw [own]
          exact AList.lookup_eq_none.mpr ‹_›
      rw [free]
    · rfl

theorem now_le_step (s : AxumWebhookServer) (event : Event) : s.now ≤ (step digest s event).now := by
  cases event with
  | wait millis => exact Nat.le_add_right _ _
  | _ => exact Nat.le_refl _

theorem sighting_request (path : String) (s : AxumWebhookServer) (request : Request)
    (outcome : Except String WebhookResponse) (id : String) :
    sighting digest path s (.request request outcome) = some id ↔
      request.path = path ∧ reached (response digest s request) = true ∧ requestId request = some id := by
  change (if request.path = path ∧ reached (response digest s request) then requestId request else none) = some id ↔ _
  split_ifs with comes
  · exact ⟨fun named => ⟨comes.1,comes.2,named⟩,fun all => all.2.2⟩
  · exact ⟨nofun,fun all => absurd ⟨all.1,all.2.1⟩ comes⟩

theorem seen_step_some (path : String) (s : AxumWebhookServer) (event : Event) (id : String)
    (sighted : sighting digest path s event = some id) :
    seen path (step digest s event) = (observe 60000 s.now (seen path s) id).2 := by
  cases event with
  | register config => cases sighted
  | wait millis => cases sighted
  | request request outcome =>
    obtain ⟨rfl,comes,named⟩ := (sighting_request digest path s request outcome id).mp sighted
    cases found : s.endpoints.lookup request.path with
    | none =>
      rw [response_none digest s request found] at comes
      cases comes
    | some state =>
      rw [response_some digest s request state found] at comes
      rw [seen_request digest s request outcome state found,seen_present request.path s state found]
      rcases accept_cases digest s.now state request with ⟨refused,_⟩ | ⟨cache,_⟩
      · rw [refused] at comes
        cases comes
      · rw [cache,deduplicate_some s.now state.counters.dedupCache request id named]

theorem seen_step_none (path : String) (s : AxumWebhookServer) (event : Event)
    (silent : sighting digest path s event = none) : seen path (step digest s event) = seen path s := by
  cases event with
  | register config => exact seen_register digest path s config
  | wait millis => rfl
  | request request outcome =>
    by_cases own : path = request.path
    · cases found : s.endpoints.lookup request.path with
      | none => exact seen_elsewhere digest path s request outcome (Or.inr found)
      | some state =>
        subst own
        rw [seen_request digest s request outcome state found,seen_present request.path s state found]
        rcases accept_cases digest s.now state request with ⟨_,cache⟩ | ⟨cache,decided⟩
        · exact cache
        · have comes : reached (response digest s request) = true := by
            rw [response_some digest s request state found,decided]
            split_ifs
            · rfl
            · rfl
          have nameless : requestId request = none := by
            rw [← silent,sighting,if_pos ⟨rfl,comes⟩]
          rw [cache,deduplicate_none s.now state.counters.dedupCache request nameless]
    · exact seen_elsewhere digest path s request outcome (Or.inl own)

theorem accept_reached_iff (now : Nat) (state : EndpointState) (request : Request) :
    reached (accept digest now state request).2 = true ↔
      (∃ method ∈ state.config.methods, convertMethod request.method = some method) ∧
        request.body.length ≤ state.config.maxBodySize ∧ checkSignature digest state.config request = none ∧
        ∃ rate, countRequest now state.config.maxRequestsPerMinute state.counters.rate = some rate := by
  unfold accept
  split
  · rename_i refused
    refine ⟨nofun,fun all => ?_⟩
    obtain ⟨⟨method,allowed,converted⟩,_⟩ := all
    rw [converted,Option.filter_some,if_pos (decide_eq_true allowed)] at refused
    cases refused
  · rename_i method taken
    obtain ⟨converted,allowed⟩ := Option.filter_eq_some_iff.mp taken
    split
    · exact ⟨nofun,fun all => absurd all.2.1 (Nat.not_le.mpr ‹_›)⟩
    · split
      · rename_i refused
        refine ⟨nofun,fun all => ?_⟩
        rw [all.2.2.1] at refused
        cases refused
      · split
        · rename_i limited
          refine ⟨nofun,fun all => ?_⟩
          obtain ⟨rate,counted⟩ := all.2.2.2
          rw [counted] at limited
          cases limited
        · refine ⟨fun _ => ⟨⟨method,of_decide_eq_true allowed,converted⟩,Nat.not_lt.mp ‹_›,‹_›,_,‹_›⟩,fun _ => ?_⟩
          dsimp only
          split_ifs
          · rfl
          · rfl

theorem admitted_iff (s : AxumWebhookServer) (request : Request) :
    Admitted digest s request ↔ reached (response digest s request) = true := by
  cases found : s.endpoints.lookup request.path with
  | none =>
    rw [response_none digest s request found]
    refine ⟨fun ⟨state,there,_⟩ => ?_,nofun⟩
    rw [found] at there
    cases there
  | some state =>
    rw [response_some digest s request state found,accept_reached_iff]
    constructor
    · rintro ⟨other,there,rest⟩
      rw [found] at there
      cases there
      exact rest
    · exact fun rest => ⟨state,found,rest⟩

/-- A request that comes to the check is a duplicate or goes to the handler, by its id. -/
theorem response_reached (s : AxumWebhookServer) (request : Request)
    (comes : reached (response digest s request) = true) :
    (response digest s request = .duplicate ↔
        ∃ id, requestId request = some id ∧ (observe 60000 s.now (seen request.path s) id).1 = true) ∧
      ((∃ triggerId target, response digest s request = .handled triggerId target) ↔
        response digest s request ≠ .duplicate) := by
  cases found : s.endpoints.lookup request.path with
  | none =>
    rw [response_none digest s request found] at comes
    cases comes
  | some state =>
    rw [response_some digest s request state found] at comes ⊢
    rw [seen_present request.path s state found]
    rcases accept_cases digest s.now state request with ⟨refused,_⟩ | ⟨_,decided⟩
    · rw [refused] at comes
      cases comes
    · have same : (deduplicate s.now state.counters.dedupCache request).1 = true ↔
          ∃ id, requestId request = some id ∧ (observe 60000 s.now state.counters.dedupCache id).1 = true := by
        cases named : requestId request with
        | none =>
          rw [deduplicate_none s.now state.counters.dedupCache request named]
          exact ⟨nofun,fun ⟨_,missing,_⟩ => nomatch missing⟩
        | some id =>
          rw [deduplicate_some s.now state.counters.dedupCache request id named]
          constructor
          · exact fun there => ⟨id,rfl,there⟩
          · rintro ⟨_,own,there⟩
            cases own
            exact there
      rw [decided,← same]
      split_ifs with repeated
      · exact ⟨⟨fun _ => repeated,fun _ => rfl⟩,nofun,fun other => absurd rfl other⟩
      · exact ⟨⟨nofun,fun again => absurd again repeated⟩,fun _ => nofun,fun _ => ⟨_,_,rfl⟩⟩

theorem delivered_iff (path id : String) (s : AxumWebhookServer) (event : Event) :
    Delivered digest path id s event ↔
      sighting digest path s event = some id ∧ (observe 60000 s.now (seen path s) id).1 = false := by
  cases event with
  | register config => exact ⟨nofun,fun both => nomatch both.1⟩
  | wait millis => exact ⟨nofun,fun both => nomatch both.1⟩
  | request request outcome =>
    rw [sighting_request]
    constructor
    · rintro ⟨rfl,named,triggerId,target,handled⟩
      have comes : reached (response digest s request) = true := by rw [handled]; rfl
      obtain ⟨duplicate,other⟩ := response_reached digest s request comes
      refine ⟨⟨rfl,comes,named⟩,Bool.eq_false_iff.mpr (fun there => ?_)⟩
      exact other.mp ⟨triggerId,target,handled⟩ (duplicate.mpr ⟨id,named,there⟩)
    · rintro ⟨⟨rfl,comes,named⟩,new⟩
      obtain ⟨duplicate,other⟩ := response_reached digest s request comes
      refine ⟨rfl,named,other.mpr (fun repeated => ?_)⟩
      obtain ⟨own,same,there⟩ := duplicate.mp repeated
      rw [named] at same
      cases same
      rw [new] at there
      cases there

/-- A request that its endpoint admits is a duplicate exactly if one with its id came to the
handler of the endpoint less than a minute before, whatever the handler made of that one. -/
theorem duplicate_iff_delivered (before : List Event) (request : Request) :
    response digest (run (step digest) .new before) request = .duplicate ↔
      Admitted digest (run (step digest) .new before) request ∧ ∃ id, requestId request = some id ∧
        Occurred (step digest) (fun s earlier => Delivered digest request.path id s earlier ∧
          (run (step digest) .new before).now - s.now < 60000) .new before := by
  have seenBefore (id : String) := run_observe_iff (step digest) 60000 AxumWebhookServer.now (seen request.path)
    (sighting digest request.path) (now_le_step digest) (seen_step_some digest request.path)
    (seen_step_none digest request.path) .new before rfl id
  have each (id : String) :
      (observe 60000 (run (step digest) .new before).now (seen request.path (run (step digest) .new before)) id).1 = true ↔
        Occurred (step digest) (fun s earlier => Delivered digest request.path id s earlier ∧
          (run (step digest) .new before).now - s.now < 60000) .new before := by
    rw [seenBefore]
    apply occurred_congr
    intro s earlier
    rw [delivered_iff,and_assoc]
  rw [admitted_iff]
  constructor
  · intro repeated
    have comes : reached (response digest (run (step digest) .new before) request) = true := by rw [repeated]; rfl
    obtain ⟨id,named,there⟩ := (response_reached digest _ request comes).1.mp repeated
    exact ⟨comes,id,named,(each id).mp there⟩
  · rintro ⟨comes,id,named,earlier⟩
    exact (response_reached digest _ request comes).1.mpr ⟨id,named,(each id).mpr earlier⟩

end Steps

/-- An endpoint whose handler fails on the first request. -/
def failing : List Event :=
  [.register (.new "/hooks/build" "build" "agent"),
    .request ⟨"/hooks/build","POST",[("X-Request-Id",some "delivery")],[]⟩ (.error "internal error: busy")]

/-- The retry of a failed delivery. -/
theorem failed_delivery_swallowed :
    response (fun _ => []) (run (step (fun _ => [])) .new failing)
        ⟨"/hooks/build","POST",[("X-Request-Id",some "delivery")],[]⟩ = .duplicate ∧
      ¬Occurred (step (fun _ => [])) (Succeeded (fun _ => []) "/hooks/build" "delivery") .new failing := by
  constructor
  · decide
  · rintro (never | ⟨_,_,_,_,high⟩ | never)
    · exact never
    · exact absurd high (by decide)
    · exact never

end ClawKernel.Server.Deliveries
