import Mathlib.Data.List.FinRange
import ClawKernel.Lib.Interleaving
import ClawKernel.Lib.Window
import ClawKernel.Runtime.WebhookServer

/-! Requests that one endpoint of a webhook server handles at once. Every reading of the clock
and every access to the counters is a step of its own; `retain` takes the shards of the cache
one by one.
-/
namespace ClawKernel.Runtime.Deduplication
open Lib Lib.Runs Lib.Tables Lib.Window
open Lib.Interleaving hiding step start
open Server.Webhook (Counters countRequest EndpointConfig convertMethod checkSignature headerValue)

/-- What a server asks of a request before the counters and after them: the refusal, if any. -/
structure Endpoint (α ρ : Type) where
  limit : Nat
  before : α → Option ρ
  requestId : α → Option String
  after : α → Option ρ
  tooManyRequests : ρ
  duplicate : ρ

/-- `handle_webhook` of `WebhookTriggerServer`. The instants of the arrival are not used: the
steps read the clock. -/
def handleWebhook (digest : List UInt8 → List UInt8) (entry : WebhookServer.TriggerEntry) :
    Endpoint WebhookServer.Arrival WebhookServer.Response where
  limit := entry.maxPerMinute
  before := fun _ => none
  requestId := WebhookServer.requestId
  after := fun arrival =>
    (entry.secret.bind (fun secret => WebhookServer.verify digest secret arrival)).map WebhookServer.Response.unauthorized
  tooManyRequests := .tooManyRequests
  duplicate := .duplicate

/-- `process_webhook` of `AxumWebhookServer`. -/
def processWebhook (digest : List UInt8 → List UInt8) (config : EndpointConfig) :
    Endpoint Server.Webhook.Request Server.Webhook.Response where
  limit := config.maxRequestsPerMinute
  before := fun request =>
    match (convertMethod request.method).filter (fun method => method ∈ config.methods) with
    | none => some .notFound
    | some _ =>
      if request.body.length > config.maxBodySize then some .payloadTooLarge
      else (checkSignature digest config request).map Server.Webhook.Response.unauthorized
  requestId := fun request => headerValue request.headers "x-request-id"
  after := fun _ => none
  tooManyRequests := .tooManyRequests
  duplicate := .duplicate

/-- Where a request stands; `fired` has published the event, or called the handler. A request
past the cache has its id with the instant it has noted. -/
inductive Phase (ρ : Type) (shards : Nat) where
  | entered
  | counting (now : Nat)
  | counted
  | evicting (id : String) (now : Nat) (left : List (Fin shards))
  | inserting (id : String) (now : Nat)
  | admitted (noted : Option (String × Nat))
  | refused (response : ρ)
  | fired (noted : Option (String × Nat))

structure Call (α ρ : Type) (shards : Nat) where
  request : α
  phase : Phase ρ shards

structure Shared where
  clock : Nat
  counters : Counters

section Server
variable {α ρ : Type} {shards : Nat} (shard : String → Fin shards) (endpoint : Endpoint α ρ)

/-- `retain` on one shard. -/
def evictShard (now : Nat) (seen : Table String Nat) (evicted : Fin shards) : Table String Nat :=
  seen.entries.foldl (fun rest entry =>
    if shard entry.1 = evicted → now - entry.2 < 60000 then rest else rest.erase entry.1) seen

def turn (s : Shared) (request : α) : Phase ρ shards → Shared × Phase ρ shards
  | .entered =>
    match endpoint.before request with
    | some response => (s,.refused response)
    | none => (s,.counting s.clock)
  | .counting now =>
    match countRequest now endpoint.limit s.counters.rate with
    | none => (s,.refused endpoint.tooManyRequests)
    | some rate => ({ s with counters := { s.counters with rate := rate } },.counted)
  | .counted =>
    match endpoint.requestId request with
    | none => (s,.admitted none)
    | some id => (s,.evicting id s.clock (List.finRange shards))
  | .evicting id now (evicted :: left) =>
    ({ s with counters := { s.counters with dedupCache := evictShard shard now s.counters.dedupCache evicted } },
      .evicting id now left)
  | .evicting id now [] => if id ∈ s.counters.dedupCache then (s,.refused endpoint.duplicate) else (s,.inserting id now)
  | .inserting id now =>
    ({ s with counters := { s.counters with dedupCache := s.counters.dedupCache.insert id now } },.admitted (some (id,now)))
  | .admitted noted =>
    match endpoint.after request with
    | some response => (s,.refused response)
    | none => (s,.fired noted)
  | .refused response => (s,.refused response)
  | .fired noted => (s,.fired noted)

def entered (request : α) : Call α ρ shards := ⟨request,.entered⟩

def access (s : Shared) (call : Call α ρ shards) : Shared × Call α ρ shards :=
  ((turn shard endpoint s call.request call.phase).1,
    { call with phase := (turn shard endpoint s call.request call.phase).2 })

inductive Turn (α : Type) where
  | request (action : Action α)
  | tick (millis : Nat)

def step (s : System Shared (Call α ρ shards)) : Turn α → System Shared (Call α ρ shards)
  | .request action => Interleaving.step entered (access shard endpoint) s action
  | .tick millis => { s with shared := { s.shared with clock := s.shared.clock + millis } }

/-- An endpoint as it is registered. -/
def start (now : Nat) : System Shared (Call α ρ shards) := Interleaving.start ⟨now,(0,now),∅⟩

/-- Two requests that have fired with one id have read the clock a minute apart. -/
def Deduplicated (s : System Shared (Call α ρ shards)) : Prop :=
  ∀ k other call call' id now now', k ≠ other → s.calls.lookup k = some call → s.calls.lookup other = some call' →
    call.phase = .fired (some (id,now)) → call'.phase = .fired (some (id,now')) →
      now + 60000 ≤ now' ∨ now' + 60000 ≤ now

/-- The id and the reading of the clock of a request that is at the cache. -/
def checking : Phase ρ shards → Option (String × Nat)
  | .evicting id now _ => some (id,now)
  | .inserting id now => some (id,now)
  | _ => none

def passed : Phase ρ shards → Option (String × Nat)
  | .admitted noted => noted
  | .fired noted => noted
  | _ => none

/-- An id is inserted where it is absent, and what is evicted is no longer within the minute of
a request with that id that is at the cache. -/
def Exclusive (s : System Shared (Call α ρ shards)) (turned : Turn α) : Prop :=
  ∀ k call, turned = .request (.advance k) → s.calls.lookup k = some call →
    match call.phase with
    | .inserting id _ => id ∉ s.shared.counters.dedupCache
    | .evicting _ now (evicted :: _) =>
      ∀ id since, shard id = evicted → s.shared.counters.dedupCache.lookup id = some since → since + 60000 ≤ now →
        ∀ other call' reading, s.calls.lookup other = some call' → checking call'.phase = some (id,reading) →
          since + 60000 ≤ reading
    | _ => True

/-! A request that no other one interrupts is answered as the servers answer it. -/

/-- What a request with this id comes to once it is past the counters. -/
def concluded (request : α) (noted : Option (String × Nat)) : Phase ρ shards :=
  match endpoint.after request with
  | some response => .refused response
  | none => .fired noted

def decided (s : Shared) (request : α) : Phase ρ shards :=
  match endpoint.before request with
  | some response => .refused response
  | none =>
    match countRequest s.clock endpoint.limit s.counters.rate with
    | none => .refused endpoint.tooManyRequests
    | some _ =>
      match endpoint.requestId request with
      | none => concluded endpoint request none
      | some id =>
        if id ∈ Server.Webhook.evict s.clock s.counters.dedupCache then .refused endpoint.duplicate
        else concluded endpoint request (some (id,s.clock))

theorem lookup_evictShard (now : Nat) (seen : Table String Nat) (gone : Fin shards) (id : String) :
    (evictShard shard now seen gone).lookup id =
      (seen.lookup id).filter (fun since => decide (shard id = gone → now - since < 60000)) :=
  lookup_retain (fun id since => shard id = gone → now - since < 60000) seen id

theorem lookup_evictShards (now : Nat) (left : List (Fin shards)) (seen : Table String Nat) (id : String) :
    (left.foldl (evictShard shard now) seen).lookup id =
      (seen.lookup id).filter (fun since => decide (shard id ∈ left → now - since < 60000)) := by
  induction left generalizing seen with
  | nil =>
    have all : ∀ since, decide (shard id ∈ ([] : List (Fin shards)) → now - since < 60000) = true :=
      fun since => decide_eq_true (fun member => absurd member List.not_mem_nil)
    simp only [List.foldl_nil,all]
    cases seen.lookup id <;> rfl
  | cons gone left ih =>
    rw [List.foldl_cons,ih,lookup_evictShard,Option.filter_filter]
    congr 1
    funext since
    rw [← Bool.decide_and,decide_eq_decide,List.mem_cons]
    tauto

theorem mem_evictShards (now : Nat) (seen : Table String Nat) (id : String) :
    id ∈ (List.finRange shards).foldl (evictShard shard now) seen ↔ id ∈ Server.Webhook.evict now seen := by
  rw [← AList.lookup_isSome,← AList.lookup_isSome,lookup_evictShards,WebhookServer.lookup_evict]
  simp only [List.mem_finRange,true_imp_iff]

theorem evicting_alone (s : Shared) (request : α) (id : String) (now : Nat) (left : List (Fin shards)) :
    (fun each : Shared × Phase ρ shards => turn shard endpoint each.1 request each.2)^[left.length]
        (s,.evicting id now left) =
      ({ s with counters := { s.counters with dedupCache := left.foldl (evictShard shard now) s.counters.dedupCache } },
        .evicting id now []) := by
  induction left generalizing s with
  | nil => rfl
  | cons gone left ih =>
    rw [List.length_cons,Function.iterate_succ_apply]
    exact ih _

theorem alone_decided (s : Shared) (request : α) : ∃ steps,
    ((fun each : Shared × Phase ρ shards => turn shard endpoint each.1 request each.2)^[steps] (s,.entered)).2 =
      decided endpoint s request := by
  unfold decided
  cases refused : endpoint.before request with
  | some response => exact ⟨1,by simp [turn,refused]⟩
  | none =>
    cases counted : countRequest s.clock endpoint.limit s.counters.rate with
    | none => exact ⟨2,by simp [turn,refused,counted]⟩
    | some rate =>
      cases named : endpoint.requestId request with
      | none =>
        refine ⟨4,?_⟩
        cases after : endpoint.after request with
        | none => simp [turn,refused,counted,named,concluded,after]
        | some response => simp [turn,refused,counted,named,concluded,after]
      | some id =>
        have length : (List.finRange shards).length = shards := List.length_finRange
        refine ⟨3 + (shards + 3),?_⟩
        rw [Function.iterate_add_apply,Function.iterate_add_apply]
        have reaches : (fun each : Shared × Phase ρ shards => turn shard endpoint each.1 request each.2)^[3] (s,.entered) =
            ({ s with counters := { s.counters with rate := rate } },.evicting id s.clock (List.finRange shards)) := by
          simp [turn,refused,counted,named]
        have evicted := evicting_alone shard endpoint { s with counters := { s.counters with rate := rate } } request id s.clock
          (List.finRange shards)
        rw [length] at evicted
        rw [reaches,evicted]
        by_cases seen : id ∈ Server.Webhook.evict s.clock s.counters.dedupCache
        · have present := (mem_evictShards shard s.clock s.counters.dedupCache id).mpr seen
          simp [turn,seen,present]
        · have absent := mt (mem_evictShards shard s.clock s.counters.dedupCache id).mp seen
          cases after : endpoint.after request with
          | none => simp [turn,seen,absent,concluded,after]
          | some response => simp [turn,seen,absent,concluded,after]

/-- What one step of a request does to the cache. -/
inductive Did (s : Shared) (phase : Phase ρ shards) (after : Shared × Phase ρ shards) : Prop
  | nothing (same : after.1.counters.dedupCache = s.counters.dedupCache)
      (at' : checking after.2 = none ∨ checking after.2 = checking phase)
      (past : passed after.2 = none ∨ passed after.2 = passed phase)
  | read (id : String) (same : after.1.counters.dedupCache = s.counters.dedupCache)
      (at' : checking after.2 = some (id,s.clock)) (past : passed after.2 = none)
  | evicted (id : String) (now : Nat) (gone : Fin shards) (left : List (Fin shards))
      (was : phase = .evicting id now (gone :: left))
      (same : after.1.counters.dedupCache = evictShard shard now s.counters.dedupCache gone)
      (at' : checking after.2 = checking phase) (past : passed after.2 = none)
  | inserted (id : String) (now : Nat) (was : phase = .inserting id now)
      (same : after.1.counters.dedupCache = s.counters.dedupCache.insert id now)
      (at' : checking after.2 = none) (past : passed after.2 = some (id,now))

theorem turn_clock (s : Shared) (request : α) (phase : Phase ρ shards) :
    (turn shard endpoint s request phase).1.clock = s.clock := by
  unfold turn
  split
  · split <;> rfl
  · split <;> rfl
  · split <;> rfl
  · rfl
  · split <;> rfl
  · rfl
  · split <;> rfl
  · rfl
  · rfl

theorem turn_did (s : Shared) (request : α) (phase : Phase ρ shards) :
    Did shard s phase (turn shard endpoint s request phase) := by
  cases phase with
  | entered =>
    simp only [turn]
    split <;> exact .nothing rfl (Or.inl rfl) (Or.inl rfl)
  | counting now =>
    simp only [turn]
    split <;> exact .nothing rfl (Or.inl rfl) (Or.inl rfl)
  | counted =>
    simp only [turn]
    split
    · exact .nothing rfl (Or.inl rfl) (Or.inl rfl)
    · exact .read _ rfl rfl rfl
  | evicting id now left =>
    cases left with
    | nil =>
      simp only [turn]
      split
      · exact .nothing rfl (Or.inl rfl) (Or.inl rfl)
      · exact .nothing rfl (Or.inr rfl) (Or.inl rfl)
    | cons gone left => exact .evicted id now gone left rfl rfl rfl rfl
  | inserting id now => exact .inserted id now rfl rfl rfl rfl
  | admitted noted =>
    simp only [turn]
    split
    · exact .nothing rfl (Or.inl rfl) (Or.inl rfl)
    · exact .nothing rfl (Or.inl rfl) (Or.inr rfl)
  | refused response => exact .nothing rfl (Or.inl rfl) (Or.inl rfl)
  | fired noted => exact .nothing rfl (Or.inl rfl) (Or.inr rfl)

/-- An entry stays, or it is a minute old at that instant. -/
theorem evictShard_keeps (now : Nat) (seen : Table String Nat) (gone : Fin shards) (id : String) (since : Nat)
    (there : seen.lookup id = some since) :
    (evictShard shard now seen gone).lookup id = some since ∨ shard id = gone ∧ since + 60000 ≤ now := by
  by_cases kept : shard id = gone → now - since < 60000
  · left
    rw [lookup_evictShard,there]
    exact Option.filter_eq_some_iff.mpr ⟨rfl,decide_eq_true kept⟩
  · right
    obtain ⟨same,old⟩ := Classical.not_imp.mp kept
    exact ⟨same,by omega⟩

def checkingOf (s : System Shared (Call α ρ shards)) (k : Nat) : Option (String × Nat) :=
  (s.calls.lookup k).bind (fun call => checking call.phase)

def passedOf (s : System Shared (Call α ρ shards)) (k : Nat) : Option (String × Nat) :=
  (s.calls.lookup k).bind (fun call => passed call.phase)

def Inv (s : System Shared (Call α ρ shards)) : Prop :=
  Guarded 60000 s.shared.clock s.shared.counters.dedupCache.lookup (checkingOf s) (passedOf s)

theorem inv_enter (s : System Shared (Call α ρ shards)) (k : Nat) (request : α) (inv : Inv s) :
    Inv (step shard endpoint s (.request (.enter k request))) := by
  cases found : s.calls.lookup k with
  | some call =>
    have present : k ∈ s.calls := AList.lookup_isSome.mp (Option.isSome_of_eq_some found)
    rw [step,Interleaving.step,if_pos present]
    exact inv
  | none =>
    rw [step,step_enter entered (access shard endpoint) s k request found]
    apply guarded_fewer inv s.shared.clock _ _ (Nat.le_refl _)
    · intro n each reads
      rcases bind_insert s.calls k n _ _ each reads with ⟨_,before⟩ | ⟨_,now⟩
      · exact before
      · cases now
    · intro n each has
      rcases bind_insert s.calls k n _ _ each has with ⟨_,before⟩ | ⟨_,now⟩
      · exact before
      · cases now

theorem inv_advance (s : System Shared (Call α ρ shards)) (k : Nat) (inv : Inv s)
    (exclusive : Exclusive shard s (.request (.advance k))) : Inv (step shard endpoint s (.request (.advance k))) := by
  cases found : s.calls.lookup k with
  | none =>
    rw [step,step_idle entered (access shard endpoint) s k found]
    exact inv
  | some call =>
    have own := exclusive k call rfl found
    have clock := turn_clock shard endpoint s.shared call.request call.phase
    have did := turn_did shard endpoint s.shared call.request call.phase
    have checks : ∀ each, checking call.phase = some each → checkingOf s k = some each := by
      intro each reads
      rw [checkingOf,found]
      exact reads
    rw [step,step_advance entered (access shard endpoint) s k call found]
    unfold access Inv
    generalize turn shard endpoint s.shared call.request call.phase = after at clock did
    obtain ⟨shared,phase⟩ := after
    dsimp only at clock did ⊢
    rw [clock]
    have stillUnder : checking phase = none ∨ checking phase = checking call.phase → ∀ n each,
        checkingOf ⟨shared,s.calls.insert k { call with phase := phase }⟩ n = some each → checkingOf s n = some each :=
      fun stays n each => bind_insert_same s.calls k n _ call _ each found stays
    have stillPast : passed phase = none ∨ passed phase = passed call.phase → ∀ n each,
        passedOf ⟨shared,s.calls.insert k { call with phase := phase }⟩ n = some each → passedOf s n = some each :=
      fun stays n each => bind_insert_same s.calls k n _ call _ each found stays
    cases did with
    | nothing same at' past' =>
      rw [same]
      exact guarded_fewer inv _ _ _ (Nat.le_refl _) (stillUnder at') (stillPast past')
    | read id same at' past' =>
      rw [same]
      apply guarded_read (guarded_fewer inv _ _ _ (Nat.le_refl _) (fun _ _ reads => reads) (stillPast (Or.inl past'))) id
      intro n each reads
      rcases bind_insert s.calls k n _ _ each reads with ⟨_,before⟩ | ⟨_,now⟩
      · exact Or.inl before
      · exact Or.inr (Option.some_inj.mp (now.symm.trans at'))
    | evicted id now gone left was same at' past' =>
      rw [same]
      rw [was] at own
      apply guarded_fewer (guarded_evict inv _ ?_) _ _ _ (Nat.le_refl _) (stillUnder (Or.inr at')) (stillPast (Or.inl past'))
      intro other since there
      refine (evictShard_keeps shard now _ gone other since there).imp_right (fun old => ⟨?_,?_⟩)
      · exact Nat.le_trans old.2 (inv.readings k id now (checks _ (by rw [was]; rfl)))
      · intro j later reads
        obtain ⟨call',found',checking'⟩ := Option.bind_eq_some_iff.mp reads
        exact own other since old.1 there old.2 j call' later found' checking'
    | inserted id now was same at' past' =>
      rw [same]
      rw [was] at own
      have absent : s.shared.counters.dedupCache.lookup id = none := AList.lookup_eq_none.mpr own
      have inserted := guarded_insert inv k id now (checks _ (by rw [was]; rfl)) absent
        (s.shared.counters.dedupCache.insert id now).lookup (AList.lookup_insert _)
        (fun other apart => AList.lookup_insert_ne apart) (passedOf ⟨shared,s.calls.insert k { call with phase := phase }⟩) (by
          intro n each has
          exact (bind_insert s.calls k n _ _ each has).imp_right (And.imp_right fun now =>
            Option.some_inj.mp (now.symm.trans past')))
      exact guarded_fewer inserted _ _ _ (Nat.le_refl _) (stillUnder (Or.inl at')) (fun _ _ has => has)

theorem inv_kept (s : System Shared (Call α ρ shards)) (turned : Turn α) (inv : Inv s)
    (exclusive : Exclusive shard s turned) : Inv (step shard endpoint s turned) := by
  cases turned with
  | request action =>
    cases action with
    | enter k request => exact inv_enter shard endpoint s k request inv
    | advance k => exact inv_advance shard endpoint s k inv exclusive
  | tick millis => exact guarded_fewer inv _ _ _ (Nat.le_add_right _ _) (fun _ _ reads => reads) (fun _ _ has => has)

theorem deduplicated_of_inv (s : System Shared (Call α ρ shards)) (inv : Inv s) : Deduplicated s := by
  intro k other call call' id now now' distinct found found' fired fired'
  apply inv.apart k other id now now' distinct
  · rw [passedOf,found,Option.bind_some,fired]
    rfl
  · rw [passedOf,found',Option.bind_some,fired']
    rfl

theorem deduplicated_along (now : Nat) (turns : List (Turn α))
    (exclusive : Along (step shard endpoint) (Exclusive shard) (start now) turns) :
    Always (step shard endpoint) Deduplicated (start now) turns := by
  apply always_mono (step shard endpoint) Inv Deduplicated deduplicated_of_inv
  refine always_of_along (step shard endpoint) (Exclusive shard) Inv (inv_kept shard endpoint) _ turns ?_ exclusive
  exact guarded_empty _ _ _ _ (fun _ => rfl) (fun _ => rfl)

end Server

theorem handleWebhook_decided (digest : List UInt8 → List UInt8) (fromSlice : List UInt8 → Option Json.Value)
    (shards now : Nat) (entry : WebhookServer.TriggerEntry) (arrival : WebhookServer.Arrival) (counted : arrival.countedAt = now)
    (checked : arrival.checkedAt = now) :
    (WebhookServer.answer digest fromSlice entry arrival).2.1 =
      match (decided (handleWebhook digest entry) ⟨now,entry.counters⟩ arrival : Phase _ shards) with
      | .refused response => response
      | _ => .ok := by
  unfold WebhookServer.answer WebhookServer.admission WebhookServer.deduplicate decided concluded handleWebhook
  rw [counted,checked]
  dsimp only
  cases countRequest now entry.maxPerMinute entry.counters.rate with
  | none => rfl
  | some rate =>
    cases WebhookServer.requestId arrival with
    | none => cases entry.secret.bind (fun secret => WebhookServer.verify digest secret arrival) <;> rfl
    | some id =>
      by_cases seen : id ∈ Server.Webhook.evict now entry.counters.dedupCache
      · simp only [seen,if_true]
      · simp only [seen,if_false]
        cases entry.secret.bind (fun secret => WebhookServer.verify digest secret arrival) <;> rfl

theorem processWebhook_decided (digest : List UInt8 → List UInt8) (shards now : Nat) (state : Server.Webhook.EndpointState)
    (request : Server.Webhook.Request) :
    (Server.Webhook.accept digest now state request).2 =
      match (decided (processWebhook digest state.config) ⟨now,state.counters⟩ request : Phase _ shards) with
      | .refused response => response
      | _ => .handled state.config.triggerId state.config.target := by
  unfold Server.Webhook.accept Server.Webhook.deduplicate decided concluded processWebhook
  dsimp only
  cases (convertMethod request.method).filter (fun method => method ∈ state.config.methods) with
  | none => rfl
  | some method =>
    dsimp only
    split
    · rfl
    · cases checkSignature digest state.config request with
      | some message => rfl
      | none =>
        cases countRequest now state.config.maxRequestsPerMinute state.counters.rate with
        | none => rfl
        | some rate =>
          cases headerValue request.headers "x-request-id" with
          | none => rfl
          | some id =>
            by_cases seen : id ∈ Server.Webhook.evict now state.counters.dedupCache
            · simp only [seen,if_true]
              rfl
            · simp only [seen,if_false]
              rfl

/-- Of the requests that either server has fired with one id no two have read the clock within a
minute, if each notes an id that is absent, and none evicts an id that one at the cache would keep. -/
theorem webhooks_deduplicated (digest : List UInt8 → List UInt8) (shards : Nat) (shard : String → Fin shards)
    (entry : WebhookServer.TriggerEntry) (config : EndpointConfig) (now : Nat) (arrivals : List (Turn WebhookServer.Arrival))
    (requests : List (Turn Server.Webhook.Request))
    (exclusive : Along (step shard (handleWebhook digest entry)) (Exclusive shard) (start now) arrivals)
    (exclusive' : Along (step shard (processWebhook digest config)) (Exclusive shard) (start now) requests) :
    Always (step shard (handleWebhook digest entry)) Deduplicated (start now) arrivals ∧
      Always (step shard (processWebhook digest config)) Deduplicated (start now) requests :=
  ⟨deduplicated_along shard (handleWebhook digest entry) now arrivals exclusive,
    deduplicated_along shard (processWebhook digest config) now requests exclusive'⟩

/-- One hook of either server that takes every request, with a cache of one shard. -/
def hook : WebhookServer.TriggerEntry := .new 0 none none

def path : EndpointConfig := .new "/hook" "hook" "agent"

def arrival : WebhookServer.Arrival := ⟨"hook",[("X-Request-Id",some "r1")],[],0,0⟩

def posted : Server.Webhook.Request := ⟨"/hook","POST",[("X-Request-Id",some "r1")],[]⟩

def shard : String → Fin 1 := fun _ => ⟨0,Nat.one_pos⟩

def handled {α : Type} (k : Nat) (request : α) : List (Turn α) :=
  .request (.enter k request) :: List.replicate 7 (.request (.advance k))

/-- Both requests look their id up before either notes it. -/
def both {α : Type} (request : α) : List (Turn α) :=
  [.request (.enter 0 request),.request (.enter 1 request)] ++ List.replicate 5 (.request (.advance 0)) ++
    List.replicate 7 (.request (.advance 1)) ++ List.replicate 2 (.request (.advance 0))

section Concrete
variable {α ρ : Type} (endpoint : Endpoint α ρ)

theorem exclusive_enter (s : System Shared (Call α ρ 1)) (k : Nat) (request : α) :
    Exclusive shard s (.request (.enter k request)) :=
  fun _ _ clash => by cases clash

theorem exclusive_advance (s : System Shared (Call α ρ 1)) (k : Nat) (call : Call α ρ 1)
    (found : s.calls.lookup k = some call)
    (own : match call.phase with
      | .inserting id _ => s.shared.counters.dedupCache.lookup id = none
      | .evicting _ now _ => now < 60000
      | _ => True) : Exclusive shard s (.request (.advance k)) := by
  rintro other call' ⟨⟩ found'
  rw [found] at found'
  cases found'
  obtain ⟨request,phase⟩ := call
  cases phase with
  | inserting id now => exact AList.lookup_eq_none.mp own
  | evicting id now left =>
    cases left with
    | nil => trivial
    | cons gone left =>
      exact fun _ since _ _ old => absurd (Nat.lt_of_lt_of_le own (Nat.le_add_left 60000 since)) (Nat.not_lt.mpr old)
  | _ => trivial

end Concrete

theorem webhooks_deduplicated_twice :
    Always (step shard (handleWebhook id hook)) Deduplicated (start 0) (handled 0 arrival ++ handled 1 arrival) ∧
      Always (step shard (processWebhook id path)) Deduplicated (start 0) (handled 0 posted ++ handled 1 posted) := by
  have within : 0 < 60000 := by decide
  apply webhooks_deduplicated id 1 shard hook path 0
  · refine ⟨exclusive_enter _ _ _,exclusive_advance _ 0 _ rfl trivial,exclusive_advance _ 0 _ rfl trivial,
      exclusive_advance _ 0 _ rfl trivial,exclusive_advance _ 0 _ rfl within,exclusive_advance _ 0 _ rfl within,
      exclusive_advance _ 0 _ rfl rfl,exclusive_advance _ 0 _ rfl trivial,exclusive_enter _ _ _,
      exclusive_advance _ 1 _ rfl trivial,exclusive_advance _ 1 _ rfl trivial,exclusive_advance _ 1 _ rfl trivial,
      exclusive_advance _ 1 _ rfl within,exclusive_advance _ 1 _ rfl within,exclusive_advance _ 1 _ rfl trivial,
      exclusive_advance _ 1 _ rfl trivial,trivial⟩
  · refine ⟨exclusive_enter _ _ _,exclusive_advance _ 0 _ rfl trivial,exclusive_advance _ 0 _ rfl trivial,
      exclusive_advance _ 0 _ rfl trivial,exclusive_advance _ 0 _ rfl within,exclusive_advance _ 0 _ rfl within,
      exclusive_advance _ 0 _ rfl rfl,exclusive_advance _ 0 _ rfl trivial,exclusive_enter _ _ _,
      exclusive_advance _ 1 _ rfl trivial,exclusive_advance _ 1 _ rfl trivial,exclusive_advance _ 1 _ rfl trivial,
      exclusive_advance _ 1 _ rfl within,exclusive_advance _ 1 _ rfl within,exclusive_advance _ 1 _ rfl trivial,
      exclusive_advance _ 1 _ rfl trivial,trivial⟩

theorem webhook_fires_twice :
    ¬Always (step shard (handleWebhook id hook)) Deduplicated (start 0) (both arrival) ∧
      ¬Always (step shard (processWebhook id path)) Deduplicated (start 0) (both posted) := by
  constructor
  · intro always
    have last := always_end _ _ _ _ always
    exact absurd (last 0 1 _ _ "r1" 0 0 (by decide) rfl rfl rfl rfl) (by decide)
  · intro always
    have last := always_end _ _ _ _ always
    exact absurd (last 0 1 _ _ "r1" 0 0 (by decide) rfl rfl rfl rfl) (by decide)

end ClawKernel.Runtime.Deduplication
