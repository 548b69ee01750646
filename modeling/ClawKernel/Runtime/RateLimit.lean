import ClawKernel.Lib.RateWindow
import ClawKernel.Runtime.WebhookServer

/-! The rate limits of the two webhook servers against the sliding window that they are meant to
be. Instants are nanoseconds.
-/
namespace ClawKernel.Runtime.RateLimit
open Lib.RateWindow Runtime.WebhookServer
open Server.Webhook (Counters EndpointState Request countRequest accept deduplicate)

/-- `Duration::from_secs(60)`. -/
def minute : Nat := 60 * 1000000000

/-- The check of `handle_webhook`: the counter of a trigger after a request that passes. -/
def handleWebhookLimit (maxPerMinute now : Nat) (rateCounter : Nat × Nat) : Option (Nat × Nat) :=
  count minute maxPerMinute now rateCounter

/-- The check of `process_webhook`. -/
def processWebhookLimit (maxRequestsPerMinute now : Nat) (rateCounter : Nat × Nat) : Option (Nat × Nat) :=
  count minute maxRequestsPerMinute now rateCounter

/-- Either server bounds every window, and refuses only requests beyond the limit, exactly for
requests that are apart. -/
theorem limits_bound (limit : Nat) (arrivals : Arrivals) :
    (Bounds minute limit (outcomes (handleWebhookLimit limit) (0,arrivals.registered) arrivals.times) ↔
      Spaced minute limit arrivals.registered [] [] arrivals.times) ∧
    (Bounds minute limit (outcomes (processWebhookLimit limit) (0,arrivals.registered) arrivals.times) ↔
      Spaced minute limit arrivals.registered [] [] arrivals.times) :=
  ⟨outcomes_bounds minute limit (by decide) arrivals,outcomes_bounds minute limit (by decide) arrivals⟩

/-- With a limit of one, a request in the last second of a window and one that begins the next both pass. -/
theorem limits_doubled :
    ¬Bounds minute 1 (outcomes (handleWebhookLimit 1) (0,0) [59000000000,60000000000]) ∧
    ¬Bounds minute 1 (outcomes (processWebhookLimit 1) (0,0) [59000000000,60000000000]) := by
  constructor
  · intro bounds
    exact absurd (bounds.atMost 59000000000) (by decide)
  · intro bounds
    exact absurd (bounds.atMost 59000000000) (by decide)

/-- In milliseconds, the check is the one that both servers' requests go through. -/
theorem handleWebhookLimit_millis (limit now : Nat) (rate : Nat × Nat) :
    handleWebhookLimit limit (now * 1000000) (rate.1,rate.2 * 1000000) =
      (countRequest now limit rate).map (fun rate => (rate.1,rate.2 * 1000000)) := by
  have same : now * 1000000 - rate.2 * 1000000 ≥ minute ↔ now - rate.2 ≥ 60000 := by
    unfold minute
    omega
  unfold handleWebhookLimit count countRequest
  simp only [same]
  split
  · rfl
  · split <;> rfl

section Trigger
variable (digest : List UInt8 → List UInt8) (fromSlice : List UInt8 → Option Lib.Json.Value)

/-- The requests for a trigger, with whether they pass the rate limit. -/
def answered (entry : TriggerEntry) : List Arrival → List (Nat × Bool)
  | [] => []
  | arrival :: later =>
    let answer := answer digest fromSlice entry arrival
    (arrival.countedAt,decide (answer.2.1 ≠ .tooManyRequests)) :: answered { entry with counters := answer.1 } later

theorem answer_counts (entry : TriggerEntry) (arrival : Arrival) (rate : Nat × Nat)
    (counted : countRequest arrival.countedAt entry.maxPerMinute entry.counters.rate = some rate) :
    (answer digest fromSlice entry arrival).1.rate = rate ∧
      (answer digest fromSlice entry arrival).2.1 ≠ .tooManyRequests := by
  simp only [answer,admission,counted]
  split
  · rename_i refused
    split at refused
    · cases refused
      exact ⟨rfl,by simp⟩
    · cases refused
  · split
    · exact ⟨rfl,by simp⟩
    · exact ⟨rfl,by simp⟩

/-- The server's responses are those of the counter alone. -/
theorem answered_eq (entry : TriggerEntry) (arrivals : List Arrival) :
    answered digest fromSlice entry arrivals =
      outcomes (countRequest · entry.maxPerMinute) entry.counters.rate (arrivals.map Arrival.countedAt) := by
  induction arrivals generalizing entry with
  | nil => rfl
  | cons arrival later ih =>
    rw [answered,List.map_cons,outcomes]
    cases counted : countRequest arrival.countedAt entry.maxPerMinute entry.counters.rate with
    | none => simp [answer,admission,counted,ih]
    | some rate =>
      obtain ⟨kept,other⟩ := answer_counts digest fromSlice entry arrival rate counted
      simp [ih,kept,other]

end Trigger

section Endpoint
variable (digest : List UInt8 → List UInt8)

/-- The requests that get as far as the rate limit. -/
def reaches (config : Server.Webhook.EndpointConfig) (request : Request) : Bool :=
  ((Server.Webhook.convertMethod request.method).filter (fun method => method ∈ config.methods)).isSome &&
    decide (request.body.length ≤ config.maxBodySize) &&
    (Server.Webhook.checkSignature digest config request).isNone

/-- The requests for an endpoint that get as far as the rate limit, with whether they pass it. -/
def processed (state : EndpointState) : List (Nat × Request) → List (Nat × Bool)
  | [] => []
  | (now,request) :: later =>
    let accepted := accept digest now state request
    let rest := processed { state with counters := accepted.1 } later
    if reaches digest state.config request then (now,decide (accepted.2 ≠ .tooManyRequests)) :: rest else rest

theorem accept_early (now : Nat) (state : EndpointState) (request : Request)
    (stops : reaches digest state.config request = false) : (accept digest now state request).1 = state.counters := by
  unfold accept
  split
  · rfl
  · split
    · rfl
    · split
      · rfl
      · rename_i found fits _ signed
        rw [reaches,found,signed,decide_eq_true (Nat.not_lt.mp fits)] at stops
        cases stops

theorem accept_counts (now : Nat) (state : EndpointState) (request : Request)
    (counts : reaches digest state.config request = true) :
    accept digest now state request =
      match countRequest now state.config.maxRequestsPerMinute state.counters.rate with
      | none => (state.counters,.tooManyRequests)
      | some rate =>
        let (repeated,cache) := deduplicate now state.counters.dedupCache request
        (⟨rate,cache⟩,if repeated then .duplicate else .handled state.config.triggerId state.config.target) := by
  simp only [reaches,Bool.and_eq_true,decide_eq_true_eq,Option.isSome_iff_exists,Option.isNone_iff_eq_none] at counts
  obtain ⟨⟨⟨method,found⟩,fits⟩,signed⟩ := counts
  unfold accept
  rw [found]
  simp only [signed]
  exact if_neg (Nat.not_lt.mpr fits)

theorem processed_eq (state : EndpointState) (requests : List (Nat × Request)) :
    processed digest state requests =
      outcomes (countRequest · state.config.maxRequestsPerMinute) state.counters.rate
        ((requests.filter (fun request => reaches digest state.config request.2)).map Prod.fst) := by
  induction requests generalizing state with
  | nil => rfl
  | cons one later ih =>
    obtain ⟨now,request⟩ := one
    rw [processed]
    cases counts : reaches digest state.config request with
    | false =>
      rw [List.filter_cons_of_neg (by simpa using counts),if_neg (by simp),accept_early digest now state request counts]
      exact ih state
    | true =>
      rw [List.filter_cons_of_pos (by simpa using counts),List.map_cons,outcomes,if_pos rfl,
        accept_counts digest now state request counts]
      cases countRequest now state.config.maxRequestsPerMinute state.counters.rate with
      | none => simp [ih]
      | some rate =>
        simp only [ih]
        congr
        split <;> simp

end Endpoint


end ClawKernel.Runtime.RateLimit
