import ClawKernel.Lib.Json
import ClawKernel.Lib.Runs
import ClawKernel.Lib.Utf8
import ClawKernel.Server.Webhook

/-! `WebhookTriggerServer`: requests to `/hooks/{trigger_id}` become events on the bus. The
rate limit and the request ids are looked at before the signature. SHA-256 is the parameter
`digest` and the JSON parser the parameter `fromSlice`; instants are milliseconds.
-/
namespace ClawKernel.Runtime.WebhookServer
open Lib Lib.Runs Lib.Tables
open Server.Webhook (Counters countRequest evict stripPrefix lowercase hexEncode computeHmacSha256)

structure TriggerEntry where
  secret : Option String
  targetAgent : Option String
  maxPerMinute : Nat
  counters : Counters

def TriggerEntry.new (now : Nat) (secret targetAgent : Option String) : TriggerEntry :=
  ⟨secret,targetAgent,100,(0,now),∅⟩

abbrev Triggers := Table String TriggerEntry

def registerTrigger (now : Nat) (triggers : Triggers) (triggerId : String) (secret targetAgent : Option String) :
    Triggers :=
  triggers.insert triggerId (.new now secret targetAgent)

/-- A request with the instants at which the rate limit and the request ids are looked at. A
header value that is not visible ASCII is `none`. -/
structure Arrival where
  triggerId : String
  headers : List (String × Option String)
  body : List UInt8
  countedAt : Nat
  checkedAt : Nat
  deriving DecidableEq, Repr

inductive Response where
  | notFound
  | tooManyRequests
  | duplicate
  | unauthorized (message : String)
  | ok
  deriving DecidableEq, Repr

def Response.parts : Response → Nat × String
  | .notFound => (404,"trigger not found")
  | .tooManyRequests => (429,"rate limit exceeded")
  | .duplicate => (200,"\x7b\"status\":\"duplicate\",\"skipped\":true\x7d")
  | .unauthorized message => (401,message)
  | .ok => (200,"\x7b\"status\":\"ok\"\x7d")

/-- What is published; the event's own id and time are drawn anew for each. -/
structure TriggerFired where
  triggerId : String
  payload : Json.Value
  targetAgent : Option String

/-- `HeaderMap::get`: the first value under a name. -/
def header (headers : List (String × Option String)) (name : String) : Option (Option String) :=
  (headers.find? (fun header => lowercase header.1 == name)).map Prod.snd

def requestId (arrival : Arrival) : Option String :=
  (header arrival.headers "x-request-id").bind id

def signature (arrival : Arrival) : Option String :=
  ((header arrival.headers "x-hub-signature-256").or (header arrival.headers "x-signature")).bind id

/-- Whether the id is one of the last minute, and the cache afterwards. -/
def deduplicate (now : Nat) (seen : Table String Nat) : Option String → Bool × Table String Nat
  | none => (false,seen)
  | some id =>
    let recent := evict now seen
    if id ∈ recent then (true,recent) else (false,recent.insert id now)

/-- The rate limit and the request ids: the counters afterwards, and the refusal if any. -/
def admission (limit : Nat) (counters : Counters) (arrival : Arrival) : Counters × Option Response :=
  match countRequest arrival.countedAt limit counters.rate with
  | none => (counters,some .tooManyRequests)
  | some rate =>
    let (repeated,cache) := deduplicate arrival.checkedAt counters.dedupCache (requestId arrival)
    (⟨rate,cache⟩,if repeated then some .duplicate else none)

section Server
variable (digest : List UInt8 → List UInt8) (fromSlice : List UInt8 → Option Json.Value)

/-- The signature check: the refusal's text, if any. -/
def verify (secret : String) (arrival : Arrival) : Option String :=
  match signature arrival with
  | none => some "missing signature"
  | some text =>
    if (stripPrefix "sha256=" text).getD text =
        String.ofList (hexEncode (computeHmacSha256 digest secret arrival.body)) then none
    else some "invalid signature"

def payload (body : List UInt8) : Json.Value :=
  if body.isEmpty then .null
  else (fromSlice body).getD (.object [("raw",.string (String.ofList (Utf8.lossy body)))])

/-- `handle_webhook` from the found entry on. -/
def answer (entry : TriggerEntry) (arrival : Arrival) : Counters × Response × Option TriggerFired :=
  let (counters,refusal) := admission entry.maxPerMinute entry.counters arrival
  match refusal with
  | some response => (counters,response,none)
  | none =>
    match entry.secret.bind (fun secret => verify digest secret arrival) with
    | some message => (counters,.unauthorized message,none)
    | none => (counters,.ok,some ⟨arrival.triggerId,payload fromSlice arrival.body,entry.targetAgent⟩)

def handleWebhook (triggers : Triggers) (arrival : Arrival) : Triggers × Response × Option TriggerFired :=
  match triggers.lookup arrival.triggerId with
  | none => (triggers,.notFound,none)
  | some entry =>
    let (counters,response,event) := answer digest fromSlice entry arrival
    (modify triggers arrival.triggerId (fun entry => { entry with counters := counters }),response,event)

/-- The requests one after another, each with what it publishes. -/
def served (triggers : Triggers) : List Arrival → List (Arrival × Option TriggerFired)
  | [] => []
  | arrival :: rest =>
    let (next,_,event) := handleWebhook digest fromSlice triggers arrival
    (arrival,event) :: served next rest

def authentic (secret : String) (arrival : Arrival) : Bool :=
  (verify digest secret arrival).isNone

/-- What the authentic requests publish is what they publish alone. -/
def Independent (triggers : Triggers) (secret : String) (arrivals : List Arrival) : Prop :=
  (served digest fromSlice triggers arrivals).filter (fun each => authentic digest secret each.1) =
    served digest fromSlice triggers (arrivals.filter (authentic digest secret))

/-- The counters after all requests and those after the authentic ones alone. -/
def besides (limit : Nat) (secret : String) (both : Counters × Counters) (arrival : Arrival) : Counters × Counters :=
  ((admission limit both.1 arrival).1,
    if authentic digest secret arrival then (admission limit both.2 arrival).1 else both.2)

/-- The rate limit and the request ids turn an authentic request away after all earlier
requests exactly if they do so after the authentic ones alone. -/
def SameAdmission (limit : Nat) (secret : String) (both : Counters × Counters) (arrival : Arrival) : Prop :=
  authentic digest secret arrival = true →
    (admission limit both.1 arrival).2.isSome = (admission limit both.2 arrival).2.isSome

instance (limit : Nat) (secret : String) (both : Counters × Counters) (arrival : Arrival) :
    Decidable (SameAdmission digest limit secret both arrival) :=
  inferInstanceAs (Decidable (_ → _))

theorem answer_eq (entry : TriggerEntry) (secret : String) (guarded : entry.secret = some secret) (arrival : Arrival) :
    (answer digest fromSlice entry arrival).1 = (admission entry.maxPerMinute entry.counters arrival).1 ∧
      (answer digest fromSlice entry arrival).2.2 =
        if (admission entry.maxPerMinute entry.counters arrival).2.isNone && authentic digest secret arrival then
          some ⟨arrival.triggerId,payload fromSlice arrival.body,entry.targetAgent⟩
        else none := by
  unfold answer authentic
  rw [guarded,Option.bind_some]
  obtain ⟨counters,refusal⟩ := admission entry.maxPerMinute entry.counters arrival
  cases refusal with
  | some response => exact ⟨rfl,rfl⟩
  | none =>
    cases verify digest secret arrival with
    | some message => exact ⟨rfl,rfl⟩
    | none => exact ⟨rfl,rfl⟩

/-- A request to a hook with a secret. -/
theorem handleWebhook_eq (triggers : Triggers) (entry : TriggerEntry) (secret : String) (arrival : Arrival)
    (known : triggers.lookup arrival.triggerId = some entry) (guarded : entry.secret = some secret) :
    (handleWebhook digest fromSlice triggers arrival).1.lookup arrival.triggerId =
        some { entry with counters := (admission entry.maxPerMinute entry.counters arrival).1 } ∧
      (handleWebhook digest fromSlice triggers arrival).2.2 =
        if (admission entry.maxPerMinute entry.counters arrival).2.isNone && authentic digest secret arrival then
          some ⟨arrival.triggerId,payload fromSlice arrival.body,entry.targetAgent⟩
        else none := by
  obtain ⟨counters,event⟩ := answer_eq digest fromSlice entry secret guarded arrival
  unfold handleWebhook
  rw [known]
  refine ⟨?_,event⟩
  dsimp only
  rw [lookup_modify,if_pos rfl,known,Option.map_some,counters]

theorem served_filter_iff (entry : TriggerEntry) (secret triggerId : String) (guarded : entry.secret = some secret)
    (arrivals : List Arrival) (here : ∀ arrival ∈ arrivals, arrival.triggerId = triggerId) (full alone : Triggers)
    (everyone trusted : Counters) (knownAll : full.lookup triggerId = some { entry with counters := everyone })
    (knownAlone : alone.lookup triggerId = some { entry with counters := trusted }) :
    (served digest fromSlice full arrivals).filter (fun each => authentic digest secret each.1) =
        served digest fromSlice alone (arrivals.filter (authentic digest secret)) ↔
      Along (besides digest entry.maxPerMinute secret) (SameAdmission digest entry.maxPerMinute secret)
        (everyone,trusted) arrivals := by
  induction arrivals generalizing full alone everyone trusted with
  | nil => exact ⟨fun _ => True.intro,fun _ => rfl⟩
  | cons arrival rest ih =>
    have own : arrival.triggerId = triggerId := here arrival List.mem_cons_self
    have later : ∀ other ∈ rest, other.triggerId = triggerId :=
      fun other member => here other (List.mem_cons_of_mem arrival member)
    subst own
    obtain ⟨nextAll,eventAll⟩ := handleWebhook_eq digest fromSlice full _ secret arrival knownAll guarded
    rw [served,Along]
    cases signed : authentic digest secret arrival with
    | false =>
      have dropped : (arrival :: rest).filter (authentic digest secret) = rest.filter (authentic digest secret) :=
        List.filter_cons_of_neg (by rw [signed]; exact Bool.false_ne_true)
      have skips : SameAdmission digest entry.maxPerMinute secret (everyone,trusted) arrival :=
        fun clash => absurd (signed.symm.trans clash) Bool.false_ne_true
      rw [dropped,List.filter_cons_of_neg (by dsimp only; rw [signed]; exact Bool.false_ne_true),
        and_iff_right skips,besides,signed]
      exact ih later _ _ _ _ nextAll knownAlone
    | true =>
      obtain ⟨nextAlone,eventAlone⟩ := handleWebhook_eq digest fromSlice alone _ secret arrival knownAlone guarded
      rw [List.filter_cons_of_pos signed,List.filter_cons_of_pos (by exact signed),served,List.cons.injEq,
        ih later _ _ _ _ nextAll nextAlone,besides,signed]
      dsimp only
      apply and_congr_left
      intro _
      rw [Prod.mk.injEq,eventAll,eventAlone,signed,Bool.and_true,Bool.and_true,SameAdmission,signed]
      cases (admission entry.maxPerMinute everyone arrival).2 with
      | none =>
        cases (admission entry.maxPerMinute trusted arrival).2 with
        | none => simp
        | some response => simp
      | some response =>
        cases (admission entry.maxPerMinute trusted arrival).2 with
        | none => simp
        | some response => simp

/-! The same on the requests alone, without the second server: who entered the ids that still
count, and the minutes of the authentic requests.
-/

/-- The id still counts at that instant. -/
def Held (cache : Table String Nat) (now : Nat) (id : String) : Prop :=
  ∃ since, cache.lookup id = some since ∧ now - since < 60000

theorem lookup_evict (now : Nat) (cache : Table String Nat) (id : String) :
    (evict now cache).lookup id = (cache.lookup id).filter (fun since => decide (now - since < 60000)) :=
  lookup_retain (fun _ since => now - since < 60000) cache id

theorem mem_evict (now : Nat) (cache : Table String Nat) (id : String) : id ∈ evict now cache ↔ Held cache now id := by
  rw [← AList.lookup_isSome,lookup_evict,Held]
  cases cache.lookup id with
  | none => simp
  | some since => simp [Option.filter_some]

/-- What was evicted earlier would not count later. -/
theorem held_evict (now later : Nat) (cache : Table String Nat) (id : String) (after : now ≤ later) :
    Held (evict now cache) later id ↔ Held cache later id := by
  unfold Held
  rw [lookup_evict]
  constructor
  · intro held
    obtain ⟨since,found,recent⟩ := held
    exact ⟨since,(Option.filter_eq_some_iff.mp found).1,recent⟩
  · intro held
    obtain ⟨since,found,recent⟩ := held
    refine ⟨since,Option.filter_eq_some_iff.mpr ⟨found,decide_eq_true ?_⟩,recent⟩
    omega

theorem deduplicate_held (now : Nat) (cache : Table String Nat) (id : String) (held : Held cache now id) :
    deduplicate now cache (some id) = (true,evict now cache) :=
  if_pos ((mem_evict now cache id).mpr held)

theorem deduplicate_new (now : Nat) (cache : Table String Nat) (id : String) (new : ¬Held cache now id) :
    deduplicate now cache (some id) = (false,(evict now cache).insert id now) :=
  if_neg (fun held => new ((mem_evict now cache id).mp held))

theorem held_earlier (now later : Nat) (cache : Table String Nat) (id : String) (after : now ≤ later)
    (held : Held cache later id) : Held cache now id := by
  obtain ⟨since,found,recent⟩ := held
  exact ⟨since,found,by omega⟩

def passes (limit : Nat) (rate : Nat × Nat) (arrival : Arrival) : Bool :=
  (countRequest arrival.countedAt limit rate).isSome

def counted (limit : Nat) (rate : Nat × Nat) (arrival : Arrival) : Nat × Nat :=
  (countRequest arrival.countedAt limit rate).getD rate

/-- The request's id is one of the last minute. -/
def repeats (cache : Table String Nat) (arrival : Arrival) : Bool :=
  (requestId arrival).any (fun id => decide (id ∈ evict arrival.checkedAt cache))

/-- The request enters its id. -/
def enters (limit : Nat) (counters : Counters) (arrival : Arrival) : Bool :=
  passes limit counters.rate arrival && !repeats counters.dedupCache arrival

theorem deduplicate_repeats (cache : Table String Nat) (arrival : Arrival) :
    (deduplicate arrival.checkedAt cache (requestId arrival)).1 = repeats cache arrival := by
  unfold repeats
  cases requestId arrival with
  | none => rfl
  | some id =>
    by_cases held : Held cache arrival.checkedAt id
    · rw [deduplicate_held _ _ _ held,Option.any_some,decide_eq_true ((mem_evict _ _ _).mpr held)]
    · rw [deduplicate_new _ _ _ held,Option.any_some,decide_eq_false (fun member => held ((mem_evict _ _ _).mp member))]

theorem admission_passed (limit : Nat) (counters : Counters) (arrival : Arrival)
    (pass : passes limit counters.rate arrival = true) :
    admission limit counters arrival =
      (⟨counted limit counters.rate arrival,(deduplicate arrival.checkedAt counters.dedupCache (requestId arrival)).2⟩,
        if repeats counters.dedupCache arrival then some .duplicate else none) := by
  obtain ⟨rate,some⟩ := Option.isSome_iff_exists.mp pass
  rw [← deduplicate_repeats,counted,some]
  unfold admission
  rw [some]
  rfl

theorem admission_stopped (limit : Nat) (counters : Counters) (arrival : Arrival)
    (stop : passes limit counters.rate arrival = false) :
    admission limit counters arrival = (counters,some .tooManyRequests) := by
  have full : countRequest arrival.countedAt limit counters.rate = none := Option.isNone_iff_eq_none.mp (by
    rw [← Option.not_isSome]
    exact congrArg not stop)
  unfold admission
  rw [full]

theorem admission_isSome (limit : Nat) (counters : Counters) (arrival : Arrival) :
    (admission limit counters arrival).2.isSome = !enters limit counters arrival := by
  unfold enters
  cases pass : passes limit counters.rate arrival with
  | false =>
    rw [admission_stopped limit counters arrival pass]
    rfl
  | true =>
    rw [admission_passed limit counters arrival pass]
    cases repeats counters.dedupCache arrival with
    | false => rfl
    | true => rfl

theorem admission_rate (limit : Nat) (counters : Counters) (arrival : Arrival) :
    (admission limit counters arrival).1.rate = counted limit counters.rate arrival := by
  cases pass : passes limit counters.rate arrival with
  | false =>
    have full : countRequest arrival.countedAt limit counters.rate = none :=
      Option.not_isSome_iff_eq_none.mp (by
        rw [show (countRequest arrival.countedAt limit counters.rate).isSome = false from pass]
        exact Bool.false_ne_true)
    rw [admission_stopped limit counters arrival pass,counted,full]
    rfl
  | true => rw [admission_passed limit counters arrival pass]

/-- A request changes what counts later only by entering its own id. -/
theorem held_admission (limit later : Nat) (counters : Counters) (arrival : Arrival) (id : String)
    (after : arrival.checkedAt ≤ later) :
    Held (admission limit counters arrival).1.dedupCache later id ↔
      if enters limit counters arrival = true ∧ requestId arrival = some id then later - arrival.checkedAt < 60000
      else Held counters.dedupCache later id := by
  cases pass : passes limit counters.rate arrival with
  | false =>
    rw [admission_stopped limit counters arrival pass,enters,pass,Bool.false_and,
      if_neg (fun clash => Bool.false_ne_true clash.1)]
  | true =>
    rw [admission_passed limit counters arrival pass,enters,pass,Bool.true_and,repeats]
    dsimp only
    cases own : requestId arrival with
    | none =>
      rw [if_neg (fun clash => Option.some_ne_none id clash.2.symm)]
      rfl
    | some mine =>
      rw [Option.any_some]
      by_cases held : Held counters.dedupCache arrival.checkedAt mine
      · rw [deduplicate_held _ _ _ held,decide_eq_true ((mem_evict _ _ _).mpr held),Bool.not_true,
          if_neg (fun clash => Bool.false_ne_true clash.1)]
        exact held_evict arrival.checkedAt later counters.dedupCache id after
      · rw [deduplicate_new _ _ _ held,decide_eq_false (fun member => held ((mem_evict _ _ _).mp member)),Bool.not_false]
        by_cases same : mine = id
        · rw [if_pos ⟨rfl,congrArg some same⟩,← same,Held,AList.lookup_insert]
          simp only [Option.some.injEq,exists_eq_left']
        · rw [if_neg (fun clash => same (Option.some.inj clash.2)),
            ← held_evict arrival.checkedAt later counters.dedupCache id after]
          simp only [Held,lookup_insert_if,if_neg (fun clash : id = mine => same clash.symm)]

/-- What the requests so far have left: the counters, the ids that were entered last by a
request that is not authentic, and the rate counter of the authentic requests alone. -/
structure Watch where
  counters : Counters
  claimed : String → Bool
  trusted : Nat × Nat

def Watch.new (counters : Counters) : Watch :=
  ⟨counters,fun _ => false,counters.rate⟩

def watch (limit : Nat) (secret : String) (s : Watch) (arrival : Arrival) : Watch where
  counters := (admission limit s.counters arrival).1
  claimed := fun id =>
    if enters limit s.counters arrival = true ∧ requestId arrival = some id then !authentic digest secret arrival
    else s.claimed id
  trusted := if authentic digest secret arrival then counted limit s.trusted arrival else s.trusted

/-- The request's id is one of the last minute, entered by a request that is not authentic. -/
def stolen (s : Watch) (arrival : Arrival) : Bool :=
  (requestId arrival).any (fun id => decide (id ∈ evict arrival.checkedAt s.counters.dedupCache) && s.claimed id)

/-- Nothing that is not authentic decides over an authentic request. -/
def Harmless (limit : Nat) (secret : String) (s : Watch) (arrival : Arrival) : Prop :=
  authentic digest secret arrival = true →
    -- The minute has room, for all requests and for the authentic ones.
    (passes limit s.counters.rate arrival = true → passes limit s.trusted arrival = true →
      stolen s arrival = false) ∧
    -- The forged requests have begun a minute of their own.
    (passes limit s.counters.rate arrival = true → passes limit s.trusted arrival = false →
      repeats s.counters.dedupCache arrival = true) ∧
    -- The forged requests have filled the minute.
    (passes limit s.counters.rate arrival = false → passes limit s.trusted arrival = true →
      repeats s.counters.dedupCache arrival = true ∧ stolen s arrival = false)

instance (limit : Nat) (secret : String) (s : Watch) (arrival : Arrival) :
    Decidable (Harmless digest limit secret s arrival) :=
  inferInstanceAs (Decidable (_ → (_ → _ → _) ∧ (_ → _ → _) ∧ (_ → _ → _)))

/-- What the watch says of the counters that the authentic requests alone leave. -/
structure Agrees (s : Watch) (trusted : Counters) (now : Nat) : Prop where
  rate : trusted.rate = s.trusted
  own : ∀ id, s.claimed id = false → ∀ later, now ≤ later →
    (Held s.counters.dedupCache later id ↔ Held trusted.dedupCache later id)
  taken : ∀ id, s.claimed id = true → ∀ later, now ≤ later → ¬Held trusted.dedupCache later id

theorem agrees_new (counters : Counters) (now : Nat) : Agrees (.new counters) counters now :=
  ⟨rfl,fun _ _ _ _ => Iff.rfl,fun _ claimed => absurd claimed Bool.false_ne_true⟩

theorem agrees_later (s : Watch) (trusted : Counters) (now next : Nat) (after : now ≤ next)
    (agrees : Agrees s trusted now) : Agrees s trusted next :=
  ⟨agrees.rate,fun id mine later since => agrees.own id mine later (after.trans since),
    fun id claimed later since => agrees.taken id claimed later (after.trans since)⟩

theorem agrees_repeats (s : Watch) (trusted : Counters) (arrival : Arrival) (agrees : Agrees s trusted arrival.checkedAt) :
    repeats trusted.dedupCache arrival = (repeats s.counters.dedupCache arrival && !stolen s arrival) := by
  unfold repeats stolen
  cases requestId arrival with
  | none => rfl
  | some id =>
    simp only [Option.any_some]
    cases claimed : s.claimed id with
    | false =>
      have same := agrees.own id claimed arrival.checkedAt (Nat.le_refl _)
      rw [Bool.and_false,Bool.not_false,Bool.and_true]
      apply decide_eq_decide.mpr
      rw [mem_evict,mem_evict,same]
    | true =>
      have absent := agrees.taken id claimed arrival.checkedAt (Nat.le_refl _)
      rw [Bool.and_true,Bool.and_not_self]
      exact decide_eq_false (fun member => absent ((mem_evict _ _ _).mp member))

/-- The watch decides at each authentic request. -/
theorem harmless_iff (limit : Nat) (secret : String) (s : Watch) (trusted : Counters) (arrival : Arrival)
    (agrees : Agrees s trusted arrival.checkedAt) :
    SameAdmission digest limit secret (s.counters,trusted) arrival ↔ Harmless digest limit secret s arrival := by
  unfold SameAdmission Harmless
  apply imp_congr_right
  intro _
  rw [admission_isSome,admission_isSome,enters,enters,agrees.rate,agrees_repeats s trusted arrival agrees]
  cases passes limit s.counters.rate arrival with
  | false =>
    cases passes limit s.trusted arrival with
    | false => simp
    | true => simp
  | true =>
    cases passes limit s.trusted arrival with
    | false => simp
    | true =>
      have within : stolen s arrival = true → repeats s.counters.dedupCache arrival = true := by
        unfold stolen repeats
        cases requestId arrival with
        | none => exact id
        | some id => exact fun both => (Bool.and_eq_true_iff.mp both).1
      cases owner : stolen s arrival with
      | false => simp
      | true =>
        rw [within owner]
        simp

/-- One request, where it is admitted alike. -/
theorem agrees_watch (limit : Nat) (secret : String) (s : Watch) (trusted : Counters) (arrival : Arrival)
    (agrees : Agrees s trusted arrival.checkedAt)
    (same : SameAdmission digest limit secret (s.counters,trusted) arrival) :
    Agrees (watch digest limit secret s arrival) (besides digest limit secret (s.counters,trusted) arrival).2
      arrival.checkedAt := by
  unfold SameAdmission at same
  unfold besides watch
  cases signed : authentic digest secret arrival with
  | true =>
    have alike : enters limit s.counters arrival = enters limit trusted arrival := by
      have both := same signed
      rw [admission_isSome,admission_isSome] at both
      exact Bool.not_inj both
    refine ⟨?_,?_,?_⟩
    · rw [if_pos rfl,if_pos rfl,admission_rate,agrees.rate]
    · intro id mine later after
      dsimp only at mine ⊢
      rw [if_pos rfl,held_admission limit later _ arrival id after,held_admission limit later _ arrival id after,← alike]
      split_ifs at mine ⊢ with entered
      · exact Iff.rfl
      · exact agrees.own id mine later after
    · intro id claimed later after
      dsimp only at claimed ⊢
      rw [if_pos rfl,held_admission limit later _ arrival id after,← alike]
      split_ifs at claimed ⊢ with entered
      · exact absurd claimed Bool.false_ne_true
      · exact agrees.taken id claimed later after
  | false =>
    refine ⟨?_,?_,?_⟩
    · rw [if_neg Bool.false_ne_true,if_neg Bool.false_ne_true,agrees.rate]
    · intro id mine later after
      dsimp only at mine ⊢
      rw [if_neg Bool.false_ne_true,held_admission limit later _ arrival id after]
      split_ifs at mine ⊢ with entered
      · exact absurd mine.symm Bool.false_ne_true
      · exact agrees.own id mine later after
    · intro id claimed later after
      dsimp only at claimed ⊢
      rw [if_neg Bool.false_ne_true]
      split_ifs at claimed with entered
      · -- What a forged request enters afresh did not count before, on either side.
        intro held
        have before := held_earlier arrival.checkedAt later _ id after held
        have fresh : ¬Held s.counters.dedupCache arrival.checkedAt id := by
          intro known
          have clash := (Bool.and_eq_true_iff.mp entered.1).2
          rw [repeats,entered.2,Option.any_some,decide_eq_true ((mem_evict _ _ _).mpr known)] at clash
          exact Bool.false_ne_true clash
        cases earlier : s.claimed id with
        | false => exact fresh ((agrees.own id earlier _ (Nat.le_refl _)).mpr before)
        | true => exact agrees.taken id earlier _ (Nat.le_refl _) before
      · exact agrees.taken id claimed later after

theorem along_harmless_iff (limit : Nat) (secret : String) (s : Watch) (trusted : Counters) (arrivals : List Arrival)
    (ordered : arrivals.Pairwise (fun earlier later => earlier.checkedAt ≤ later.checkedAt))
    (agrees : ∀ arrival ∈ arrivals, Agrees s trusted arrival.checkedAt) :
    Along (besides digest limit secret) (SameAdmission digest limit secret) (s.counters,trusted) arrivals ↔
      Along (watch digest limit secret) (Harmless digest limit secret) s arrivals := by
  induction arrivals generalizing s trusted with
  | nil => exact Iff.rfl
  | cons arrival rest ih =>
    obtain ⟨later,orderedRest⟩ := List.pairwise_cons.mp ordered
    have now := agrees arrival List.mem_cons_self
    rw [Along,Along,harmless_iff digest limit secret s trusted arrival now]
    apply and_congr_right
    intro harmless
    have same := (harmless_iff digest limit secret s trusted arrival now).mpr harmless
    have next := agrees_watch digest limit secret s trusted arrival now same
    exact ih (watch digest limit secret s arrival) _ orderedRest
      (fun other member => agrees_later _ _ _ _ (later other member) next)

/-- What a rate counter that began at `start` may count at most, by the instants so far. -/
def Covers (start : Nat × Nat) (past : List Nat) (rate : Nat × Nat) : Prop :=
  ∀ now, (∀ instant ∈ past, instant ≤ now) → start.2 ≤ now → now - rate.2 < 60000 →
    rate.1 ≤ (if now - start.2 < 60000 then start.1 else 0) + past.countP (fun instant => now - instant < 60000)

/-- In no minute are there more requests than the limit allows, those of before included. -/
def Sparse (limit : Nat) (start : Nat × Nat) (past : List Nat) : List Arrival → Prop
  | [] => True
  | arrival :: rest =>
    (if arrival.countedAt - start.2 < 60000 then start.1 else 0) +
        past.countP (fun instant => arrival.countedAt - instant < 60000) < limit ∧
      Sparse limit start (arrival.countedAt :: past) rest

theorem covers_unseen (start : Nat × Nat) (past : List Nat) (rate : Nat × Nat) (now : Nat)
    (covers : Covers start past rate) : Covers start (now :: past) rate := by
  intro later after began recent
  have before := covers later (fun instant member => after instant (List.mem_cons_of_mem now member)) began recent
  rw [List.countP_cons]
  omega

theorem covers_counted (limit : Nat) (start : Nat × Nat) (past : List Nat) (rate : Nat × Nat) (arrival : Arrival)
    (covers : Covers start past rate) (begun : rate.2 ≤ arrival.countedAt) :
    Covers start (arrival.countedAt :: past) (counted limit rate arrival) ∧
      (counted limit rate arrival).2 ≤ arrival.countedAt := by
  unfold counted countRequest
  split_ifs with elapsed full
  · refine ⟨?_,Nat.le_refl _⟩
    intro later after began recent
    dsimp only [Option.getD_some] at recent ⊢
    rw [List.countP_cons,if_pos (decide_eq_true recent)]
    exact Nat.le_add_left _ _
  · exact ⟨covers_unseen start _ rate arrival.countedAt covers,begun⟩
  · refine ⟨?_,begun⟩
    intro later after began recent
    have before := covers later (fun instant member => after instant (List.mem_cons_of_mem _ member)) began recent
    have now := after arrival.countedAt List.mem_cons_self
    have within : later - arrival.countedAt < 60000 := by
      dsimp only [Option.getD_some] at recent
      omega
    rw [List.countP_cons,if_pos (decide_eq_true within)]
    exact Nat.succ_le_succ before

theorem passes_sparse (limit : Nat) (start : Nat × Nat) (past : List Nat) (rate : Nat × Nat) (arrival : Arrival)
    (covers : Covers start past rate) (after : ∀ instant ∈ past, instant ≤ arrival.countedAt)
    (began : start.2 ≤ arrival.countedAt)
    (room : (if arrival.countedAt - start.2 < 60000 then start.1 else 0) +
      past.countP (fun instant => arrival.countedAt - instant < 60000) < limit) :
    passes limit rate arrival = true := by
  unfold passes countRequest
  split_ifs with elapsed full
  · rfl
  · have most := covers arrival.countedAt after began (by omega)
    omega
  · rfl

/-- No authentic request comes under an id that a request that is not authentic entered less
than a minute before. -/
def Unclaimed (secret : String) (s : Watch) (arrival : Arrival) : Prop :=
  authentic digest secret arrival = true → stolen s arrival = false

instance (secret : String) (s : Watch) (arrival : Arrival) : Decidable (Unclaimed digest secret s arrival) :=
  inferInstanceAs (Decidable (_ → _))

theorem along_unclaimed_iff (limit : Nat) (secret : String) (start : Nat × Nat) (past : List Nat) (s : Watch)
    (arrivals : List Arrival) (sparse : Sparse limit start past arrivals)
    (ordered : arrivals.Pairwise (fun earlier later => earlier.countedAt ≤ later.countedAt))
    (after : ∀ arrival ∈ arrivals, ∀ instant ∈ past, instant ≤ arrival.countedAt)
    (began : ∀ arrival ∈ arrivals, start.2 ≤ arrival.countedAt ∧ s.counters.rate.2 ≤ arrival.countedAt ∧
      s.trusted.2 ≤ arrival.countedAt)
    (everyone : Covers start past s.counters.rate) (trusted : Covers start past s.trusted) :
    Along (watch digest limit secret) (Harmless digest limit secret) s arrivals ↔
      Along (watch digest limit secret) (Unclaimed digest secret) s arrivals := by
  induction arrivals generalizing past s with
  | nil => exact Iff.rfl
  | cons arrival rest ih =>
    obtain ⟨room,sparseRest⟩ := sparse
    obtain ⟨later,orderedRest⟩ := List.pairwise_cons.mp ordered
    obtain ⟨started,begunAll,begunTrusted⟩ := began arrival List.mem_cons_self
    have passAll := passes_sparse limit start past s.counters.rate arrival everyone
      (after arrival List.mem_cons_self) started room
    have passTrusted := passes_sparse limit start past s.trusted arrival trusted
      (after arrival List.mem_cons_self) started room
    obtain ⟨coversAll,startAll⟩ := covers_counted limit start past s.counters.rate arrival everyone begunAll
    obtain ⟨coversTrusted,startTrusted⟩ := covers_counted limit start past s.trusted arrival trusted begunTrusted
    have here : Harmless digest limit secret s arrival ↔ Unclaimed digest secret s arrival := by
      unfold Harmless Unclaimed
      rw [passAll,passTrusted]
      simp
    rw [Along,Along,here]
    apply and_congr_right
    intro _
    apply ih (arrival.countedAt :: past) (watch digest limit secret s arrival) sparseRest orderedRest
    · intro other member instant present
      rcases List.mem_cons.mp present with same | earlier
      · rw [same]
        exact later other member
      · exact after other (List.mem_cons_of_mem arrival member) instant earlier
    · intro other member
      have before := began other (List.mem_cons_of_mem arrival member)
      refine ⟨before.1,?_,?_⟩
      · rw [watch,admission_rate]
        exact startAll.trans (later other member)
      · rw [watch]
        split_ifs with signed
        · exact startTrusted.trans (later other member)
        · exact before.2.2
    · rw [watch,admission_rate]
      exact coversAll
    · rw [watch]
      split_ifs with signed
      · exact coversTrusted
      · exact covers_unseen start past s.trusted arrival.countedAt trusted

/-- The requests to a hook with a secret, in any number and at any instants of a clock that
does not go back. -/
theorem unauthenticated_independent_iff (triggers : Triggers) (triggerId secret : String) (entry : TriggerEntry)
    (known : triggers.lookup triggerId = some entry) (guarded : entry.secret = some secret) (arrivals : List Arrival)
    (here : ∀ arrival ∈ arrivals, arrival.triggerId = triggerId)
    (checking : arrivals.Pairwise (fun earlier later => earlier.checkedAt ≤ later.checkedAt)) :
    (Independent digest fromSlice triggers secret arrivals ↔
        Along (watch digest entry.maxPerMinute secret) (Harmless digest entry.maxPerMinute secret)
          (.new entry.counters) arrivals) ∧
      ((∀ arrival ∈ arrivals, entry.counters.rate.2 ≤ arrival.countedAt) →
        arrivals.Pairwise (fun earlier later => earlier.countedAt ≤ later.countedAt) →
        Sparse entry.maxPerMinute entry.counters.rate [] arrivals →
        (Independent digest fromSlice triggers secret arrivals ↔
          Along (watch digest entry.maxPerMinute secret) (Unclaimed digest secret) (.new entry.counters) arrivals)) := by
  have exact : Independent digest fromSlice triggers secret arrivals ↔
      Along (watch digest entry.maxPerMinute secret) (Harmless digest entry.maxPerMinute secret)
        (.new entry.counters) arrivals := by
    rw [← along_harmless_iff digest entry.maxPerMinute secret (.new entry.counters) entry.counters arrivals checking
      (fun arrival _ => agrees_new entry.counters arrival.checkedAt)]
    exact served_filter_iff digest fromSlice entry secret triggerId guarded arrivals here triggers triggers
      entry.counters entry.counters known known
  refine ⟨exact,?_⟩
  intro began counting sparse
  have initially : Covers entry.counters.rate [] entry.counters.rate := by
    intro now _ _ recent
    rw [if_pos recent]
    exact Nat.le_add_right _ _
  exact exact.trans (along_unclaimed_iff digest entry.maxPerMinute secret entry.counters.rate [] (.new entry.counters)
    arrivals sparse counting (fun _ _ _ absent => absurd absent List.not_mem_nil)
    (fun arrival member => ⟨began arrival member,began arrival member,began arrival member⟩) initially initially)

end Server

/-! A forged request claims the request id of an authentic one. -/
section Claimed

/-- SHA-256 of the two messages from which the tag of `{}` under `s3cret` is made. -/
def knownDigest (message : List UInt8) : List UInt8 :=
  if message.length = 66 then
    [0xf3,0xb4,0x50,0x30,0xb2,0x8b,0x54,0x04,0x3b,0xa7,0x44,0x2e,0xa8,0xd4,0x3b,0x43,
      0x59,0x75,0x01,0x56,0x58,0x05,0x7e,0x4c,0x6f,0xbd,0xf2,0x8b,0x5c,0xfb,0xf3,0xfe]
  else
    [0xad,0xbd,0xe1,0xce,0x40,0xc8,0x9c,0x14,0x21,0x56,0x87,0xd5,0xd7,0x62,0xa4,0x7d,
      0xf6,0xdf,0xae,0xfc,0xfa,0xd6,0x1e,0x2e,0x86,0x71,0x8f,0xfc,0x84,0x98,0x57,0x1b]

def knownJson (bytes : List UInt8) : Option Json.Value :=
  if bytes = [0x7b,0x7d] then some (.object []) else none

def deploy : Triggers := registerTrigger 0 ∅ "deploy" (some "s3cret") none

def forgedWith (id : String) : Arrival := ⟨"deploy",[("X-Request-Id",some id)],[],1,1⟩

def signedPush : Arrival :=
  ⟨"deploy",[("X-Request-Id",some "42"),
    ("X-Hub-Signature-256",some "sha256=adbde1ce40c89c14215687d5d762a47df6dfaefcfad61e2e86718ffc8498571b")],
    [0x7b,0x7d],2,2⟩

theorem unauthenticated_independent_other_id :
    deploy.lookup "deploy" = some (.new 0 (some "s3cret") none) ∧
      Independent knownDigest knownJson deploy "s3cret" [forgedWith "41",signedPush] := by
  have here : ∀ arrival ∈ [forgedWith "41",signedPush], arrival.triggerId = "deploy" := by decide
  have along : Along (watch knownDigest 100 "s3cret") (Harmless knownDigest 100 "s3cret") (.new ⟨(0,0),∅⟩)
      [forgedWith "41",signedPush] := by
    decide +kernel
  exact ⟨rfl,(unauthenticated_independent_iff knownDigest knownJson deploy "deploy" "s3cret" _ rfl rfl _ here
    (by decide)).1.mpr along⟩

theorem forged_request_claims_id :
    (served knownDigest knownJson deploy [forgedWith "42",signedPush]).map (fun each => each.2.isSome) = [false,false] ∧
      (served knownDigest knownJson deploy [signedPush]).map (fun each => each.2.isSome) = [true] ∧
      ¬Independent knownDigest knownJson deploy "s3cret" [forgedWith "42",signedPush] := by
  have claimed : (served knownDigest knownJson deploy [forgedWith "42",signedPush]).map (fun each => each.2.isSome) =
      [false,false] := by decide +kernel
  have alone : (served knownDigest knownJson deploy [signedPush]).map (fun each => each.2.isSome) = [true] := by
    decide +kernel
  refine ⟨claimed,alone,?_⟩
  intro independent
  have same := congrArg (List.map (fun each => each.2.isSome)) independent
  have differ : ((served knownDigest knownJson deploy [forgedWith "42",signedPush]).filter
        (fun each => authentic knownDigest "s3cret" each.1)).map (fun each => each.2.isSome) ≠
      (served knownDigest knownJson deploy ([forgedWith "42",signedPush].filter
        (authentic knownDigest "s3cret"))).map (fun each => each.2.isSome) := by
    decide +kernel
  exact differ same

end Claimed
end ClawKernel.Runtime.WebhookServer