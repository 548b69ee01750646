import ClawKernel.Lib.Removal
import ClawKernel.Server.EventTrigger
import ClawKernel.Server.Webhook

/-! Triggers of the daemon: cron tasks of the scheduler, listeners on the event bus with their
abort handles, webhook endpoints, and the rows `TriggerStore` keeps of them for the next start.
The cron crate and the regex crate are parameters, a database access says whether it went well.
-/
namespace ClawKernel.Server.Triggers
open Lib Lib.Runs Lib.Removal Lib.Tables EventTrigger Webhook

inductive TriggerKind where
  | cron
  | webhook
  | event
  deriving DecidableEq, Repr

/-- A row without its key `trigger_id`. -/
structure PersistedTrigger where
  kind : TriggerKind
  cronExpr : Option String
  targetAgent : String
  message : Option String
  endpoint : Option String
  eventPattern : Option String
  deriving DecidableEq, Repr

structure TriggerAddCronParams where
  triggerId : String
  cronExpr : String
  targetAgent : String
  message : Option String

structure TriggerAddWebhookParams where
  triggerId : String
  targetAgent : String
  hmacSecret : Option String

structure TriggerAddEventParams where
  triggerId : String
  eventPattern : String
  condition : Option Json.Value
  targetAgent : String
  message : Option String

/-- A cron task injects its payload into its target at every occurrence of its expression. -/
structure CronTask where
  cronExpr : String
  target : String
  payload : Option String
  deriving DecidableEq, Repr

/-- A spawned listener; `react` is what it injects on an event, if anything. -/
structure Listener where
  triggerId : String
  target : String
  react : Event → Option String

structure Daemon where
  tasks : Table String CronTask
  listeners : Table Nat Listener
  handles : Table String Nat
  nextListener : Nat
  endpoints : Option (Table String EndpointState)
  store : Option (Table String PersistedTrigger)

inductive Firing where
  | steer (triggerId target : String) (payload : Option String)
  | inbound (triggerId target : String) (body : List UInt8)
  deriving DecidableEq, Repr

def Firing.triggerId : Firing → String
  | .steer triggerId _ _ => triggerId
  | .inbound triggerId _ _ => triggerId

abbrev Store := Option (Table String PersistedTrigger)

/-- `INSERT OR REPLACE`; a failed write is only logged. -/
def save (store : Store) (written : Bool) (id : String) (row : PersistedTrigger) : Store :=
  if written then store.map (·.insert id row) else store

def saveCron (store : Store) (written : Bool) (params : TriggerAddCronParams) : Store :=
  save store written params.triggerId
    ⟨.cron,some params.cronExpr,params.targetAgent,params.message,none,none⟩

def saveWebhook (store : Store) (written : Bool) (params : TriggerAddWebhookParams) (endpoint : String) : Store :=
  save store written params.triggerId ⟨.webhook,none,params.targetAgent,none,some endpoint,none⟩

def saveEvent (store : Store) (written : Bool) (params : TriggerAddEventParams) : Store :=
  save store written params.triggerId
    ⟨.event,none,params.targetAgent,params.message,none,some params.eventPattern⟩

def hooks (triggerId : String) : String := "/hooks/" ++ triggerId

/-- Spawns a listener, if there is one to run, and files its abort handle under the id. -/
def spawnListener (s : Daemon) (id : String) (listener : Option Listener) : Daemon :=
  { s with
    listeners := match listener with
      | none => s.listeners
      | some l => s.listeners.insert s.nextListener l
    handles := s.handles.insert id s.nextListener
    nextListener := s.nextListener + 1 }

section Daemon
variable (schedules : String → Nat → Bool) (regex : String → Option (String → Bool))
  (digest : List UInt8 → List UInt8)

/-- `TokioScheduler::schedule` of a cron task: the id is free, the expression parses and
has an occurrence to come. -/
def schedule (s : Daemon) (now : Nat) (id : String) (task : CronTask) : Option Daemon :=
  if id ∈ s.tasks then none
  else if schedules task.cronExpr now then some { s with tasks := s.tasks.insert id task }
  else none

def cronTask (params : TriggerAddCronParams) : CronTask :=
  ⟨params.cronExpr,params.targetAgent,some (params.message.getD "")⟩

def addCron (s : Daemon) (params : TriggerAddCronParams) (now : Nat) (written : Bool) : Option Daemon :=
  (schedule schedules s now params.triggerId (cronTask params)).map
    (fun t => { t with store := saveCron t.store written params })

def endpointConfig (params : TriggerAddWebhookParams) : EndpointConfig :=
  let config := EndpointConfig.new (hooks params.triggerId) params.triggerId params.targetAgent
  match params.hmacSecret with
  | none => config
  | some secret => config.withHmacSha256 secret "X-Hub-Signature-256"

/-- Without a webhook server the trigger is only noted in the channel registry. -/
def addWebhook (s : Daemon) (params : TriggerAddWebhookParams) (now : Nat) (written : Bool) : Option Daemon :=
  match s.endpoints with
  | none => some s
  | some endpoints =>
    (register now endpoints (endpointConfig params)).map (fun next =>
      { s with endpoints := some next,store := saveWebhook s.store written params (hooks params.triggerId) })

def buildEventPatternRegex (pattern : String) : Option (String → Bool) := regex (patternSource pattern)

/-- One turn of the listener loop of `handle_trigger_add_event`. -/
def eventReaction (isMatch : String → Bool) (params : TriggerAddEventParams) (event : Event) : Option String :=
  if isMatch (eventTypeName event) = false then none
  else
    match params.condition with
    | none => some (renderTemplate (params.message.getD placeholder) event)
    | some condition =>
      if conditionMatches event condition then some (renderTemplate (params.message.getD placeholder) event)
      else none

def addEvent (s : Daemon) (params : TriggerAddEventParams) (written : Bool) : Option Daemon :=
  (buildEventPatternRegex regex params.eventPattern).map (fun isMatch =>
    let spawned := spawnListener s params.triggerId
      (some ⟨params.triggerId,params.targetAgent,eventReaction isMatch params⟩)
    { spawned with store := saveEvent s.store written params })

def remove (s : Daemon) (id : String) (deleted : Bool) : Daemon :=
  { s with
    tasks := s.tasks.erase id
    listeners := match s.handles.lookup id with
      | none => s.listeners
      | some listener => s.listeners.erase listener
    handles := s.handles.erase id
    store := if deleted then s.store.map (·.erase id) else s.store }

/-- One turn of the listener loop of a restored trigger. -/
def restoredReaction (isMatch : String → Bool) (message : Option String) (event : Event) : Option String :=
  if isMatch (eventTypeName event) then some (message.getD "") else none

/-- What `KernelServer::run` does with one row. -/
def restoreTrigger (now : Nat) (s : Daemon) (id : String) (row : PersistedTrigger) : Daemon :=
  match row.kind with
  | .cron =>
    match row.cronExpr with
    | none => s
    | some expr => (schedule schedules s now id ⟨expr,row.targetAgent,row.message⟩).getD s
  | .webhook =>
    match s.endpoints with
    | none => s
    | some endpoints =>
      match register now endpoints (.new (row.endpoint.getD (hooks id)) id row.targetAgent) with
      | none => s
      | some next => { s with endpoints := some next }
  | .event =>
    match row.eventPattern with
    | none => s
    | some pattern =>
      -- the regex is compiled inside the task, whose handle is filed all the same
      spawnListener s id ((buildEventPatternRegex regex pattern).map (fun isMatch =>
        ⟨id,row.targetAgent,restoredReaction isMatch row.message⟩))

def fresh (webhooks : Bool) (store : Store) : Daemon :=
  ⟨∅,∅,∅,0,if webhooks then some ∅ else none,store⟩

/-- The start of a daemon; where the rows cannot be read it starts without triggers. -/
def boot (webhooks : Bool) (store : Store) (now : Nat) (loaded : Bool) : Daemon :=
  match store with
  | none => fresh webhooks none
  | some rows =>
    if loaded then
      rows.entries.foldl (fun s row => restoreTrigger schedules regex now s row.1 row.2) (fresh webhooks (some rows))
    else fresh webhooks (some rows)

inductive Input where
  | addCron (params : TriggerAddCronParams) (now : Nat) (written : Bool)
  | addWebhook (params : TriggerAddWebhookParams) (now : Nat) (written : Bool)
  | addEvent (params : TriggerAddEventParams) (written : Bool)
  | remove (id : String) (deleted : Bool)
  | tick (id : String)
  | publish (event : Event)
  | request (now : Nat) (request : Request)
  | listenerEnds (listener : Nat)
  | restart (now : Nat) (loaded : Bool)

def step (s : Daemon) : Input → Daemon
  | .addCron params now written => (addCron schedules s params now written).getD s
  | .addWebhook params now written => (addWebhook s params now written).getD s
  | .addEvent params written => (addEvent regex s params written).getD s
  | .remove id deleted => remove s id deleted
  | .tick _ => s
  | .publish _ => s
  | .request now request =>
    { s with endpoints := s.endpoints.map (fun endpoints => (processWebhook digest now endpoints request).1) }
  | .listenerEnds listener =>
    match s.listeners.lookup listener with
    | none => s
    | some l => { s with listeners := s.listeners.erase listener,handles := s.handles.erase l.triggerId }
  | .restart now loaded => boot schedules regex s.endpoints.isSome s.store now loaded

/-- The id of an add that answers without an error. -/
def added (s : Daemon) : Input → Option String
  | .addCron params now written => (addCron schedules s params now written).map (fun _ => params.triggerId)
  | .addWebhook params now written => (addWebhook s params now written).map (fun _ => params.triggerId)
  | .addEvent params written => (addEvent regex s params written).map (fun _ => params.triggerId)
  | _ => none

/-- What the triggers do on a tick, an event or a request. -/
def firings (s : Daemon) : Input → List Firing
  | .tick id =>
    match s.tasks.lookup id with
    | none => []
    | some task => [.steer id task.target task.payload]
  | .publish event =>
    s.listeners.entries.filterMap (fun entry =>
      (entry.2.react event).map (fun payload => .steer entry.2.triggerId entry.2.target (some payload)))
  | .request now request =>
    match s.endpoints with
    | none => []
    | some endpoints =>
      match (processWebhook digest now endpoints request).2 with
      | .handled triggerId target => [.inbound triggerId target request.body]
      | _ => []
  | _ => []

def removedBy (_ : Daemon) : Input → Option String
  | .remove id _ => some id
  | _ => none

/-- No tick, event or request makes the trigger fire, and no row is kept of it. -/
def Quiet (s : Daemon) (id : String) : Prop :=
  (∀ i, ∀ firing ∈ firings digest s i, firing.triggerId ≠ id) ∧ ∀ rows, s.store = some rows → id ∉ rows

/-- A removed id has no endpoint, its row can be deleted, and the only listener under it that
an event can wake is the one whose handle is filed. -/
def RemovesWhole (s : Daemon) : Input → Prop
  | .remove id deleted =>
    (∀ endpoints, s.endpoints = some endpoints → All (fun config => config.triggerId ≠ id) endpoints) ∧
    (∀ number listener, s.listeners.lookup number = some listener → listener.triggerId = id →
      s.handles.lookup id ≠ some number → ∀ event, listener.react event = none) ∧
    (deleted = false → ∀ rows, s.store = some rows → id ∉ rows)
  | _ => True

/-! Firing, in terms of the tables. -/

structure Silent (s : Daemon) (id : String) : Prop where
  tasks : id ∉ s.tasks
  listeners : ∀ number listener, s.listeners.lookup number = some listener → listener.triggerId = id →
    ∀ event, listener.react event = none
  endpoints : ∀ endpoints, s.endpoints = some endpoints → All (fun config => config.triggerId ≠ id) endpoints
  rows : ∀ rows, s.store = some rows → id ∉ rows

theorem quiet_of_silent (s : Daemon) (id : String) (silent : Silent s id) : Quiet digest s id := by
  refine ⟨?_,silent.rows⟩
  intro i firing member same
  cases i with
  | tick other =>
    simp only [firings] at member
    split at member
    · cases member
    · rename_i task found
      rw [List.mem_singleton.mp member] at same
      have name : other = id := same
      rw [name] at found
      exact silent.tasks (AList.lookup_isSome.mp (by rw [found]; rfl))
  | publish event =>
    obtain ⟨entry,held,reacts⟩ := List.mem_filterMap.mp member
    obtain ⟨payload,reaction,made⟩ := Option.map_eq_some_iff.mp reacts
    rw [← made] at same
    have still := silent.listeners entry.1 entry.2 ((entry_iff _ _ _).mp held) same event
    rw [still] at reaction
    cases reaction
  | request now request =>
    simp only [firings] at member
    split at member
    · cases member
    · rename_i endpoints present
      split at member
      · rename_i triggerId target handled
        obtain ⟨path,state,found,name⟩ := processWebhook_handled digest now endpoints request triggerId target handled
        rw [List.mem_singleton.mp member] at same
        exact silent.endpoints endpoints present path state found (name.trans same)
      · cases member
  | _ => cases member

theorem silent_of_quiet (s : Daemon) (id : String)
    (built : ∀ endpoints, s.endpoints = some endpoints → All Built endpoints) (quiet : Quiet digest s id) :
    Silent s id := by
  obtain ⟨still,rows⟩ := quiet
  refine ⟨?_,?_,?_,rows⟩
  · intro present
    obtain ⟨task,found⟩ := Option.isSome_iff_exists.mp (AList.lookup_isSome.mpr present)
    apply still (.tick id) (.steer id task.target task.payload) _ rfl
    simp only [firings,found]
    exact List.mem_singleton_self _
  · intro number listener found name event
    cases reaction : listener.react event with
    | none => rfl
    | some payload =>
      refine absurd name (still (.publish event) (.steer listener.triggerId listener.target (some payload)) ?_)
      exact List.mem_filterMap.mpr ⟨⟨number,listener⟩,(entry_iff _ _ _).mpr found,by rw [reaction]; rfl⟩
  · intro endpoints present path state found name
    obtain ⟨now,request,at_path,handled⟩ := reachable digest state (built endpoints present path state found) path
    refine still (.request now request) (.inbound state.config.triggerId state.config.target request.body) ?_ name
    have answer : (processWebhook digest now endpoints request).2 =
        .handled state.config.triggerId state.config.target := by
      rw [processWebhook,at_path,found]
      exact handled
    simp only [firings,present,answer]
    exact List.mem_singleton_self _

/-! What the parts of an add or of a restart leave silent. -/

theorem schedule_eq_some (s t : Daemon) (now : Nat) (id : String) (task : CronTask)
    (scheduled : schedule schedules s now id task = some t) : t = { s with tasks := s.tasks.insert id task } := by
  unfold schedule at scheduled
  split at scheduled
  · cases scheduled
  · split at scheduled
    · exact (Option.some_inj.mp scheduled).symm
    · cases scheduled

/-- A row is passed over, or gives a task, an endpoint or a listener of its id. -/
theorem restoreTrigger_rule (holds : Daemon → Prop) (now : Nat) (s : Daemon) (id : String) (row : PersistedTrigger)
    (same : holds s) (cron : ∀ task, holds { s with tasks := s.tasks.insert id task })
    (webhook : ∀ endpoints next target, row.kind = .webhook → s.endpoints = some endpoints →
      register now endpoints (.new (row.endpoint.getD (hooks id)) id target) = some next →
      holds { s with endpoints := some next })
    (event : ∀ listener : Option Listener, (∀ l, listener = some l → l.triggerId = id) →
      holds (spawnListener s id listener)) :
    holds (restoreTrigger schedules regex now s id row) := by
  unfold restoreTrigger
  split
  · split
    · exact same
    · cases scheduled : schedule schedules s now id ⟨_,row.targetAgent,row.message⟩ with
      | none => exact same
      | some t =>
        rw [schedule_eq_some schedules s t now id _ scheduled]
        exact cron _
  · split
    · exact same
    · split
      · exact same
      · exact webhook _ _ _ ‹_› ‹_› ‹_›
  · split
    · exact same
    · apply event
      intro l made
      obtain ⟨isMatch,_,own⟩ := Option.map_eq_some_iff.mp made
      rw [← own]

theorem silent_insert (s : Daemon) (other id : String) (task : CronTask) (apart : id ≠ other) (silent : Silent s id) :
    Silent { s with tasks := s.tasks.insert other task } id := by
  refine ⟨?_,silent.listeners,silent.endpoints,silent.rows⟩
  intro present
  rcases (AList.mem_insert _).mp present with same | present
  · exact apart same
  · exact silent.tasks present

theorem silent_spawnListener (s : Daemon) (other id : String) (listener : Option Listener)
    (apart : ∀ l, listener = some l → l.triggerId ≠ id) (silent : Silent s id) :
    Silent (spawnListener s other listener) id := by
  refine ⟨silent.tasks,?_,silent.endpoints,silent.rows⟩
  intro number l found name
  cases listener with
  | none => exact silent.listeners number l found name
  | some new =>
    have looked : (s.listeners.insert s.nextListener new).lookup number = some l := found
    rcases lookup_of_insert s.listeners s.nextListener number new l looked with ⟨_,same⟩ | ⟨_,before⟩
    · rw [same] at name
      exact absurd name (apart new rfl)
    · exact silent.listeners number l before name

theorem silent_register (s : Daemon) (now : Nat) (endpoints next : Table String EndpointState)
    (config : EndpointConfig) (id : String) (present : s.endpoints = some endpoints)
    (registered : register now endpoints config = some next) (apart : config.triggerId ≠ id) (silent : Silent s id) :
    Silent { s with endpoints := some next } id := by
  refine ⟨silent.tasks,silent.listeners,?_,silent.rows⟩
  intro after same
  rw [← Option.some_inj.mp same]
  exact register_all _ now endpoints next config registered (silent.endpoints endpoints present) apart

theorem silent_save (s : Daemon) (written : Bool) (other id : String) (row : PersistedTrigger) (apart : id ≠ other)
    (silent : Silent s id) : Silent { s with store := save s.store written other row } id := by
  refine ⟨silent.tasks,silent.listeners,silent.endpoints,?_⟩
  intro rows same
  unfold save at same
  split at same
  · obtain ⟨before,held,made⟩ := Option.map_eq_some_iff.mp same
    rw [← made]
    intro present
    rcases (AList.mem_insert _).mp present with same | present
    · exact apart same
    · exact silent.rows before held present
  · exact silent.rows rows same

theorem endpointConfig_triggerId (params : TriggerAddWebhookParams) :
    (endpointConfig params).triggerId = params.triggerId := by
  unfold endpointConfig
  cases params.hmacSecret <;> rfl

theorem endpointConfig_built (params : TriggerAddWebhookParams) : Built (endpointConfig params) := by
  unfold endpointConfig
  cases params.hmacSecret with
  | none => exact .plain _ _ _
  | some secret => exact .signed _ _ _ secret

theorem silent_restoreTrigger (now : Nat) (s : Daemon) (other id : String) (row : PersistedTrigger) (apart : id ≠ other)
    (silent : Silent s id) : Silent (restoreTrigger schedules regex now s other row) id := by
  apply restoreTrigger_rule schedules regex (fun t => Silent t id) now s other row silent
  · intro task
    exact silent_insert s other id task apart silent
  · intro endpoints next target _ present registered
    exact silent_register s now endpoints next _ id present registered apart.symm silent
  · intro listener own
    exact silent_spawnListener s other id listener (fun l made => own l made ▸ apart.symm) silent

theorem silent_fresh (webhooks : Bool) (store : Store) (id : String) (rows : ∀ rows, store = some rows → id ∉ rows) :
    Silent (fresh webhooks store) id := by
  refine ⟨AList.notMem_empty id,?_,?_,rows⟩
  · intro number listener found
    cases found
  · intro endpoints present path state found
    cases webhooks with
    | false => cases present
    | true =>
      rw [← Option.some_inj.mp present] at found
      cases found

theorem silent_boot (webhooks : Bool) (store : Store) (now : Nat) (loaded : Bool) (id : String)
    (rows : ∀ rows, store = some rows → id ∉ rows) :
    Silent (boot schedules regex webhooks store now loaded) id := by
  have start := silent_fresh webhooks store id rows
  unfold boot
  split
  · exact start
  · rename_i table
    split
    · have absent := rows table rfl
      apply List.foldlRecOn (motive := fun s => Silent s id) table.entries _ start
      intro s silent row member
      apply silent_restoreTrigger schedules regex now s row.1 id row.2 _ silent
      intro same
      apply absent
      rw [same]
      exact AList.mem_keys.mpr (List.mem_keys_of_mem member)
    · exact start

/-- What a step can do to the tables. -/
theorem step_rule (holds : Daemon → Prop) (s : Daemon) (i : Input) (same : holds s)
    (cron : ∀ params written, added schedules regex s i = some params.triggerId →
      holds { s with
        tasks := s.tasks.insert params.triggerId (cronTask params),store := saveCron s.store written params })
    (webhook : ∀ params now written endpoints next, added schedules regex s i = some params.triggerId →
      s.endpoints = some endpoints → register now endpoints (endpointConfig params) = some next →
      holds { s with endpoints := some next,store := saveWebhook s.store written params (hooks params.triggerId) })
    (event : ∀ params written isMatch, added schedules regex s i = some params.triggerId →
      holds { spawnListener s params.triggerId
        (some ⟨params.triggerId,params.targetAgent,eventReaction isMatch params⟩) with
        store := saveEvent s.store written params })
    (removal : ∀ id deleted, holds (remove s id deleted))
    (request : ∀ now request, holds { s with
      endpoints := s.endpoints.map (fun endpoints => (processWebhook digest now endpoints request).1) })
    (ends : ∀ number id, holds { s with listeners := s.listeners.erase number,handles := s.handles.erase id })
    (restart : ∀ now loaded, holds (boot schedules regex s.endpoints.isSome s.store now loaded)) :
    holds (step schedules regex digest s i) := by
  cases i with
  | addCron params now written =>
    cases scheduled : schedule schedules s now params.triggerId (cronTask params) with
    | none =>
      simp only [step,addCron,scheduled]
      exact same
    | some t =>
      have answered : added schedules regex s (.addCron params now written) = some params.triggerId := by
        simp only [added,addCron,scheduled]
        rfl
      simp only [step,addCron,scheduled]
      rw [schedule_eq_some schedules s t now _ _ scheduled]
      exact cron params written answered
  | addWebhook params now written =>
    cases present : s.endpoints with
    | none =>
      simp only [step,addWebhook,present]
      exact same
    | some endpoints =>
      cases registered : register now endpoints (endpointConfig params) with
      | none =>
        simp only [step,addWebhook,present,registered]
        exact same
      | some next =>
        have answered : added schedules regex s (.addWebhook params now written) = some params.triggerId := by
          simp only [added,addWebhook,present,registered]
          rfl
        simp only [step,addWebhook,present,registered]
        exact webhook params now written endpoints next answered present registered
  | addEvent params written =>
    cases compiled : buildEventPatternRegex regex params.eventPattern with
    | none =>
      simp only [step,addEvent,compiled]
      exact same
    | some isMatch =>
      have answered : added schedules regex s (.addEvent params written) = some params.triggerId := by
        simp only [added,addEvent,compiled]
        rfl
      simp only [step,addEvent,compiled]
      exact event params written isMatch answered
  | remove id deleted => exact removal id deleted
  | tick _ => exact same
  | publish _ => exact same
  | request now message => exact request now message
  | listenerEnds number =>
    simp only [step]
    split
    · exact same
    · exact ends number _
  | restart now loaded => exact restart now loaded

theorem silent_remove (s : Daemon) (other id : String) (deleted : Bool) (silent : Silent s id) :
    Silent (remove s other deleted) id := by
  refine ⟨fun present => silent.tasks (AList.mem_erase.mp present).2,?_,silent.endpoints,?_⟩
  · intro number listener found
    apply silent.listeners number listener
    simp only [remove] at found
    split at found
    · exact found
    · exact (lookup_of_erase s.listeners _ number listener found).2
  · intro rows same
    simp only [remove] at same
    split at same
    · obtain ⟨before,held,made⟩ := Option.map_eq_some_iff.mp same
      rw [← made]
      exact fun present => silent.rows before held (AList.mem_erase.mp present).2
    · exact silent.rows rows same

theorem silent_step (s : Daemon) (i : Input) (id : String) (unnamed : added schedules regex s i ≠ some id)
    (silent : Silent s id) : Silent (step schedules regex digest s i) id := by
  have apart (other : String) (answered : added schedules regex s i = some other) : id ≠ other := by
    intro same
    apply unnamed
    rw [answered,same]
  apply step_rule schedules regex digest (fun t => Silent t id) s i silent
  · intro params written answered
    have other := apart params.triggerId answered
    exact silent_save _ written params.triggerId id _ other (silent_insert s params.triggerId id _ other silent)
  · intro params now written endpoints next answered present registered
    have other := apart params.triggerId answered
    apply silent_save { s with endpoints := some next } written params.triggerId id _ other
    apply silent_register s now endpoints next _ id present registered _ silent
    rw [endpointConfig_triggerId]
    exact other.symm
  · intro params written isMatch answered
    have other := apart params.triggerId answered
    apply silent_save (spawnListener s params.triggerId _) written params.triggerId id _ other
    apply silent_spawnListener s params.triggerId id _ _ silent
    intro l same
    rw [← Option.some_inj.mp same]
    exact other.symm
  · intro other deleted
    exact silent_remove s other id deleted silent
  · intro now request
    refine ⟨silent.tasks,silent.listeners,?_,silent.rows⟩
    intro after same
    obtain ⟨endpoints,present,made⟩ := Option.map_eq_some_iff.mp same
    rw [← made]
    exact processWebhook_all digest _ now endpoints request (silent.endpoints endpoints present)
  · intro number other
    refine ⟨silent.tasks,?_,silent.endpoints,silent.rows⟩
    intro another listener found
    exact silent.listeners another listener (lookup_of_erase s.listeners number another listener found).2
  · intro now loaded
    exact silent_boot schedules regex _ _ now loaded id silent.rows

theorem silent_remove_iff (s : Daemon) (id : String) (deleted : Bool) :
    Silent (remove s id deleted) id ↔ RemovesWhole s (.remove id deleted) := by
  constructor
  · intro silent
    refine ⟨silent.endpoints,?_,?_⟩
    · intro number listener found name other
      apply silent.listeners number listener _ name
      simp only [remove]
      split
      · exact found
      · rename_i handled filed
        rw [lookup_erase_if,if_neg]
        · exact found
        · intro same
          rw [same] at other
          exact other filed
    · intro failed rows present
      apply silent.rows rows
      simp only [remove,failed]
      exact present
  · intro ⟨endpoints,listeners,rows⟩
    refine ⟨fun present => (AList.mem_erase.mp present).1 rfl,?_,endpoints,?_⟩
    · intro number listener found name
      simp only [remove] at found
      split at found
      · rename_i unfiled
        exact listeners number listener found name (by rw [unfiled]; exact (Option.some_ne_none number).symm)
      · rename_i handled filed
        obtain ⟨apart,before⟩ := lookup_of_erase s.listeners handled number listener found
        apply listeners number listener before name
        rw [filed]
        exact fun same => apart (Option.some_inj.mp same).symm
    · intro after same
      cases deleted with
      | false => exact rows rfl after same
      | true =>
        obtain ⟨before,_,made⟩ := Option.map_eq_some_iff.mp (same : s.store.map (·.erase id) = some after)
        rw [← made]
        exact fun present => (AList.mem_erase.mp present).1 rfl

def AllBuilt (s : Daemon) : Prop := ∀ endpoints, s.endpoints = some endpoints → All Built endpoints

theorem built_register (s : Daemon) (now : Nat) (endpoints next : Table String EndpointState) (config : EndpointConfig)
    (present : s.endpoints = some endpoints) (registered : register now endpoints config = some next)
    (new : Built config) (built : AllBuilt s) (after : Table String EndpointState) (same : some next = some after) :
    All Built after := by
  rw [← Option.some_inj.mp same]
  exact register_all Built now endpoints next config registered (built endpoints present) new

theorem built_restoreTrigger (now : Nat) (s : Daemon) (id : String) (row : PersistedTrigger) (built : AllBuilt s) :
    AllBuilt (restoreTrigger schedules regex now s id row) := by
  apply restoreTrigger_rule schedules regex AllBuilt now s id row built
  · intro task
    exact built
  · intro endpoints next target _ present registered after same
    exact built_register s now endpoints next _ present registered (.plain _ _ _) built after same
  · intro listener _
    exact built

theorem built_boot (webhooks : Bool) (store : Store) (now : Nat) (loaded : Bool) :
    AllBuilt (boot schedules regex webhooks store now loaded) := by
  have start : ∀ rows, AllBuilt (fresh webhooks rows) := by
    intro rows endpoints present path state found
    cases webhooks with
    | false => cases present
    | true =>
      rw [← Option.some_inj.mp present] at found
      cases found
  unfold boot
  split
  · exact start none
  · split
    · apply List.foldlRecOn (motive := AllBuilt) _ _ (start _)
      intro s built row _
      exact built_restoreTrigger schedules regex now s row.1 row.2 built
    · exact start _

theorem built_step (s : Daemon) (i : Input) (built : AllBuilt s) : AllBuilt (step schedules regex digest s i) := by
  apply step_rule schedules regex digest AllBuilt s i built
  · intro params written _
    exact built
  · intro params now written endpoints next _ present registered after same
    exact built_register s now endpoints next _ present registered (endpointConfig_built params) built after same
  · intro params written isMatch _
    exact built
  · intro id deleted
    exact built
  · intro now request after same
    obtain ⟨endpoints,present,made⟩ := Option.map_eq_some_iff.mp same
    rw [← made]
    exact processWebhook_all digest Built now endpoints request (built endpoints present)
  · intro number id
    exact built
  · intro now loaded
    exact built_boot schedules regex _ _ now loaded

theorem step_accounts (s : Daemon) (i : Input) (built : AllBuilt s) :
    Accounts (step schedules regex digest) removedBy (added schedules regex) (Quiet digest) RemovesWhole s i where
  kept id unnamed quiet :=
    quiet_of_silent digest _ id (silent_step schedules regex digest s i id unnamed (silent_of_quiet digest s id built quiet))
  apart id removed := by
    cases i with
    | remove other deleted => rfl
    | _ => cases removed
  exact id removed := by
    cases i with
    | remove other deleted =>
      rw [← Option.some_inj.mp removed,← silent_remove_iff]
      exact ⟨silent_of_quiet digest _ other (built_step schedules regex digest s (.remove other deleted) built),
        quiet_of_silent digest _ other⟩
    | _ => cases removed
  idle kept := by
    cases i with
    | remove other deleted => cases kept
    | _ => trivial

/-- In every state of a run a removed trigger is quiet until it is added again, exactly when
each removed id is without an endpoint, its row is deleted and no listener runs under it
beside the one whose handle is filed. -/
theorem removal_complete_iff (webhooks : Bool) (store : Store) (now : Nat) (loaded : Bool) (steps : List Input) :
    Always (watch (step schedules regex digest) removedBy (added schedules regex)) (Gone (Quiet digest))
        ⟨boot schedules regex webhooks store now loaded,[]⟩ steps ↔
      Along (step schedules regex digest) RemovesWhole (boot schedules regex webhooks store now loaded) steps :=
  always_gone_iff _ _ _ (Quiet digest) RemovesWhole AllBuilt (built_step schedules regex digest)
    (step_accounts schedules regex digest) _ (built_boot schedules regex webhooks store now loaded) steps

end Daemon

def shutdownPattern (source : String) : Option (String → Bool) :=
  if source = "^shutdown$" then some (· == "shutdown") else none

/-- A removed webhook still runs its agent, and an event trigger that was added twice still
steers its own. -/
theorem removed_triggers_fire :
    ¬Gone (Quiet id) (run (watch (step (fun _ _ => false) shutdownPattern id) removedBy
      (added (fun _ _ => false) shutdownPattern)) ⟨boot (fun _ _ => false) shutdownPattern true (some ∅) 0 true,[]⟩
      [.addWebhook ⟨"deploy","builder",none⟩ 0 true,.remove "deploy" true]) ∧
    ¬Gone (Quiet id) (run (watch (step (fun _ _ => false) shutdownPattern id) removedBy
      (added (fun _ _ => false) shutdownPattern)) ⟨boot (fun _ _ => false) shutdownPattern true (some ∅) 0 true,[]⟩
      [.addEvent ⟨"bye","shutdown",none,"logger",none⟩ true,.addEvent ⟨"bye","shutdown",none,"logger",none⟩ true,
        .remove "bye" true]) := by
  constructor
  · intro gone
    have quiet := gone "deploy" (by decide)
    exact quiet.1 (.request 0 ⟨"/hooks/deploy","POST",[],[]⟩) (.inbound "deploy" "builder" []) (by decide) rfl
  · intro gone
    have quiet := gone "bye" (by decide)
    exact quiet.1 (.publish .shutdown) (.steer "bye" "logger" (some "shutdown")) (by decide) rfl

end ClawKernel.Server.Triggers
