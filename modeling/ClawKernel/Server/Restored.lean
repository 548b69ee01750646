import ClawKernel.Server.Triggers

/-! Triggers after a restart, beside the ones that were added: the endpoint, the listener and
the task that are built from a row against those built from the request.
-/
namespace ClawKernel.Server.Restored
open Lib Lib.Runs Lib.Tables EventTrigger Webhook Triggers

def endpointAt (s : Daemon) (path : String) : Option EndpointState :=
  s.endpoints.bind (·.lookup path)

def listenerOf (s : Daemon) (id : String) : Option Listener :=
  (s.handles.lookup id).bind s.listeners.lookup

def rowOf (s : Daemon) (id : String) : Option PersistedTrigger :=
  s.store.bind (·.lookup id)

theorem rows_of_rowOf (s : Daemon) (id : String) (row : PersistedTrigger) (found : rowOf s id = some row) :
    ∃ rows, s.store = some rows ∧ rows.lookup id = some row :=
  Option.bind_eq_some_iff.mp found

/-- Every webhook row names the endpoint of its own id. -/
def OwnPaths (store : Store) : Prop :=
  ∀ rows, store = some rows → ∀ id row, rows.lookup id = some row → row.kind = .webhook →
    row.endpoint = some (hooks id)

def Free (path : String) (s : Daemon) : Prop :=
  ∃ endpoints, s.endpoints = some endpoints ∧ endpoints.lookup path = none

theorem hooks_inj (id other : String) (same : hooks id = hooks other) : id = other := by
  rw [hooks,hooks,← String.toList_inj,String.toList_append,String.toList_append,List.append_cancel_left_eq,
    String.toList_inj] at same
  exact same

/-- The handle filed under an id is that of a listener that was spawned. -/
def Held (id : String) (listener : Listener) (s : Daemon) : Prop :=
  ∃ number, number < s.nextListener ∧ s.handles.lookup id = some number ∧ s.listeners.lookup number = some listener

theorem listenerOf_of_held (s : Daemon) (id : String) (listener : Listener) (held : Held id listener s) :
    listenerOf s id = some listener := by
  obtain ⟨number,_,handle,found⟩ := held
  rw [listenerOf,handle,Option.bind_some,found]

theorem held_spawnListener (s : Daemon) (id : String) (listener : Listener) :
    Held id listener (spawnListener s id (some listener)) :=
  ⟨s.nextListener,Nat.lt_succ_self _,AList.lookup_insert s.handles,AList.lookup_insert s.listeners⟩

theorem held_other (s : Daemon) (id other : String) (listener : Listener) (new : Option Listener) (apart : id ≠ other)
    (held : Held id listener s) : Held id listener (spawnListener s other new) := by
  obtain ⟨number,old,handle,found⟩ := held
  refine ⟨number,Nat.lt_succ_of_lt old,(AList.lookup_insert_ne apart).trans handle,?_⟩
  cases new with
  | none => exact found
  | some l => exact (AList.lookup_insert_ne (Nat.ne_of_lt old)).trans found

section Restart
variable (schedules : String → Nat → Bool) (regex : String → Option (String → Bool))
  (digest : List UInt8 → List UInt8)

theorem boot_store (webhooks : Bool) (store : Store) (now : Nat) (loaded : Bool) :
    (boot schedules regex webhooks store now loaded).store = store := by
  unfold boot
  split
  · rfl
  · rename_i rows
    split
    · apply List.foldlRecOn (motive := fun s : Daemon => s.store = some rows) _ _ rfl
      intro s same row _
      exact restoreTrigger_rule schedules regex (fun t => t.store = some rows) now s row.1 row.2 same
        (fun _ => same) (fun _ _ _ _ _ _ => same) (fun _ _ => same)
    · rfl

theorem ownPaths_save (store : Store) (written : Bool) (id : String) (row : PersistedTrigger) (own : OwnPaths store)
    (new : row.kind = .webhook → row.endpoint = some (hooks id)) : OwnPaths (save store written id row) := by
  intro rows stored other held found webhook
  unfold save at stored
  split at stored
  · obtain ⟨before,present,made⟩ := Option.map_eq_some_iff.mp stored
    rw [← made] at found
    rcases lookup_of_insert before id other row held found with ⟨rfl,rfl⟩ | ⟨_,earlier⟩
    · exact new webhook
    · exact own before present other held earlier webhook
  · exact own rows stored other held found webhook

theorem ownPaths_step (s : Daemon) (i : Input) (own : OwnPaths s.store) :
    OwnPaths (step schedules regex digest s i).store := by
  apply step_rule schedules regex digest (fun t => OwnPaths t.store) s i own
  · intro params written _
    exact ownPaths_save s.store written params.triggerId _ own (fun webhook => by cases webhook)
  · intro params now written endpoints next _ _ _
    exact ownPaths_save s.store written params.triggerId _ own (fun _ => rfl)
  · intro params written isMatch _
    exact ownPaths_save s.store written params.triggerId _ own (fun webhook => by cases webhook)
  · intro id deleted rows stored other held found webhook
    simp only [remove] at stored
    split at stored
    · obtain ⟨before,present,made⟩ := Option.map_eq_some_iff.mp stored
      rw [← made] at found
      exact own before present other held (lookup_of_erase before _ other held found).2 webhook
    · exact own rows stored other held found webhook
  · intro now request
    exact own
  · intro number id
    exact own
  · intro now loaded
    rw [boot_store]
    exact own

/-- The webhook server is there or not for the life of a daemon. -/
theorem boot_serves (webhooks : Bool) (store : Store) (now : Nat) (loaded : Bool) :
    (boot schedules regex webhooks store now loaded).endpoints.isSome = webhooks := by
  have start : ∀ rows, (fresh webhooks rows).endpoints.isSome = webhooks := by
    intro rows
    cases webhooks <;> rfl
  unfold boot
  split
  · exact start none
  · split
    · apply List.foldlRecOn (motive := fun s : Daemon => s.endpoints.isSome = webhooks) _ _ (start _)
      intro s same row _
      apply restoreTrigger_rule schedules regex (fun t => t.endpoints.isSome = webhooks) now s row.1 row.2 same
      · exact fun _ => same
      · intro endpoints next target _ present _
        rw [← same,present]
        rfl
      · exact fun _ _ => same
    · exact start _

theorem step_serves (s : Daemon) (i : Input) :
    (step schedules regex digest s i).endpoints.isSome = s.endpoints.isSome := by
  apply step_rule schedules regex digest (fun t => t.endpoints.isSome = s.endpoints.isSome) s i rfl
  · exact fun _ _ _ => rfl
  · intro params now written endpoints next _ present _
    rw [present]
    rfl
  · exact fun _ _ _ _ => rfl
  · exact fun _ _ => rfl
  · intro now request
    exact Option.isSome_map
  · exact fun _ _ => rfl
  · intro now loaded
    exact boot_serves schedules regex _ s.store now loaded

theorem step_stores (s : Daemon) (i : Input) :
    (step schedules regex digest s i).store.isSome = s.store.isSome := by
  have saved (written : Bool) (id : String) (row : PersistedTrigger) :
      (save s.store written id row).isSome = s.store.isSome := by
    unfold save
    split
    · exact Option.isSome_map
    · rfl
  apply step_rule schedules regex digest (fun t => t.store.isSome = s.store.isSome) s i rfl
  · exact fun params written _ => saved written params.triggerId _
  · exact fun params _ written _ _ _ _ _ => saved written params.triggerId _
  · exact fun params written _ _ => saved written params.triggerId _
  · intro id deleted
    simp only [remove]
    split
    · exact Option.isSome_map
    · rfl
  · exact fun _ _ => rfl
  · exact fun _ _ => rfl
  · intro now loaded
    rw [boot_store]

/-- A daemon that runs with a trigger store, from an empty one on. -/
structure Running (webhooks : Bool) (s : Daemon) : Prop where
  serves : s.endpoints.isSome = webhooks
  stores : s.store.isSome = true
  own : OwnPaths s.store

theorem running_step (webhooks : Bool) (s : Daemon) (i : Input) (running : Running webhooks s) :
    Running webhooks (step schedules regex digest s i) where
  serves := (step_serves schedules regex digest s i).trans running.serves
  stores := (step_stores schedules regex digest s i).trans running.stores
  own := ownPaths_step schedules regex digest s i running.own

theorem running_run (webhooks : Bool) (s : Daemon) (steps : List Input) (running : Running webhooks s) :
    Running webhooks (run (step schedules regex digest) s steps) :=
  run_always (step schedules regex digest) (Running webhooks) (running_step schedules regex digest webhooks) s steps
    running

theorem running_boot (webhooks : Bool) (now : Nat) : Running webhooks (boot schedules regex webhooks (some ∅) now true) := by
  refine ⟨boot_serves schedules regex webhooks (some ∅) now true,?_,?_⟩
  · rw [boot_store]
    rfl
  · rw [boot_store]
    intro rows stored id row found
    rw [← Option.some_inj.mp stored] at found
    cases found

section Row
variable (now : Nat) (webhooks : Bool) (rows : Table String PersistedTrigger) (id : String) (row : PersistedTrigger)
  (found : rows.lookup id = some row)
include found

theorem boot_row (before after : Daemon → Prop) (initially : before (fresh webhooks (some rows)))
    (waits : ∀ s other r, other ≠ id → rows.lookup other = some r → before s →
      before (restoreTrigger schedules regex now s other r))
    (turns : ∀ s, before s → after (restoreTrigger schedules regex now s id row))
    (keeps : ∀ s other r, other ≠ id → rows.lookup other = some r → after s →
      after (restoreTrigger schedules regex now s other r)) :
    after (boot schedules regex webhooks (some rows) now true) :=
  foldl_entry (fun s entry => restoreTrigger schedules regex now s entry.1 entry.2) rows id row found before after
    waits turns keeps (fresh webhooks (some rows)) initially

theorem boot_webhook (own : OwnPaths (some rows)) (kind : row.kind = .webhook) :
    endpointAt (boot schedules regex true (some rows) now true) (hooks id) =
      some ⟨.new (hooks id) id row.targetAgent,(0,now),∅⟩ := by
  have elsewhere (other : String) (r : PersistedTrigger) (apart : other ≠ id) (held : rows.lookup other = some r)
      (webhook : r.kind = .webhook) (endpoints next : Table String EndpointState) (target : String)
      (registered : register now endpoints (.new (r.endpoint.getD (hooks other)) other target) = some next) :
      next.lookup (hooks id) = endpoints.lookup (hooks id) := by
    rw [own rows rfl other r held webhook,Option.getD_some] at registered
    rw [register_lookup now endpoints next _ registered]
    exact if_neg (fun same => apart (hooks_inj id other same).symm)
  apply boot_row schedules regex now true rows id row found
    (Free (hooks id)) (fun s => endpointAt s (hooks id) = some ⟨.new (hooks id) id row.targetAgent,(0,now),∅⟩)
  · exact ⟨∅,rfl,rfl⟩
  · intro s other r apart held before
    apply restoreTrigger_rule schedules regex (Free (hooks id)) now s other r before
    · exact fun _ => before
    · intro endpoints next target webhook present registered
      obtain ⟨same,there,free⟩ := before
      refine ⟨next,rfl,?_⟩
      rw [elsewhere other r apart held webhook endpoints next target registered,
        Option.some_inj.mp (present.symm.trans there)]
      exact free
    · exact fun _ _ => before
  · intro s ⟨endpoints,present,free⟩
    have path : (hooks id) ∉ endpoints := AList.lookup_eq_none.mp free
    have registered : register now endpoints (.new (hooks id) id row.targetAgent) =
        some (endpoints.insert (hooks id) ⟨.new (hooks id) id row.targetAgent,(0,now),∅⟩) := if_neg path
    simp only [restoreTrigger,kind,present,own rows rfl id row found kind,Option.getD_some,registered]
    exact AList.lookup_insert endpoints
  · intro s other r apart held after
    apply restoreTrigger_rule schedules regex (fun t => endpointAt t (hooks id) = _) now s other r after
    · exact fun _ => after
    · intro endpoints next target webhook present registered
      have looked : endpointAt s (hooks id) = endpoints.lookup (hooks id) := by
        rw [endpointAt,present]
        rfl
      change next.lookup (hooks id) = _
      rw [elsewhere other r apart held webhook endpoints next target registered,← looked]
      exact after
    · exact fun _ _ => after

end Row

/-! Endpoints. -/

def Rejected : Response → Prop
  | .handled .. => False
  | .duplicate => False
  | _ => True

/-- What one endpoint refuses at signature verification the other refuses too, and what it
hands to its handler the other hands to the same one. -/
def KeepsGuard (original restored : EndpointConfig) : Prop :=
  ∀ now counters request,
    (∀ message, (accept digest now ⟨original,counters⟩ request).2 = .unauthorized message →
      Rejected (accept digest now ⟨restored,counters⟩ request).2) ∧
    ∀ triggerId target, (accept digest now ⟨original,counters⟩ request).2 = .handled triggerId target →
      (accept digest now ⟨restored,counters⟩ request).2 = .handled triggerId target

theorem keepsGuard_iff (params : TriggerAddWebhookParams) :
    KeepsGuard digest (endpointConfig params) (.new (hooks params.triggerId) params.triggerId params.targetAgent) ↔
      params.hmacSecret = none := by
  constructor
  · intro guarded
    cases secret : params.hmacSecret with
    | none => rfl
    | some key =>
      have refused (now : Nat) : (accept digest now ⟨endpointConfig params,(0,0),∅⟩
          ⟨hooks params.triggerId,"POST",[],[]⟩).2 = .unauthorized "Missing HMAC signature" := by
        rw [endpointConfig,secret]
        rfl
      have rejected := (guarded 60000 ⟨(0,0),∅⟩ ⟨hooks params.triggerId,"POST",[],[]⟩).1 _ (refused _)
      have handled := accept_new_window digest 60000
        ⟨.new (hooks params.triggerId) params.triggerId params.targetAgent,(0,0),∅⟩
        ⟨hooks params.triggerId,"POST",[],[]⟩ (by simp) rfl rfl (Nat.zero_le _) rfl rfl
      rw [handled] at rejected
      exact rejected.elim
  · intro plain now counters request
    rw [endpointConfig,plain]
    refine ⟨?_,fun _ _ handled => handled⟩
    intro message refused
    rw [refused]
    trivial

theorem addWebhook_eq_some (s t : Daemon) (params : TriggerAddWebhookParams) (now : Nat)
    (serving : s.endpoints.isSome = true) (storing : s.store.isSome = true)
    (added : addWebhook s params now true = some t) :
    endpointAt t (hooks params.triggerId) = some ⟨endpointConfig params,(0,now),∅⟩ ∧
      rowOf t params.triggerId =
        some ⟨.webhook,none,params.targetAgent,none,some (hooks params.triggerId),none⟩ := by
  obtain ⟨endpoints,present⟩ := Option.isSome_iff_exists.mp serving
  obtain ⟨rows,stored⟩ := Option.isSome_iff_exists.mp storing
  simp only [addWebhook,present] at added
  obtain ⟨next,registered,made⟩ := Option.map_eq_some_iff.mp added
  have path : (endpointConfig params).path = hooks params.triggerId := by
    unfold endpointConfig
    cases params.hmacSecret <;> rfl
  have looked := register_lookup now endpoints next _ registered (hooks params.triggerId)
  rw [path,if_pos rfl] at looked
  rw [← made]
  refine ⟨looked,?_⟩
  simp only [rowOf,saveWebhook,save,stored]
  exact AList.lookup_insert rows

theorem restart_webhook (s : Daemon) (id target : String) (later : Nat) (running : Running true s)
    (found : rowOf s id = some ⟨.webhook,none,target,none,some (hooks id),none⟩) :
    endpointAt (step schedules regex digest s (.restart later true)) (hooks id) =
      some ⟨.new (hooks id) id target,(0,later),∅⟩ := by
  obtain ⟨rows,stored,row⟩ := rows_of_rowOf s id _ found
  have own := running.own
  rw [stored] at own
  simp only [step,running.serves,stored]
  exact boot_webhook schedules regex later rows id _ row own rfl

/-- A webhook trigger whose row is still the one its add wrote is restored with the guard it
was added with exactly when it was added without a secret. -/
theorem restored_webhook_guarded_iff (first now later : Nat) (steps between : List Input)
    (params : TriggerAddWebhookParams) (t : Daemon)
    (added : addWebhook (run (step schedules regex digest) (boot schedules regex true (some ∅) first true) steps)
      params now true = some t)
    (kept : rowOf (run (step schedules regex digest) t between) params.triggerId = rowOf t params.triggerId) :
    ∃ original restored, endpointAt t (hooks params.triggerId) = some original ∧
      endpointAt (step schedules regex digest (run (step schedules regex digest) t between) (.restart later true))
        (hooks params.triggerId) = some restored ∧
      (KeepsGuard digest original.config restored.config ↔ params.hmacSecret = none) := by
  have before := running_run schedules regex digest true _ steps (running_boot schedules regex true first)
  have here := running_step schedules regex digest true _ (.addWebhook params now true) before
  rw [step,added] at here
  obtain ⟨original,row⟩ := addWebhook_eq_some _ t params now before.serves before.stores added
  have after := running_run schedules regex digest true t between here
  rw [row] at kept
  exact ⟨_,_,original,restart_webhook schedules regex digest _ _ _ later after kept,keepsGuard_iff digest params⟩

/-! Tasks and listeners. -/

/-- The loop of a listener over what `recv` gives it, up to the error that ends it. -/
def listen (listener : Listener) : List (Option Event) → List Firing
  | [] => []
  | none :: _ => []
  | some event :: rest =>
    match listener.react event with
    | none => listen listener rest
    | some payload => .steer listener.triggerId listener.target (some payload) :: listen listener rest

theorem listen_eq_iff (id target : String) (one other : Event → Option String) :
    (∀ received, listen ⟨id,target,one⟩ received = listen ⟨id,target,other⟩ received) ↔
      ∀ event, one event = other event := by
  constructor
  · intro same event
    have single := same [some event]
    simp only [listen] at single
    cases left : one event with
    | none =>
      cases right : other event with
      | none => rfl
      | some payload =>
        rw [left,right] at single
        cases single
    | some payload =>
      cases right : other event with
      | none =>
        rw [left,right] at single
        cases single
      | some text =>
        rw [left,right] at single
        simpa using single
  · intro same received
    induction received with
    | nil => rfl
    | cons head rest ih =>
      cases head with
      | none => rfl
      | some event =>
        simp only [listen,same event]
        rw [ih]

/-- The condition lets through every event the pattern does, and the message is given and says
nothing of the event (save for an event called like the empty text or the placeholder). -/
def StoredWhole (isMatch : String → Bool) (params : TriggerAddEventParams) : Prop :=
  ∀ event, isMatch (eventTypeName event) = true →
    (∀ condition, params.condition = some condition → conditionMatches event condition = true) ∧
    match params.message with
    | none => eventTypeName event = ""
    | some text => ¬placeholder.toList <:+: text.toList ∨ eventTypeName event = placeholder

theorem reactions_agree_iff (isMatch : String → Bool) (params : TriggerAddEventParams) :
    (∀ event, eventReaction isMatch params event = restoredReaction isMatch params.message event) ↔
      StoredWhole isMatch params := by
  apply forall_congr'
  intro event
  have text : renderTemplate (params.message.getD placeholder) event = params.message.getD "" ↔
      match params.message with
      | none => eventTypeName event = ""
      | some text => ¬placeholder.toList <:+: text.toList ∨ eventTypeName event = placeholder := by
    cases params.message with
    | none =>
      rw [Option.getD_none,Option.getD_none,renderTemplate_placeholder]
    | some text => exact renderTemplate_eq_iff text event
  unfold eventReaction restoredReaction
  cases matched : isMatch (eventTypeName event) with
  | false => simp
  | true =>
    rw [if_neg (by decide),if_pos rfl,← text]
    cases params.condition with
    | none => simp
    | some condition =>
      cases met : conditionMatches event condition with
      | false => simp
      | true => simp [met]

section Row
variable (now : Nat) (webhooks : Bool) (rows : Table String PersistedTrigger) (id : String) (row : PersistedTrigger)
  (found : rows.lookup id = some row)
include found

theorem boot_cron (expr : String) (kind : row.kind = .cron) (cron : row.cronExpr = some expr)
    (due : schedules expr now = true) :
    (boot schedules regex webhooks (some rows) now true).tasks.lookup id = some ⟨expr,row.targetAgent,row.message⟩ := by
  apply boot_row schedules regex now webhooks rows id row found (fun s => id ∉ s.tasks)
    (fun s => s.tasks.lookup id = some ⟨expr,row.targetAgent,row.message⟩)
  · exact AList.notMem_empty id
  · intro s other r apart _ free
    apply restoreTrigger_rule schedules regex (fun t => id ∉ t.tasks) now s other r free
    · intro task present
      rcases (AList.mem_insert _).mp present with same | present
      · exact apart same.symm
      · exact free present
    · exact fun _ _ _ _ _ _ => free
    · exact fun _ _ => free
  · intro s free
    simp only [restoreTrigger,kind,cron,schedule,if_neg free,due]
    exact AList.lookup_insert s.tasks
  · intro s other r apart _ there
    apply restoreTrigger_rule schedules regex (fun t => t.tasks.lookup id = _) now s other r there
    · intro task
      rw [← there]
      exact AList.lookup_insert_ne apart.symm
    · exact fun _ _ _ _ _ _ => there
    · exact fun _ _ => there

theorem boot_event (pattern : String) (isMatch : String → Bool) (kind : row.kind = .event)
    (event : row.eventPattern = some pattern) (compiled : buildEventPatternRegex regex pattern = some isMatch) :
    listenerOf (boot schedules regex webhooks (some rows) now true) id =
      some ⟨id,row.targetAgent,restoredReaction isMatch row.message⟩ := by
  apply listenerOf_of_held
  apply boot_row schedules regex now webhooks rows id row found (fun _ => True)
    (Held id ⟨id,row.targetAgent,restoredReaction isMatch row.message⟩)
  · trivial
  · exact fun _ _ _ _ _ _ => trivial
  · intro s _
    simp only [restoreTrigger,kind,event,compiled,Option.map_some]
    exact held_spawnListener s id _
  · intro s other r apart _ held
    apply restoreTrigger_rule schedules regex (Held id _) now s other r held
    · exact fun _ => held
    · exact fun _ _ _ _ _ _ => held
    · intro listener _
      exact held_other s id other _ listener apart.symm held

end Row

theorem addEvent_eq_some (s t : Daemon) (params : TriggerAddEventParams) (storing : s.store.isSome = true)
    (added : addEvent regex s params true = some t) :
    ∃ isMatch, buildEventPatternRegex regex params.eventPattern = some isMatch ∧
      listenerOf t params.triggerId = some ⟨params.triggerId,params.targetAgent,eventReaction isMatch params⟩ ∧
      rowOf t params.triggerId =
        some ⟨.event,none,params.targetAgent,params.message,none,some params.eventPattern⟩ := by
  obtain ⟨rows,stored⟩ := Option.isSome_iff_exists.mp storing
  obtain ⟨isMatch,compiled,made⟩ := Option.map_eq_some_iff.mp added
  rw [← made]
  refine ⟨isMatch,compiled,?_,?_⟩
  · exact listenerOf_of_held (spawnListener s _ _) _ _ (held_spawnListener s params.triggerId _)
  · simp only [rowOf,saveEvent,save,stored]
    exact AList.lookup_insert rows

theorem addCron_eq_some (s t : Daemon) (params : TriggerAddCronParams) (now : Nat) (storing : s.store.isSome = true)
    (added : addCron schedules s params now true = some t) :
    t.tasks.lookup params.triggerId = some (cronTask params) ∧
      rowOf t params.triggerId =
        some ⟨.cron,some params.cronExpr,params.targetAgent,params.message,none,none⟩ := by
  obtain ⟨rows,stored⟩ := Option.isSome_iff_exists.mp storing
  obtain ⟨next,scheduled,made⟩ := Option.map_eq_some_iff.mp added
  rw [← made,schedule_eq_some schedules s next now _ _ scheduled]
  refine ⟨AList.lookup_insert s.tasks,?_⟩
  simp only [rowOf,saveCron,save,stored]
  exact AList.lookup_insert rows

theorem restart_event (s : Daemon) (params : TriggerAddEventParams) (isMatch : String → Bool) (later : Nat)
    (compiled : buildEventPatternRegex regex params.eventPattern = some isMatch)
    (kept : rowOf s params.triggerId =
      some ⟨.event,none,params.targetAgent,params.message,none,some params.eventPattern⟩) :
    listenerOf (step schedules regex digest s (.restart later true)) params.triggerId =
      some ⟨params.triggerId,params.targetAgent,restoredReaction isMatch params.message⟩ := by
  obtain ⟨rows,stored,found⟩ := rows_of_rowOf s params.triggerId _ kept
  rw [step,stored]
  exact boot_event schedules regex later _ rows params.triggerId _ found params.eventPattern isMatch rfl rfl compiled

theorem restart_cron (s : Daemon) (params : TriggerAddCronParams) (later : Nat)
    (due : schedules params.cronExpr later = true)
    (kept : rowOf s params.triggerId =
      some ⟨.cron,some params.cronExpr,params.targetAgent,params.message,none,none⟩) :
    (step schedules regex digest s (.restart later true)).tasks.lookup params.triggerId =
      some ⟨params.cronExpr,params.targetAgent,params.message⟩ := by
  obtain ⟨rows,stored,found⟩ := rows_of_rowOf s params.triggerId _ kept
  rw [step,stored]
  exact boot_cron schedules regex later _ rows params.triggerId _ found params.cronExpr rfl rfl due

theorem ticks_agree_iff (one other : Daemon) (params : TriggerAddCronParams)
    (original : one.tasks.lookup params.triggerId = some (cronTask params))
    (restored : other.tasks.lookup params.triggerId = some ⟨params.cronExpr,params.targetAgent,params.message⟩) :
    (∀ ticks, (List.replicate ticks (.tick params.triggerId)).flatMap (firings digest one) =
      (List.replicate ticks (.tick params.triggerId)).flatMap (firings digest other)) ↔ params.message ≠ none := by
  have left : firings digest one (.tick params.triggerId) =
      [.steer params.triggerId params.targetAgent (some (params.message.getD ""))] := by
    simp only [firings,original]
    rfl
  have right : firings digest other (.tick params.triggerId) =
      [.steer params.triggerId params.targetAgent params.message] := by
    simp only [firings,restored]
  constructor
  · intro same missing
    have single := same 1
    rw [List.replicate_one,List.flatMap_singleton,List.flatMap_singleton,left,right,missing] at single
    cases single
  · intro given ticks
    obtain ⟨text,present⟩ := Option.ne_none_iff_exists'.mp given
    have same : firings digest one (.tick params.triggerId) = firings digest other (.tick params.triggerId) := by
      rw [left,right,present]
      rfl
    induction ticks with
    | zero => rfl
    | succ ticks ih => rw [List.replicate_succ,List.flatMap_cons,List.flatMap_cons,same,ih]

/-- An event trigger whose row is still the one its add wrote steers the same agent on the same
events with the same payload after a restart exactly when its row says all there is to say of
it, and a cron trigger, of whose expression an occurrence is due, when it has a message. -/
theorem restored_triggers_agree_iff (webhooks : Bool) (first later : Nat) (steps between : List Input) :
    (∀ params t, addEvent regex (run (step schedules regex digest)
        (boot schedules regex webhooks (some ∅) first true) steps) params true = some t →
      rowOf (run (step schedules regex digest) t between) params.triggerId = rowOf t params.triggerId →
      ∃ isMatch original restored, buildEventPatternRegex regex params.eventPattern = some isMatch ∧
        listenerOf t params.triggerId = some original ∧
        listenerOf (step schedules regex digest (run (step schedules regex digest) t between) (.restart later true))
          params.triggerId = some restored ∧
        ((∀ received, listen original received = listen restored received) ↔ StoredWhole isMatch params)) ∧
    ∀ params now t, addCron schedules (run (step schedules regex digest)
        (boot schedules regex webhooks (some ∅) first true) steps) params now true = some t →
      rowOf (run (step schedules regex digest) t between) params.triggerId = rowOf t params.triggerId →
      schedules params.cronExpr later = true →
      ((∀ ticks, (List.replicate ticks (.tick params.triggerId)).flatMap (firings digest t) =
        (List.replicate ticks (.tick params.triggerId)).flatMap (firings digest
          (step schedules regex digest (run (step schedules regex digest) t between) (.restart later true)))) ↔
        params.message ≠ none) := by
  have before := running_run schedules regex digest webhooks _ steps (running_boot schedules regex webhooks first)
  constructor
  · intro params t added kept
    obtain ⟨isMatch,compiled,original,row⟩ := addEvent_eq_some regex _ t params before.stores added
    rw [row] at kept
    refine ⟨isMatch,_,_,compiled,original,
      restart_event schedules regex digest _ params isMatch later compiled kept,?_⟩
    rw [listen_eq_iff]
    exact reactions_agree_iff isMatch params
  · intro params now t added kept due
    obtain ⟨original,row⟩ := addCron_eq_some schedules _ t params now before.stores added
    rw [row] at kept
    exact ticks_agree_iff digest t _ params original (restart_cron schedules regex digest _ params later due kept)

end Restart

theorem restored_webhook_guarded_iff_plain :
    ∃ t, addWebhook (boot (fun _ _ => false) shutdownPattern true (some ∅) 0 true) ⟨"deploy","builder",none⟩ 0 true =
        some t ∧
      ∃ original restored, endpointAt t (hooks "deploy") = some original ∧
        endpointAt (step (fun _ _ => false) shutdownPattern id t (.restart 1 true)) (hooks "deploy") = some restored ∧
        KeepsGuard id original.config restored.config := by
  obtain ⟨original,restored,added,rebuilt,agrees⟩ := restored_webhook_guarded_iff (fun _ _ => false) shutdownPattern id
    0 0 1 [] [] ⟨"deploy","builder",none⟩ _ rfl rfl
  exact ⟨_,rfl,original,restored,added,rebuilt,agrees.mpr rfl⟩

/-- A webhook added with a secret refuses a request without a signature, and runs its agent
on it after a restart. -/
theorem restored_webhook_open :
    (endpointAt (run (step (fun _ _ => false) shutdownPattern id) (fresh true (some ∅))
      [.addWebhook ⟨"deploy","builder",some "s3cret"⟩ 0 true]) "/hooks/deploy").map (fun state =>
        (accept id 0 state ⟨"/hooks/deploy","POST",[],[]⟩).2) = some (.unauthorized "Missing HMAC signature") ∧
    (endpointAt (run (step (fun _ _ => false) shutdownPattern id) (fresh true (some ∅))
      [.addWebhook ⟨"deploy","builder",some "s3cret"⟩ 0 true,.restart 0 true]) "/hooks/deploy").map (fun state =>
        (accept id 0 state ⟨"/hooks/deploy","POST",[],[]⟩).2) = some (.handled "deploy" "builder") := by
  decide

theorem restored_triggers_agree_iff_given :
    (∃ t original restored, addEvent shutdownPattern (boot (fun _ _ => true) shutdownPattern true (some ∅) 0 true)
        ⟨"bye","shutdown",none,"logger",some "stop"⟩ true = some t ∧
      listenerOf t "bye" = some original ∧
      listenerOf (step (fun _ _ => true) shutdownPattern id t (.restart 1 true)) "bye" = some restored ∧
      ∀ received, listen original received = listen restored received) ∧
    ∃ t, addCron (fun _ _ => true) (boot (fun _ _ => true) shutdownPattern true (some ∅) 0 true)
        ⟨"hourly","0 0 * * * *","worker",some "wake"⟩ 0 true = some t ∧
      ∀ ticks, (List.replicate ticks (.tick "hourly")).flatMap (firings id t) =
        (List.replicate ticks (.tick "hourly")).flatMap (firings id
          (step (fun _ _ => true) shutdownPattern id t (.restart 1 true))) := by
  obtain ⟨event,cron⟩ := restored_triggers_agree_iff (fun _ _ => true) shutdownPattern id true 0 1 [] []
  constructor
  · obtain ⟨isMatch,original,restored,_,added,rebuilt,agree⟩ :=
      event ⟨"bye","shutdown",none,"logger",some "stop"⟩ _ rfl rfl
    refine ⟨_,original,restored,rfl,added,rebuilt,agree.mpr ?_⟩
    intro event _
    exact ⟨fun condition given => (by cases given),.inl (by decide)⟩
  · exact ⟨_,rfl,(cron ⟨"hourly","0 0 * * * *","worker",some "wake"⟩ 0 _ rfl rfl rfl).mpr (by decide)⟩

/-- After a restart an event trigger without a message injects nothing instead of the event's
name, one with a condition steers on events that miss it, and a cron trigger without a message
has no payload. -/
theorem restored_triggers_differ :
    (listenerOf (run (step (fun _ _ => true) shutdownPattern id) (fresh true (some ∅))
      [.addEvent ⟨"bye","shutdown",none,"logger",none⟩ true]) "bye").map (listen · [some .shutdown]) =
        some [.steer "bye" "logger" (some "shutdown")] ∧
    (listenerOf (run (step (fun _ _ => true) shutdownPattern id) (fresh true (some ∅))
      [.addEvent ⟨"bye","shutdown",none,"logger",none⟩ true,.restart 0 true]) "bye").map (listen · [some .shutdown]) =
        some [.steer "bye" "logger" (some "")] ∧
    (listenerOf (run (step (fun _ _ => true) shutdownPattern id) (fresh true (some ∅))
      [.addEvent ⟨"bye","shutdown",some (.object [("equals",.string "a"),("field",.string "agent_id")]),"logger",
        some "stop"⟩ true]) "bye").map (listen · [some .shutdown]) = some [] ∧
    (listenerOf (run (step (fun _ _ => true) shutdownPattern id) (fresh true (some ∅))
      [.addEvent ⟨"bye","shutdown",some (.object [("equals",.string "a"),("field",.string "agent_id")]),"logger",
        some "stop"⟩ true,.restart 0 true]) "bye").map (listen · [some .shutdown]) =
        some [.steer "bye" "logger" (some "stop")] ∧
    firings id (run (step (fun _ _ => true) shutdownPattern id) (fresh true (some ∅))
      [.addCron ⟨"hourly","0 0 * * * *","worker",none⟩ 0 true]) (.tick "hourly") =
        [.steer "hourly" "worker" (some "")] ∧
    firings id (run (step (fun _ _ => true) shutdownPattern id) (fresh true (some ∅))
      [.addCron ⟨"hourly","0 0 * * * *","worker",none⟩ 0 true,.restart 0 true]) (.tick "hourly") =
        [.steer "hourly" "worker" none] := by
  decide

end ClawKernel.Server.Restored
