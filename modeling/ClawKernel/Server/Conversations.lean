import ClawKernel.Server.Agents
import ClawKernel.Server.Channels

/-! Which messages share a conversation. Every message that reaches a session is served under
the thread key of its origin, whatever entry point it comes through.
-/
namespace ClawKernel.Server.Conversations
open Lib.Runs Lib.Tables Server.Sessions Server.Channels

/-- The key under which the session of a message is looked up. -/
def key (origin : Origin) : Option String :=
  match origin.entry with
  | .inbound => origin.threadId
  | .broadcast => origin.threadId.map (fun tid => tid ++ "/" ++ origin.agentId)
  | .webhook => some origin.agentId

/-- Messages in one session have one origin. -/
def Isolated (s : Hub) : Prop :=
  ∀ first ∈ s.runs, ∀ second ∈ s.runs, first.sessionId = second.sessionId → first.origin = second.origin

/-- The messages an event brings to a session. -/
def origins (s : Hub) : Event → List Origin
  | .inbound params =>
    if (dedupCheck s params.messageId).2 then []
    else (route s.router params.message).toList.map (⟨.inbound,some params.channelId,params.threadId,·⟩)
  | .broadcast params =>
    if (dedupCheck s params.messageId).2 then []
    else (broadcastRoute s.router params.message).map (⟨.broadcast,some params.channelId,params.threadId,·⟩)
  | .webhook target _ _ => [⟨.webhook,none,none,target⟩]
  | _ => []

/-- No earlier message of another origin has the key of this one and a session still alive. -/
def Clear (s : Hub) (origin : Origin) : Prop :=
  ∀ tid, key origin = some tid → ∀ run ∈ s.runs, key run.origin = some tid →
    (s.manager.get run.sessionId).isSome → run.origin = origin

def Clashfree (s : Hub) (event : Event) : Prop := ∀ origin ∈ origins s event, Clear s origin

instance clearDecidable (s : Hub) (origin : Origin) : Decidable (Clear s origin) :=
  inferInstanceAs (Decidable (∀ tid ∈ key origin, ∀ run ∈ s.runs, key run.origin = some tid →
    (s.manager.get run.sessionId).isSome → run.origin = origin))

instance clashfreeDecidable (s : Hub) (event : Event) : Decidable (Clashfree s event) :=
  inferInstanceAs (Decidable (∀ origin ∈ origins s event, Clear s origin))

section Serving
variable (uuid : Nat → String)

/-- A message reaches the session of its key, if one can be had. -/
def serve (content : String) (s : Hub) (origin : Origin) : Hub :=
  match getOrCreateInboundSession uuid s (key origin) with
  | (s,.error _) => s
  | (s,.ok session) => s.start origin session.id content

/-- What an event does before any message of it is served. -/
def settle (s : Hub) : Event → Hub
  | .inbound params => (dedupCheck s params.messageId).1
  | .broadcast params => (dedupCheck s params.messageId).1
  | .webhook _ _ _ => s
  | event => step uuid s event

def content : Event → String
  | .inbound params => params.content
  | .broadcast params => params.content
  | .webhook _ body _ => body
  | _ => ""

theorem route_dedupCheck (s : Hub) (messageId : Option String) : (dedupCheck s messageId).1.router = s.router := by
  obtain ⟨seenIds,same⟩ := dedupCheck_frame s messageId
  rw [same]

theorem notify_serve (params : ChannelBroadcastParams) (done : Hub × List String) (agentId : String) :
    (notify uuid params done agentId).1 =
      serve uuid params.content done.1 ⟨.broadcast,some params.channelId,params.threadId,agentId⟩ := by
  unfold notify serve
  change _ = match getOrCreateInboundSession uuid done.1 (params.threadId.map (fun tid => tid ++ "/" ++ agentId)) with
    | (s,.error _) => s
    | (s,.ok session) => s.start _ session.id params.content
  cases getOrCreateInboundSession uuid done.1 (params.threadId.map (fun tid => tid ++ "/" ++ agentId)) with
  | mk next result =>
    cases result with
    | error error => rfl
    | ok session => rfl

theorem foldl_notify (params : ChannelBroadcastParams) (agentIds : List String) (done : Hub × List String) :
    (agentIds.foldl (notify uuid params) done).1 =
      (agentIds.map (⟨.broadcast,some params.channelId,params.threadId,·⟩)).foldl (serve uuid params.content) done.1 := by
  induction agentIds generalizing done with
  | nil => rfl
  | cons agentId rest ih =>
    rw [List.foldl_cons,List.map_cons,List.foldl_cons,ih,notify_serve]

theorem inbound_serve (s : Hub) (params : ChannelInboundParams) :
    (handleChannelInbound uuid s params).1 =
      (origins s (.inbound params)).foldl (serve uuid params.content) (dedupCheck s params.messageId).1 := by
  cases checked : (dedupCheck s params.messageId).2 with
  | true =>
    have nothing : origins s (.inbound params) = [] := if_pos checked
    rw [inbound_repeated uuid s params checked,nothing]
    rfl
  | false =>
    have routed : origins s (.inbound params) =
        (route s.router params.message).toList.map (⟨.inbound,some params.channelId,params.threadId,·⟩) :=
      if_neg (Bool.not_eq_true _ ▸ checked)
    rw [inbound_first uuid s params checked,routed]
    unfold dispatchInbound
    rw [route_dedupCheck]
    cases route s.router params.message with
    | none => rfl
    | some agentId =>
      change _ = match getOrCreateInboundSession uuid (dedupCheck s params.messageId).1 params.threadId with
        | (s,.error _) => s
        | (s,.ok session) => s.start _ session.id params.content
      cases getOrCreateInboundSession uuid (dedupCheck s params.messageId).1 params.threadId with
      | mk after result =>
        cases result with
        | error error => rfl
        | ok session => rfl

theorem broadcast_serve (s : Hub) (params : ChannelBroadcastParams) :
    (handleChannelBroadcast uuid s params).1 =
      (origins s (.broadcast params)).foldl (serve uuid params.content) (dedupCheck s params.messageId).1 := by
  cases checked : (dedupCheck s params.messageId).2 with
  | true =>
    have nothing : origins s (.broadcast params) = [] := if_pos checked
    rw [broadcast_repeated uuid s params checked,nothing]
    rfl
  | false =>
    have routed : origins s (.broadcast params) =
        (broadcastRoute s.router params.message).map (⟨.broadcast,some params.channelId,params.threadId,·⟩) :=
      if_neg (Bool.not_eq_true _ ▸ checked)
    rw [broadcast_first uuid s params checked,routed]
    unfold dispatchBroadcast
    rw [route_dedupCheck]
    cases broadcastRoute s.router params.message with
    | nil => rfl
    | cons agentId rest => exact foldl_notify uuid params (agentId :: rest) ((dedupCheck s params.messageId).1,[])

theorem webhook_serve (s : Hub) (target body : String) (outcome : Except String String) :
    (handleWebhookTrigger uuid s target body outcome).1 = serve uuid body s ⟨.webhook,none,none,target⟩ := by
  unfold handleWebhookTrigger serve
  change _ = match getOrCreateInboundSession uuid s (some target) with
    | (s,.error _) => s
    | (s,.ok session) => s.start _ session.id body
  cases getOrCreateInboundSession uuid s (some target) with
  | mk after result =>
    cases result with
    | error error => rfl
    | ok session => rfl

/-- Every event serves its messages one after another. -/
theorem step_serve (s : Hub) (event : Event) :
    step uuid s event = (origins s event).foldl (serve uuid (content event)) (settle uuid s event) := by
  cases event with
  | inbound params => exact inbound_serve uuid s params
  | broadcast params => exact broadcast_serve uuid s params
  | webhook target body outcome => exact webhook_serve uuid s target body outcome
  | addRule rule => rfl
  | removeRules agentId => rfl
  | removeSession id => rfl
  | wait millis => rfl

/-- What serving a message comes to: its thread's session is reused, there is none to be had, or
one is opened. -/
inductive Served (content : String) (s : Hub) (origin : Origin) : Hub → Prop where
  | reused (session : Session) (found : reusable s (key origin) = some session) :
    Served content s origin (s.start origin session.id content)
  | refused (missing : reusable s (key origin) = none) : Served content s origin { s with drawn := s.drawn + 1 }
  | opened (missing : reusable s (key origin) = none) :
    Served content s origin ((opened uuid s (key origin)).start origin (uuid s.drawn) content)

theorem serve_served (content : String) (s : Hub) (origin : Origin) :
    Served uuid content s origin (serve uuid content s origin) := by
  unfold serve
  cases found : reusable s (key origin) with
  | some session =>
    rw [getOrCreate_reuse uuid s (key origin) session found]
    exact .reused session found
  | none =>
    by_cases full : s.manager.maxSessions ≤ s.manager.count
    · rw [getOrCreate_full uuid s (key origin) found full]
      exact .refused found
    · rw [getOrCreate_open uuid s (key origin) found (Nat.not_le.mp full)]
      exact .opened found

/-- A thread names one session of its own, and the live session of a message is the one its
thread names. -/
structure Books (s : Hub) : Prop where
  named : ∀ id session, s.manager.get id = some session → session.id = id
  drawn : ∀ tid id, s.registry.threadSessions.lookup tid = some id → ∃ n < s.drawn, id = uuid n
  used : ∀ run ∈ s.runs, ∃ n < s.drawn, run.sessionId = uuid n
  distinct : ∀ tid other id, s.registry.threadSessions.lookup tid = some id →
    s.registry.threadSessions.lookup other = some id → tid = other
  keyed : ∀ tid id, s.registry.threadSessions.lookup tid = some id → ∀ run ∈ s.runs, run.sessionId = id →
    key run.origin = some tid
  current : ∀ run ∈ s.runs, ∀ tid, key run.origin = some tid → (s.manager.get run.sessionId).isSome →
    s.registry.threadSessions.lookup tid = some run.sessionId

theorem lookup_opened (s : Hub) (threadId : Option String) (tid : String) :
    (opened uuid s threadId).registry.threadSessions.lookup tid =
      if threadId = some tid then some (uuid s.drawn) else s.registry.threadSessions.lookup tid := by
  cases threadId with
  | none => rfl
  | some own =>
    change (s.registry.threadSessions.insert own (uuid s.drawn)).lookup tid = _
    rw [lookup_insert_if]
    exact if_congr (eq_comm.trans Option.some_inj.symm) rfl rfl

theorem get_opened (s : Hub) (threadId : Option String) (id : String) :
    (opened uuid s threadId).manager.get id =
      if id = uuid s.drawn then some (.newWithPending (uuid s.drawn)) else s.manager.get id :=
  get_insertSession s.manager (.newWithPending (uuid s.drawn)) id

/-- Of a thread without a session to reuse no message has a live session. -/
theorem unanswered (s : Hub) (books : Books uuid s) (origin : Origin) (missing : reusable s (key origin) = none)
    (tid : String) (thread : key origin = some tid) (run : Run) (member : run ∈ s.runs)
    (same : key run.origin = some tid) : s.manager.get run.sessionId = none := by
  cases live : s.manager.get run.sessionId with
  | none => rfl
  | some session =>
    have named := books.current run member tid same (Option.isSome_of_eq_some live)
    have found := (reusable_iff s (key origin) session).mpr ⟨tid,run.sessionId,thread,named,live⟩
    rw [missing] at found
    cases found

theorem clear_missing (s : Hub) (books : Books uuid s) (origin : Origin) (missing : reusable s (key origin) = none) :
    Clear s origin := by
  intro tid thread run member same live
  rw [unanswered uuid s books origin missing tid thread run member same] at live
  cases live

theorem books_reuse (s : Hub) (books : Books uuid s) (origin : Origin) (content : String) (session : Session)
    (found : reusable s (key origin) = some session) : Books uuid (s.start origin session.id content) := by
  obtain ⟨tid,id,thread,named,live⟩ := (reusable_iff s (key origin) session).mp found
  have own : session.id = id := books.named id session live
  refine ⟨books.named,books.drawn,?_,books.distinct,?_,?_⟩
  · intro run member
    rcases List.mem_cons.mp member with new | old
    · rw [new]
      change ∃ n < s.drawn, session.id = uuid n
      rw [own]
      exact books.drawn tid id named
    · exact books.used run old
  · intro other held registered run member ran
    rcases List.mem_cons.mp member with new | old
    · rw [new] at ran ⊢
      change session.id = held at ran
      rw [← ran,own] at registered
      rw [← books.distinct tid other id named registered]
      exact thread
    · exact books.keyed other held registered run old ran
  · intro run member other keyed alive
    rcases List.mem_cons.mp member with new | old
    · rw [new] at keyed ⊢
      rw [thread] at keyed
      rw [← Option.some_inj.mp keyed]
      change s.registry.threadSessions.lookup tid = some session.id
      rw [own]
      exact named
    · exact books.current run old other keyed alive

theorem isolated_start (s : Hub) (isolated : Isolated s) (origin : Origin) (id content : String) :
    Isolated (s.start origin id content) ↔ ∀ run ∈ s.runs, run.sessionId = id → run.origin = origin := by
  constructor
  · intro after run member ran
    exact after run (List.mem_cons_of_mem _ member) ⟨origin,id,content⟩ List.mem_cons_self ran
  · intro alike first member second other same
    rcases List.mem_cons.mp member with new | old
    · rcases List.mem_cons.mp other with again | earlier
      · rw [new,again]
      · rw [new] at same ⊢
        exact (alike second earlier same.symm).symm
    · rcases List.mem_cons.mp other with again | earlier
      · rw [again] at same ⊢
        exact alike first old same
      · exact isolated first old second earlier same

/-- The messages after one is served: it may be new, and the earlier ones stay. -/
theorem serve_cases (content : String) (s : Hub) (origin : Origin) :
    (serve uuid content s origin).runs = s.runs ∨
      ∃ id, (serve uuid content s origin).runs = ⟨origin,id,content⟩ :: s.runs := by
  have served := serve_served uuid content s origin
  generalize serve uuid content s origin = next at served
  cases served with
  | reused session found => exact Or.inr ⟨session.id,rfl⟩
  | refused missing => exact Or.inl rfl
  | opened missing => exact Or.inr ⟨uuid s.drawn,rfl⟩

theorem runs_serve (content : String) (s : Hub) (origin : Origin) :
    s.runs ⊆ (serve uuid content s origin).runs := by
  rcases serve_cases uuid content s origin with same | ⟨id,added⟩
  · rw [same]
    exact List.Subset.refl _
  · rw [added]
    exact List.subset_cons_self _ _

theorem run_of_serve (content : String) (s : Hub) (origin : Origin) (run : Run)
    (member : run ∈ (serve uuid content s origin).runs) : run.origin = origin ∨ run ∈ s.runs := by
  rcases serve_cases uuid content s origin with same | ⟨id,added⟩
  · rw [same] at member
    exact Or.inr member
  · rw [added] at member
    exact (List.mem_cons.mp member).imp (congrArg Run.origin) (fun old => old)

theorem isolated_of_serves (content : String) (messages : List Origin) (s : Hub)
    (isolated : Isolated (messages.foldl (serve uuid content) s)) : Isolated s := by
  induction messages generalizing s with
  | nil => exact isolated
  | cons origin rest ih =>
    have next := ih (serve uuid content s origin) isolated
    have kept := runs_serve uuid content s origin
    exact fun first member second other => next first (kept member) second (kept other)

/-- The session that a thread reuses is that of its live messages, and of no others. -/
theorem isolated_reuse_iff (s : Hub) (books : Books uuid s) (isolated : Isolated s) (origin : Origin) (content : String)
    (session : Session) (found : reusable s (key origin) = some session) :
    Isolated (s.start origin session.id content) ↔ Clear s origin := by
  rw [isolated_start s isolated]
  obtain ⟨tid,id,thread,named,live⟩ := (reusable_iff s (key origin) session).mp found
  rw [books.named id session live]
  constructor
  · intro alike other same run member keyed alive
    apply alike run member
    rw [thread] at same
    rw [← Option.some_inj.mp same] at keyed
    have registered := books.current run member tid keyed alive
    rw [named] at registered
    exact (Option.some_inj.mp registered).symm
  · intro clear run member ran
    apply clear tid thread run member (books.keyed tid id named run member ran)
    rw [ran,live]
    rfl

section Fresh
variable (injective : Function.Injective uuid)
include injective

theorem books_open (s : Hub) (books : Books uuid s) (origin : Origin) (content : String)
    (missing : reusable s (key origin) = none) :
    Books uuid ((opened uuid s (key origin)).start origin (uuid s.drawn) content) := by
  have old (run : Run) (member : run ∈ s.runs) : run.sessionId ≠ uuid s.drawn :=
    drawn_ne_next uuid injective s.drawn run.sessionId (books.used run member)
  -- what a thread names is its new session or what it named before
  have names (tid id : String)
      (named : ((opened uuid s (key origin)).start origin (uuid s.drawn) content).registry.threadSessions.lookup tid =
        some id) :
      (key origin = some tid ∧ id = uuid s.drawn) ∨
        (key origin ≠ some tid ∧ s.registry.threadSessions.lookup tid = some id) := by
    change (opened uuid s (key origin)).registry.threadSessions.lookup tid = some id at named
    rw [lookup_opened] at named
    split at named
    · exact Or.inl ⟨‹_›,(Option.some_inj.mp named).symm⟩
    · exact Or.inr ⟨‹_›,named⟩
  constructor
  · intro id session live
    change (opened uuid s (key origin)).manager.get id = some session at live
    rw [get_opened] at live
    split at live
    · rw [← Option.some_inj.mp live,‹id = _›]
      rfl
    · exact books.named id session live
  · intro tid id named
    rcases names tid id named with ⟨_,new⟩ | ⟨_,before⟩
    · exact ⟨s.drawn,Nat.lt_succ_self _,new⟩
    · exact drawn_later uuid s.drawn _ (Nat.le_succ _) id (books.drawn tid id before)
  · intro run member
    rcases List.mem_cons.mp member with new | before
    · exact ⟨s.drawn,Nat.lt_succ_self _,congrArg Run.sessionId new⟩
    · exact drawn_later uuid s.drawn _ (Nat.le_succ _) run.sessionId (books.used run before)
  · intro tid other id first second
    rcases names tid id first with ⟨own,new⟩ | ⟨_,before⟩
    · rcases names other id second with ⟨too,_⟩ | ⟨_,held⟩
      · exact Option.some_inj.mp (own.symm.trans too)
      · exact absurd new (drawn_ne_next uuid injective s.drawn id (books.drawn other id held))
    · rcases names other id second with ⟨_,new⟩ | ⟨_,held⟩
      · exact absurd new (drawn_ne_next uuid injective s.drawn id (books.drawn tid id before))
      · exact books.distinct tid other id before held
  · intro tid id named run member ran
    rcases List.mem_cons.mp member with new | earlier
    · rcases names tid id named with ⟨own,_⟩ | ⟨_,held⟩
      · rw [new]
        exact own
      · rw [new] at ran
        exact absurd ran.symm (drawn_ne_next uuid injective s.drawn id (books.drawn tid id held))
    · rcases names tid id named with ⟨_,fresh⟩ | ⟨_,held⟩
      · exact absurd (ran.trans fresh) (old run earlier)
      · exact books.keyed tid id held run earlier ran
  · intro run member tid same live
    change (opened uuid s (key origin)).registry.threadSessions.lookup tid = some run.sessionId
    change ((opened uuid s (key origin)).manager.get run.sessionId).isSome at live
    rw [lookup_opened]
    rcases List.mem_cons.mp member with new | earlier
    · rw [new] at same ⊢
      rw [if_pos same]
    · rw [get_opened,if_neg (old run earlier)] at live
      rw [if_neg]
      · exact books.current run earlier tid same live
      · intro thread
        rw [unanswered uuid s books origin missing tid thread run earlier same] at live
        cases live

theorem books_serve (s : Hub) (books : Books uuid s) (origin : Origin) (content : String) :
    Books uuid (serve uuid content s origin) := by
  have served := serve_served uuid content s origin
  generalize serve uuid content s origin = next at served
  cases served with
  | reused session found => exact books_reuse uuid s books origin content session found
  | refused missing =>
    exact ⟨books.named,fun tid id named => drawn_later uuid s.drawn _ (Nat.le_succ _) id (books.drawn tid id named),
      fun run member => drawn_later uuid s.drawn _ (Nat.le_succ _) run.sessionId (books.used run member),
      books.distinct,books.keyed,books.current⟩
  | opened missing => exact books_open uuid injective s books origin content missing

theorem isolated_serve_iff (s : Hub) (books : Books uuid s) (isolated : Isolated s) (origin : Origin)
    (content : String) : Isolated (serve uuid content s origin) ↔ Clear s origin := by
  have served := serve_served uuid content s origin
  generalize serve uuid content s origin = next at served
  cases served with
  | reused session found => exact isolated_reuse_iff uuid s books isolated origin content session found
  | refused missing =>
    have clear := clear_missing uuid s books origin missing
    exact ⟨fun _ => clear,fun _ => isolated⟩
  | opened missing =>
    have clear := clear_missing uuid s books origin missing
    refine ⟨fun _ => clear,fun _ => (isolated_start (opened uuid s (key origin)) isolated origin _ content).mpr ?_⟩
    intro run member ran
    exact absurd ran (drawn_ne_next uuid injective s.drawn run.sessionId (books.used run member))

/-- Serving a message changes neither which earlier messages there are nor which of their
sessions live. -/
theorem live_serve (s : Hub) (books : Books uuid s) (origin : Origin) (content : String) (run : Run)
    (member : run ∈ s.runs) :
    (serve uuid content s origin).manager.get run.sessionId = s.manager.get run.sessionId := by
  have served := serve_served uuid content s origin
  generalize serve uuid content s origin = next at served
  cases served with
  | reused session found => rfl
  | refused missing => rfl
  | opened missing =>
    change (opened uuid s (key origin)).manager.get run.sessionId = _
    rw [get_opened,if_neg (drawn_ne_next uuid injective s.drawn run.sessionId (books.used run member))]

theorem clear_serve_iff (s : Hub) (books : Books uuid s) (origin other : Origin) (content : String)
    (apart : ∀ tid, key origin = some tid → key other ≠ some tid) :
    Clear (serve uuid content s origin) other ↔ Clear s other := by
  constructor
  · intro clear tid thread run member same live
    apply clear tid thread run (runs_serve uuid content s origin member) same
    rw [live_serve uuid injective s books origin content run member]
    exact live
  · intro clear tid thread run member same live
    rcases run_of_serve uuid content s origin run member with new | old
    · rw [new] at same
      exact absurd thread (apart tid same)
    · rw [live_serve uuid injective s books origin content run old] at live
      exact clear tid thread run old same live

theorem isolated_serves_iff (s : Hub) (books : Books uuid s) (isolated : Isolated s) (messages : List Origin)
    (content : String)
    (apart : messages.Pairwise (fun origin other => ∀ tid, key origin = some tid → key other ≠ some tid)) :
    Isolated (messages.foldl (serve uuid content) s) ↔ ∀ origin ∈ messages, Clear s origin := by
  induction messages generalizing s with
  | nil => exact ⟨fun _ _ none => absurd none List.not_mem_nil,fun _ => isolated⟩
  | cons origin rest ih =>
    obtain ⟨first,others⟩ := List.pairwise_cons.mp apart
    have now := isolated_serve_iff uuid injective s books isolated origin content
    have next := books_serve uuid injective s books origin content
    rw [List.foldl_cons,List.forall_mem_cons]
    have later (clear : Clear s origin) :
        Isolated (rest.foldl (serve uuid content) (serve uuid content s origin)) ↔
          ∀ other ∈ rest, Clear s other := by
      rw [ih (serve uuid content s origin) next (now.mpr clear) others]
      exact forall₂_congr fun other member =>
        clear_serve_iff uuid injective s books origin other content (first other member)
    constructor
    · intro apart
      have clear := now.mp (isolated_of_serves uuid content rest (serve uuid content s origin) apart)
      exact ⟨clear,(later clear).mp apart⟩
    · rintro ⟨clear,clears⟩
      exact (later clear).mpr clears

theorem books_serves (messages : List Origin) (content : String) (s : Hub) (books : Books uuid s) :
    Books uuid (messages.foldl (serve uuid content) s) :=
  List.foldlRecOn messages (serve uuid content) books
    (fun s books origin _ => books_serve uuid injective s books origin content)

end Fresh

theorem settle_sessions (s : Hub) (event : Event) :
    (settle uuid s event).runs = s.runs ∧ (settle uuid s event).drawn = s.drawn ∧
      (settle uuid s event).registry.threadSessions = s.registry.threadSessions := by
  have checked (messageId : Option String) :
      (dedupCheck s messageId).1.runs = s.runs ∧ (dedupCheck s messageId).1.drawn = s.drawn ∧
        (dedupCheck s messageId).1.registry.threadSessions = s.registry.threadSessions := by
    obtain ⟨seenIds,same⟩ := dedupCheck_frame s messageId
    rw [same]
    exact ⟨rfl,rfl,rfl⟩
  cases event with
  | inbound params => exact checked params.messageId
  | broadcast params => exact checked params.messageId
  | webhook target body outcome => exact ⟨rfl,rfl,rfl⟩
  | addRule rule => exact ⟨rfl,rfl,rfl⟩
  | removeRules agentId => exact ⟨rfl,rfl,rfl⟩
  | removeSession id => exact ⟨rfl,rfl,rfl⟩
  | wait millis => exact ⟨rfl,rfl,rfl⟩

/-- Before its messages are served, an event removes a session at most. -/
theorem get_settle (s : Hub) (event : Event) (id : String) (session : Session)
    (live : (settle uuid s event).manager.get id = some session) : s.manager.get id = some session := by
  have checked (messageId : Option String) : (dedupCheck s messageId).1.manager = s.manager := by
    obtain ⟨seenIds,same⟩ := dedupCheck_frame s messageId
    rw [same]
  cases event with
  | inbound params =>
    change (dedupCheck s params.messageId).1.manager.get id = some session at live
    rw [checked] at live
    exact live
  | broadcast params =>
    change (dedupCheck s params.messageId).1.manager.get id = some session at live
    rw [checked] at live
    exact live
  | webhook target body outcome => exact live
  | addRule rule => exact live
  | removeRules agentId => exact live
  | removeSession removed =>
    change (s.manager.remove removed).1.get id = some session at live
    rw [get_remove] at live
    split at live
    · cases live
    · exact live
  | wait millis => exact live

theorem books_settle (s : Hub) (event : Event) (books : Books uuid s) : Books uuid (settle uuid s event) := by
  obtain ⟨runs,drawn,threads⟩ := settle_sessions uuid s event
  constructor
  · exact fun id session live => books.named id session (get_settle uuid s event id session live)
  · rw [threads,drawn]
    exact books.drawn
  · rw [runs,drawn]
    exact books.used
  · rw [threads]
    exact books.distinct
  · rw [threads,runs]
    exact books.keyed
  · intro run member tid same live
    rw [threads]
    rw [runs] at member
    obtain ⟨session,found⟩ := Option.isSome_iff_exists.mp live
    apply books.current run member tid same
    rw [get_settle uuid s event run.sessionId session found]
    rfl

theorem isolated_settle (s : Hub) (event : Event) (isolated : Isolated s) : Isolated (settle uuid s event) := by
  intro first member second other
  rw [(settle_sessions uuid s event).1] at member other
  exact isolated first member second other

/-- An event that brings messages removes no session before. -/
theorem clear_settle_iff (s : Hub) (event : Event) (origin : Origin) (brought : origin ∈ origins s event) :
    Clear (settle uuid s event) origin ↔ Clear s origin := by
  have checked (messageId : Option String) : Clear (dedupCheck s messageId).1 origin ↔ Clear s origin := by
    obtain ⟨seenIds,same⟩ := dedupCheck_frame s messageId
    rw [same]
    rfl
  cases event with
  | inbound params => exact checked params.messageId
  | broadcast params => exact checked params.messageId
  | webhook target body outcome => exact Iff.rfl
  | addRule rule => exact absurd brought List.not_mem_nil
  | removeRules agentId => exact absurd brought List.not_mem_nil
  | removeSession id => exact absurd brought List.not_mem_nil
  | wait millis => exact absurd brought List.not_mem_nil

theorem broadcast_key_inj (threadId first second tid : String) (one : threadId ++ "/" ++ first = tid)
    (other : threadId ++ "/" ++ second = tid) : first = second := by
  have same := congrArg String.toList (one.trans other.symm)
  simp only [String.toList_append] at same
  exact String.toList_inj.mp (List.append_cancel_left same)

/-- The messages of one event have keys of their own. -/
theorem origins_apart (s : Hub) (event : Event) :
    (origins s event).Pairwise (fun origin other => ∀ tid, key origin = some tid → key other ≠ some tid) := by
  cases event with
  | inbound params =>
    rw [origins]
    split
    · exact List.Pairwise.nil
    · cases route s.router params.message with
      | none => exact List.Pairwise.nil
      | some agentId => exact List.pairwise_singleton _ _
  | broadcast params =>
    rw [origins]
    split
    · exact List.Pairwise.nil
    · rw [List.pairwise_map]
      apply (broadcastRoute_nodup s.router params.message).imp
      intro first second different tid one other
      obtain ⟨threadId,thread,named⟩ := Option.map_eq_some_iff.mp one
      obtain ⟨again,same,too⟩ := Option.map_eq_some_iff.mp other
      rw [thread] at same
      rw [← Option.some_inj.mp same] at too
      exact different (broadcast_key_inj threadId first second tid named too)
  | webhook target body outcome => exact List.pairwise_singleton _ _
  | addRule rule => exact List.Pairwise.nil
  | removeRules agentId => exact List.Pairwise.nil
  | removeSession id => exact List.Pairwise.nil
  | wait millis => exact List.Pairwise.nil

theorem step_isolated_iff (injective : Function.Injective uuid) (s : Hub) (event : Event) (books : Books uuid s)
    (isolated : Isolated s) : Isolated (step uuid s event) ↔ Clashfree s event := by
  rw [step_serve,isolated_serves_iff uuid injective (settle uuid s event) (books_settle uuid s event books)
    (isolated_settle uuid s event isolated) (origins s event) (content event) (origins_apart s event)]
  exact forall₂_congr fun origin brought => clear_settle_iff uuid s event origin brought

theorem new_books (maxSessions : Nat) : Books uuid (.new maxSessions) where
  named := nofun
  drawn := nofun
  used := nofun
  distinct := nofun
  keyed := nofun
  current := nofun

/-- The conversations are isolated throughout exactly if no message comes with the key of an
earlier one from elsewhere whose session still lives. -/
theorem isolated_throughout_iff (injective : Function.Injective uuid) (maxSessions : Nat) (events : List Event) :
    Always (step uuid) Isolated (.new maxSessions) events ↔ Along (step uuid) Clashfree (.new maxSessions) events := by
  apply always_iff_along (step uuid) Clashfree Isolated (Books uuid) (fun _ => True)
  · intro s event books _
    rw [step_serve]
    exact books_serves uuid injective (origins s event) (content event) _ (books_settle uuid s event books)
  · exact fun s event books _ isolated => step_isolated_iff uuid injective s event books isolated
  · exact fun _ _ => trivial
  · exact new_books uuid maxSessions
  · exact nofun

end Serving

/-- A conversation of one thread, on one channel. -/
theorem isolated_one_thread :
    Always (step Server.Agents.numbered) Isolated (.new 1)
      [.addRule (.default "agent"),.inbound ⟨"one","user","hello",some "thread",none⟩,
        .inbound ⟨"one","user","again",some "thread",none⟩] :=
  (isolated_throughout_iff Server.Agents.numbered Server.Agents.numbered_injective 1 _).mpr (by decide)

/-- Two channels that name their threads alike. -/
theorem thread_of_two_channels :
    ¬Always (step Server.Agents.numbered) Isolated (.new 2)
      [.addRule (.default "agent"),.inbound ⟨"one","user","secret",some "thread",none⟩,
        .inbound ⟨"two","stranger","hello",some "thread",none⟩] := by
  intro always
  have last := always.2.2.2
  have same := last _ List.mem_cons_self _ (List.mem_cons_of_mem _ List.mem_cons_self) rfl
  exact absurd (congrArg Origin.channelId same) (by decide)

end ClawKernel.Server.Conversations
