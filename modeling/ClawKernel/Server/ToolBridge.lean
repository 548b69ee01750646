import ClawKernel.Lib.Runs
import ClawKernel.Server.Connection
import ClawKernel.Tools.Registry

/-! External tool calls of one session. `ExternalToolBridge::execute` registers a oneshot
under a fresh id, sends the call to the client over the bounded notify channel and waits
for the answer that `toolResult` puts into the oneshot. `ToolRegistry::execute` runs it
in a task of its own and drops that task after a longer timeout. Time is in milliseconds.
-/
namespace ClawKernel.Server.ToolBridge
open Lib.Runs Server.Connection Tools.Registry

def bridgeTimeoutMs : Nat := 30000

/-- `ExternalToolBridge::timeout`, by which the registry waits. -/
def registryTimeoutMs : Nat := 35000

structure Answer where
  result : Lib.Json.Value
  success : Bool

structure ToolResultParams where
  toolCallId : String
  answer : Answer

inductive Returned where
  | client (answer : Answer)
  | internal (message : String)
  | timeout

def Returned.toolResult (durationMs : Nat) : Returned → ToolResult
  | .client ⟨result,true⟩ => ⟨true,some result,none,durationMs⟩
  | .client ⟨result,false⟩ => .err (.internal result.text) durationMs
  | .internal message => .err (.internal message) durationMs
  | .timeout => .err .timedOut durationMs

/-- Where a call stands. `sending` and `waiting` are the two awaits of `execute`; from
`expired`, the end of the second without an answer, it runs through to its return. -/
inductive Phase where
  | spawned
  | registered
  | sending
  | waiting (since : Nat)
  | expired
  | returned (outcome : Returned)
  | cancelled

/-- `registeredAt` counts the `toolResult`s received before the call registered its id. -/
structure Call where
  called : Nat
  registeredAt : Nat
  phase : Phase
  slot : Option Answer

structure Session where
  now : Nat
  calls : String → Option Call
  pendingToolCalls : String → Bool
  received : List ToolResultParams
  /-- The `toolResult`s whose handler has taken the oneshot out of the map and has still to
  send, and those sent, with the call they reached. -/
  inFlight : List (Nat × ToolResultParams)
  delivered : List (Nat × String)
  queued : Nat
  closed : Bool

inductive Step where
  | tick (ms : Nat)
  | call (id : String)
  | register (id : String)
  | serialise (id : String) (failed : Option String)
  | send (id : String)
  | toolResult (params : ToolResultParams)
  | deliver (index : Nat)
  | receive (id : String)
  | expire (id : String)
  | cleanUp (id : String)
  | cancel (id : String)
  | drain
  | other
  | close

def start : Session where
  now := 0
  calls := fun _ => none
  pendingToolCalls := fun _ => false
  received := []
  inFlight := []
  delivered := []
  queued := 0
  closed := false

def Session.set (s : Session) (id : String) (call : Call) (pending : Bool) : Session :=
  { s with
    calls := Function.update s.calls id (some call)
    pendingToolCalls := Function.update s.pendingToolCalls id pending }

/-- The receiver is there as long as the call may still be polled for its answer. -/
def Call.listens (call : Call) : Bool :=
  match call.phase with
  | .registered => true
  | .sending => true
  | .waiting _ => true
  | _ => false

/-- `handle_tool_result` up to `remove`: the entry is taken out of the map. -/
def handleToolResult (s : Session) (params : ToolResultParams) : Session :=
  let counted := { s with received := s.received ++ [params] }
  if s.pendingToolCalls params.toolCallId then
    { counted with
      pendingToolCalls := Function.update s.pendingToolCalls params.toolCallId false
      inFlight := s.inFlight ++ [(s.received.length,params)] }
  else counted

/-- `sender.send`, whose error is ignored: the call may have stopped listening. -/
def deliver (s : Session) (index : Nat) : Session :=
  match s.inFlight.find? (fun flight => flight.1 == index) with
  | none => s
  | some (_,params) =>
    let landed := { s with inFlight := s.inFlight.filter (fun flight => flight.1 != index) }
    match s.calls params.toolCallId with
    | none => landed
    | some call =>
      if call.listens then
        { landed.set params.toolCallId { call with slot := some params.answer }
            (s.pendingToolCalls params.toolCallId) with
          delivered := s.delivered ++ [(index,params.toolCallId)] }
      else landed

def serialise (s : Session) (id : String) (call : Call) : Option String → Session
  | none => s.set id { call with phase := .sending } (s.pendingToolCalls id)
  | some message => s.set id { call with phase := .returned (.internal message) } false

def send (s : Session) (id : String) (call : Call) : Session :=
  if s.closed then
    s.set id { call with
      phase := .returned (.internal "notify channel closed before tool call could be sent") } false
  else if s.queued < notifyCapacity then
    { s.set id { call with phase := .waiting s.now } (s.pendingToolCalls id) with queued := s.queued + 1 }
  else s

/-- A step on a call in some phase; in the others the step is not possible. -/
def stepCall (s : Session) (id : String) (call : Call) : Step → Session
  | .register _ =>
    match call.phase with
    | .spawned => s.set id { call with phase := .registered, registeredAt := s.received.length, slot := none } true
    | _ => s
  | .serialise _ failed =>
    match call.phase with
    | .registered => serialise s id call failed
    | _ => s
  | .send _ =>
    match call.phase with
    | .sending => send s id call
    | _ => s
  | .receive _ =>
    match call.phase, call.slot with
    | .waiting _, some answer => s.set id { call with phase := .returned (.client answer) } (s.pendingToolCalls id)
    | _, _ => s
  | .expire _ =>
    match call.phase, call.slot with
    -- the timeout polls the oneshot before its own deadline
    | .waiting since, none =>
      if since + bridgeTimeoutMs ≤ s.now then s.set id { call with phase := .expired } (s.pendingToolCalls id) else s
    | _, _ => s
  | .cleanUp _ =>
    match call.phase with
    | .expired => s.set id { call with phase := .returned .timeout } false
    | _ => s
  | .cancel _ =>
    if call.called + registryTimeoutMs ≤ s.now then
      match call.phase with
      | .spawned => s.set id { call with phase := .cancelled } (s.pendingToolCalls id)
      | .sending => s.set id { call with phase := .cancelled } (s.pendingToolCalls id)
      | .waiting _ => s.set id { call with phase := .cancelled } (s.pendingToolCalls id)
      | _ => s
    else s
  | _ => s

def Step.target : Step → Option String
  | .register id => some id
  | .serialise id _ => some id
  | .send id => some id
  | .receive id => some id
  | .expire id => some id
  | .cleanUp id => some id
  | .cancel id => some id
  | _ => none

def step (s : Session) (i : Step) : Session :=
  match i with
  | .tick ms => { s with now := s.now + ms }
  | .call id =>
    match s.calls id with
    | none => s.set id ⟨s.now,s.received.length,.spawned,none⟩ (s.pendingToolCalls id)
    | some _ => s
  | .toolResult params => handleToolResult s params
  | .deliver index => deliver s index
  | .drain => { s with queued := s.queued - 1 }
  | .other => if s.queued < notifyCapacity then { s with queued := s.queued + 1 } else s
  | .close => { s with closed := true }
  | _ =>
    match i.target with
    | none => s
    | some id =>
      match s.calls id with
      | none => s
      | some call => stepCall s id call i

/-- The first `toolResult` with the call's id since the call registered it. -/
def first (received : List ToolResultParams) (id : String) (call : Call) : Option Answer :=
  ((received.drop call.registeredAt).find? (fun params => params.toolCallId == id)).map ToolResultParams.answer

/-- The call has registered its id and has not returned. -/
def Call.running (call : Call) : Bool :=
  match call.phase with
  | .registered => true
  | .sending => true
  | .waiting _ => true
  | .expired => true
  | _ => false

/-- A call that returns a value of the client returns that of the first `toolResult` for
it, no `toolResult` reaches two calls, and the map holds the ids of the calls that are
running and for which no `toolResult` has come. -/
structure Answered (s : Session) : Prop where
  own : ∀ id call answer, s.calls id = some call → call.phase = .returned (.client answer) →
    first s.received id call = some answer
  once : (s.delivered.map Prod.fst).Nodup
  pending : ∀ id, s.pendingToolCalls id = true ↔
    ∃ call, s.calls id = some call ∧ call.running = true ∧ first s.received id call = none

/-- The call stands at one of its two awaits, where its task can be dropped. -/
def Call.awaits (call : Call) : Bool :=
  match call.phase with
  | .sending => true
  | .waiting _ => true
  | _ => false

/-- The registry's timeout drops a call at an await only once a `toolResult` for it has come. -/
def CancelsAnswered (s : Session) : Step → Prop
  | .cancel id =>
    ∀ call, s.calls id = some call → call.called + registryTimeoutMs ≤ s.now → call.awaits = true →
      first s.received id call ≠ none
  | _ => True

structure CallInv (received : List ToolResultParams) (pending : Bool) (id : String) (call : Call) : Prop where
  bound : call.registeredAt ≤ received.length
  unregistered : call.phase = .spawned → pending = false
  slot : ∀ answer, call.listens = true → call.slot = some answer → first received id call = some answer
  unanswered : call.running = true → (pending = true ↔ first received id call = none)
  client : ∀ answer, call.phase = .returned (.client answer) → first received id call = some answer
  removed : ∀ outcome, call.phase = .returned outcome → pending = false

structure Inv (s : Session) : Prop where
  calls : ∀ id call, s.calls id = some call → CallInv s.received (s.pendingToolCalls id) id call
  unknown : ∀ id, s.calls id = none → s.pendingToolCalls id = false
  flight : ∀ index params, (index,params) ∈ s.inFlight → ∃ call, s.calls params.toolCallId = some call ∧
    call.phase ≠ .spawned ∧ (call.listens = true → first s.received params.toolCallId call = some params.answer)
  indices : (s.inFlight.map Prod.fst ++ s.delivered.map Prod.fst).Nodup
  counted : ∀ index ∈ s.inFlight.map Prod.fst ++ s.delivered.map Prod.fst, index < s.received.length

section Frame
variable (s : Session) (id other : String) (call : Call) (pending : Bool)

@[simp] theorem set_calls :
    (s.set id call pending).calls other = if other = id then some call else s.calls other :=
  Function.update_apply _ _ _ _

@[simp] theorem set_pending :
    (s.set id call pending).pendingToolCalls other = if other = id then pending else s.pendingToolCalls other :=
  Function.update_apply _ _ _ _

end Frame

/-- A step of one call: what `Inv` says of the other calls stays as it was. -/
theorem inv_set (s : Session) (id : String) (call : Call) (pending : Bool) (inv : Inv s)
    (own : CallInv s.received pending id call)
    (flight : ∀ index params, (index,params) ∈ s.inFlight → params.toolCallId = id →
      call.phase ≠ .spawned ∧ (call.listens = true → first s.received id call = some params.answer)) :
    Inv (s.set id call pending) := by
  refine ⟨?_,?_,?_,inv.indices,inv.counted⟩
  · intro other known found
    rw [set_calls] at found
    rw [set_pending]
    split_ifs at found ⊢ with same
    · cases found
      rw [same]
      exact own
    · exact inv.calls other known found
  · intro other unknown
    rw [set_calls] at unknown
    rw [set_pending]
    split_ifs at unknown ⊢ with same
    exact inv.unknown other unknown
  · intro index params member
    obtain ⟨known,found,late,answer⟩ := inv.flight index params member
    rw [set_calls]
    split_ifs with same
    · refine ⟨call,rfl,?_⟩
      rw [same]
      exact flight index params member same
    · exact ⟨known,found,late,answer⟩

/-- A step of one call to another phase, with its entry kept or removed. -/
theorem phase_inv (s : Session) (id : String) (call : Call) (phase : Phase) (pending : Bool) (inv : Inv s)
    (known : s.calls id = some call) (late : phase ≠ .spawned)
    (listens : { call with phase := phase }.listens = true → call.listens = true)
    (running : { call with phase := phase }.running = true → (pending = true ↔ first s.received id call = none))
    (client : ∀ answer, phase = .returned (.client answer) → first s.received id call = some answer)
    (removed : ∀ outcome, phase = .returned outcome → pending = false) :
    Inv (s.set id { call with phase := phase } pending) := by
  have before := inv.calls id call known
  apply inv_set s id _ pending inv
  · refine ⟨before.bound,fun early => absurd early late,?_,running,client,removed⟩
    intro answer now filled
    exact before.slot answer (listens now) filled
  · intro index params member same
    refine ⟨late,?_⟩
    intro now
    obtain ⟨other,found,_,answer⟩ := inv.flight index params member
    rw [same,known] at found
    cases found
    rw [same] at answer
    exact answer (listens now)

/-- A running call goes on; its entry stays as it is. -/
theorem moves_inv (s : Session) (id : String) (call : Call) (phase : Phase) (inv : Inv s)
    (known : s.calls id = some call) (running : call.running = true)
    (listens : { call with phase := phase }.listens = true → call.listens = true) (late : phase ≠ .spawned)
    (goesOn : ∀ outcome, phase ≠ .returned outcome) :
    Inv (s.set id { call with phase := phase } (s.pendingToolCalls id)) := by
  apply phase_inv s id call phase _ inv known late listens
  · exact fun _ => (inv.calls id call known).unanswered running
  · exact fun answer returned => absurd returned (goesOn (.client answer))
  · exact fun outcome returned => absurd returned (goesOn outcome)

/-- A call returns without an answer of the client; its entry goes. -/
theorem returned_inv (s : Session) (id : String) (call : Call) (outcome : Returned) (inv : Inv s)
    (known : s.calls id = some call) (noClient : ∀ answer, outcome ≠ .client answer) :
    Inv (s.set id { call with phase := .returned outcome } false) := by
  apply phase_inv s id call (.returned outcome) false inv known Phase.noConfusion
  · exact fun listens => Bool.noConfusion listens
  · exact fun runs => Bool.noConfusion runs
  · exact fun answer returned => absurd (Phase.returned.inj returned) (noClient answer)
  · exact fun _ _ => rfl

theorem cancel_inv (s : Session) (id : String) (call : Call) (inv : Inv s) (known : s.calls id = some call) :
    Inv (s.set id { call with phase := .cancelled } (s.pendingToolCalls id)) := by
  apply phase_inv s id call .cancelled _ inv known Phase.noConfusion
  · exact fun listens => Bool.noConfusion listens
  · exact fun runs => Bool.noConfusion runs
  · exact fun _ returned => Phase.noConfusion returned
  · exact fun _ returned => Phase.noConfusion returned

theorem receive_inv (s : Session) (id : String) (call : Call) (answer : Answer) (inv : Inv s)
    (known : s.calls id = some call) (listens : call.listens = true) (running : call.running = true)
    (filled : call.slot = some answer) :
    Inv (s.set id { call with phase := .returned (.client answer) } (s.pendingToolCalls id)) := by
  have before := inv.calls id call known
  have mine := before.slot answer listens filled
  have removed : s.pendingToolCalls id = false := by
    rw [← Bool.not_eq_true]
    intro pending
    have none := (before.unanswered running).mp pending
    rw [mine] at none
    cases none
  apply phase_inv s id call _ _ inv known Phase.noConfusion
  · exact fun listens => Bool.noConfusion listens
  · exact fun runs => Bool.noConfusion runs
  · intro other returned
    cases returned
    exact mine
  · exact fun _ _ => removed

theorem register_inv (s : Session) (id : String) (call : Call) (inv : Inv s) (known : s.calls id = some call)
    (spawned : call.phase = .spawned) :
    Inv (s.set id { call with phase := .registered, registeredAt := s.received.length, slot := none } true) := by
  have nothing : first s.received id
      { call with phase := .registered, registeredAt := s.received.length, slot := none } = none := by
    simp only [first,List.drop_length,List.find?_nil,Option.map_none]
  apply inv_set s id _ true inv
  · refine ⟨Nat.le_refl _,fun early => Phase.noConfusion early,?_,?_,?_,?_⟩
    · intro answer _ filled
      cases filled
    · exact fun _ => ⟨fun _ => nothing,fun _ => rfl⟩
    · intro answer returned
      cases returned
    · intro outcome returned
      cases returned
  · intro index params member same
    obtain ⟨other,found,late,_⟩ := inv.flight index params member
    rw [same,known] at found
    cases found
    exact absurd spawned late

theorem call_inv (s : Session) (id : String) (inv : Inv s) (unknown : s.calls id = none) :
    Inv (s.set id ⟨s.now,s.received.length,.spawned,none⟩ (s.pendingToolCalls id)) := by
  apply inv_set s id _ _ inv
  · refine ⟨Nat.le_refl _,fun _ => inv.unknown id unknown,?_,?_,?_,?_⟩
    · exact fun _ listens => Bool.noConfusion listens
    · exact fun running => Bool.noConfusion running
    · exact fun _ returned => Phase.noConfusion returned
    · exact fun _ returned => Phase.noConfusion returned
  · intro index params member same
    obtain ⟨other,found,_⟩ := inv.flight index params member
    rw [same,unknown] at found
    cases found

theorem inv_queued (s : Session) (queued : Nat) (inv : Inv s) : Inv { s with queued := queued } :=
  ⟨inv.calls,inv.unknown,inv.flight,inv.indices,inv.counted⟩

theorem phase_reads (call : Call) (phase : Phase) (stands : call.phase = phase) :
    call.listens = { call with phase := phase }.listens ∧ call.running = { call with phase := phase }.running := by
  rw [← stands]
  exact ⟨rfl,rfl⟩

/-- What a step on a call can do. -/
inductive Moves (s : Session) (id : String) (call : Call) (i : Step) : Session → Prop where
  | stays : Moves s id call i s
  | registers (spawned : call.phase = .spawned) : Moves s id call i
      (s.set id { call with phase := .registered, registeredAt := s.received.length, slot := none } true)
  | serialises (registered : call.phase = .registered) :
      Moves s id call i (s.set id { call with phase := .sending } (s.pendingToolCalls id))
  | sends (sending : call.phase = .sending) : Moves s id call i
      { s.set id { call with phase := .waiting s.now } (s.pendingToolCalls id) with queued := s.queued + 1 }
  | receives (since : Nat) (answer : Answer) (waiting : call.phase = .waiting since) (filled : call.slot = some answer) :
      Moves s id call i (s.set id { call with phase := .returned (.client answer) } (s.pendingToolCalls id))
  | expires (since : Nat) (waiting : call.phase = .waiting since) :
      Moves s id call i (s.set id { call with phase := .expired } (s.pendingToolCalls id))
  | ends (outcome : Returned) (noClient : ∀ answer, outcome ≠ .client answer) :
      Moves s id call i (s.set id { call with phase := .returned outcome } false)
  | drops (other : String) (cancels : i = .cancel other) :
      Moves s id call i (s.set id { call with phase := .cancelled } (s.pendingToolCalls id))

theorem stepCall_moves (s : Session) (id : String) (call : Call) (i : Step) : Moves s id call i (stepCall s id call i) := by
  cases i with
  | register other =>
    rw [stepCall]
    split
    · exact .registers ‹_›
    · exact .stays
  | serialise other failed =>
    rw [stepCall]
    split
    · cases failed with
      | none => exact .serialises ‹_›
      | some message => exact .ends (.internal message) (fun _ => Returned.noConfusion)
    · exact .stays
  | send other =>
    rw [stepCall]
    split
    · unfold send
      split_ifs
      · exact .ends _ (fun _ => Returned.noConfusion)
      · exact .sends ‹_›
      · exact .stays
    · exact .stays
  | receive other =>
    rw [stepCall]
    split
    · exact .receives _ _ ‹_› ‹_›
    · exact .stays
  | expire other =>
    rw [stepCall]
    split
    · split_ifs
      · exact .expires _ ‹_›
      · exact .stays
    · exact .stays
  | cleanUp other =>
    rw [stepCall]
    split
    · exact .ends .timeout (fun _ => Returned.noConfusion)
    · exact .stays
  | cancel other =>
    rw [stepCall]
    split_ifs
    · split
      · exact .drops other rfl
      · exact .drops other rfl
      · exact .drops other rfl
      · exact .stays
    · exact .stays
  | _ => exact .stays

/-- A step that names a call is a step on that call, if there is one. -/
theorem step_named (holds : Session → Prop) (s : Session) (i : Step) (id : String) (aims : i.target = some id)
    (same : holds s) (onCall : ∀ call, s.calls id = some call → holds (stepCall s id call i)) : holds (step s i) := by
  have named : holds (match s.calls id with | none => s | some call => stepCall s id call i) := by
    cases known : s.calls id with
    | none => exact same
    | some call => exact onCall call known
  cases i with
  | tick ms => cases aims
  | call id => cases aims
  | toolResult params => cases aims
  | deliver index => cases aims
  | drain => cases aims
  | other => cases aims
  | close => cases aims
  | _ =>
    cases aims
    exact named

theorem stepCall_inv (s : Session) (id : String) (call : Call) (i : Step) (inv : Inv s)
    (known : s.calls id = some call) : Inv (stepCall s id call i) := by
  have moves := stepCall_moves s id call i
  generalize stepCall s id call i = after at moves ⊢
  cases moves with
  | stays => exact inv
  | registers spawned => exact register_inv s id call inv known spawned
  | serialises registered =>
    have now := phase_reads call _ registered
    exact moves_inv s id call .sending inv known now.2 (fun _ => now.1) Phase.noConfusion (fun _ => Phase.noConfusion)
  | sends sending =>
    have now := phase_reads call _ sending
    apply inv_queued
    exact moves_inv s id call (.waiting s.now) inv known now.2 (fun _ => now.1) Phase.noConfusion
      (fun _ => Phase.noConfusion)
  | receives since answer waiting filled =>
    have now := phase_reads call _ waiting
    exact receive_inv s id call answer inv known now.1 now.2 filled
  | expires since waiting =>
    have now := phase_reads call _ waiting
    exact moves_inv s id call .expired inv known now.2 (fun _ => now.1) Phase.noConfusion (fun _ => Phase.noConfusion)
  | ends outcome noClient => exact returned_inv s id call outcome inv known noClient
  | drops other cancels => exact cancel_inv s id call inv known

theorem first_received (received : List ToolResultParams) (params : ToolResultParams) (id : String) (call : Call)
    (bound : call.registeredAt ≤ received.length) :
    first (received ++ [params]) id call =
      (first received id call).or (if params.toolCallId = id then some params.answer else none) := by
  simp only [first,List.drop_append_of_le_length bound,List.find?_append]
  cases (received.drop call.registeredAt).find? (fun params => params.toolCallId == id) with
  | some found => rfl
  | none =>
    simp only [Option.none_or,Option.map_none]
    by_cases same : params.toolCallId = id
    · simp only [List.find?_cons,same,beq_self_eq_true,Option.map_some,if_true]
    · simp only [List.find?_cons,beq_false_of_ne same,List.find?_nil,Option.map_none,if_neg same]

theorem first_stays (received : List ToolResultParams) (params : ToolResultParams) (id : String) (call : Call)
    (answer : Answer) (bound : call.registeredAt ≤ received.length) (found : first received id call = some answer) :
    first (received ++ [params]) id call = some answer := by
  rw [first_received received params id call bound,found]
  rfl

theorem running_of_listens (call : Call) (listens : call.listens = true) : call.running = true := by
  obtain ⟨called,registeredAt,phase,slot⟩ := call
  cases phase with
  | registered => rfl
  | sending => rfl
  | waiting since => rfl
  | _ => cases listens

/-- A `toolResult` for another call, or for one that has its answer or none pending. -/
theorem received_other (received : List ToolResultParams) (params : ToolResultParams) (pending : Bool) (id : String)
    (call : Call) (before : CallInv received pending id call)
    (other : params.toolCallId = id → pending = false) : CallInv (received ++ [params]) pending id call := by
  have grown : call.registeredAt ≤ (received ++ [params]).length := by
    rw [List.length_append]
    exact Nat.le_add_right_of_le before.bound
  refine ⟨grown,before.unregistered,?_,?_,?_,before.removed⟩
  · intro answer listens filled
    exact first_stays received params id call answer before.bound (before.slot answer listens filled)
  · intro running
    have same := before.unanswered running
    rw [first_received received params id call before.bound]
    by_cases mine : params.toolCallId = id
    · have absent := other mine
      cases found : first received id call with
      | none =>
        rw [absent] at same
        exact absurd (same.mpr found) Bool.false_ne_true
      | some answer =>
        rw [found] at same
        exact same
    · rw [if_neg mine,Option.or_none]
      exact same
  · intro answer returned
    exact first_stays received params id call answer before.bound (before.client answer returned)

/-- The first `toolResult` for a pending call is its answer. -/
theorem received_own (received : List ToolResultParams) (params : ToolResultParams) (call : Call)
    (before : CallInv received true params.toolCallId call) :
    CallInv (received ++ [params]) false params.toolCallId call ∧ call.phase ≠ .spawned ∧
      (call.listens = true → first (received ++ [params]) params.toolCallId call = some params.answer) := by
  have grown : call.registeredAt ≤ (received ++ [params]).length := by
    rw [List.length_append]
    exact Nat.le_add_right_of_le before.bound
  have answered : call.running = true →
      first (received ++ [params]) params.toolCallId call = some params.answer := by
    intro running
    rw [first_received received params _ call before.bound,(before.unanswered running).mp rfl,if_pos rfl]
    rfl
  refine ⟨⟨grown,fun _ => rfl,?_,?_,?_,fun _ _ => rfl⟩,?_,?_⟩
  · intro answer listens filled
    exact first_stays received params _ call answer before.bound (before.slot answer listens filled)
  · intro running
    rw [answered running]
    exact ⟨fun clash => Bool.noConfusion clash,fun clash => by cases clash⟩
  · intro answer returned
    exact absurd (before.removed _ returned).symm Bool.false_ne_true
  · intro spawned
    exact absurd (before.unregistered spawned).symm Bool.false_ne_true
  · exact fun listens => answered (running_of_listens call listens)

/-- The answer that comes in has the next number, which none in flight or delivered has. -/
theorem received_indices (s : Session) (params : ToolResultParams) (inv : Inv s) :
    ((s.inFlight ++ [(s.received.length,params)]).map Prod.fst ++ s.delivered.map Prod.fst).Nodup := by
  have fresh : s.received.length ∉ s.inFlight.map Prod.fst ++ s.delivered.map Prod.fst :=
    fun member => absurd (inv.counted _ member) (Nat.lt_irrefl _)
  have moved : ((s.inFlight ++ [(s.received.length,params)]).map Prod.fst ++ s.delivered.map Prod.fst).Perm
      (s.received.length :: (s.inFlight.map Prod.fst ++ s.delivered.map Prod.fst)) := by
    rw [List.map_append,List.map_cons,List.map_nil,List.append_assoc,List.singleton_append]
    exact List.perm_middle
  exact moved.nodup_iff.mpr (List.nodup_cons.mpr ⟨fresh,inv.indices⟩)

theorem received_counted (s : Session) (params : ToolResultParams) (inv : Inv s) (index : Nat)
    (member : index ∈ (s.inFlight ++ [(s.received.length,params)]).map Prod.fst ++ s.delivered.map Prod.fst) :
    index < (s.received ++ [params]).length := by
  rw [List.length_append,List.length_singleton]
  simp only [List.map_append,List.map_cons,List.map_nil,List.append_assoc,List.singleton_append,List.mem_append,
    List.mem_cons] at member
  rcases member with older | rfl | sent
  · exact Nat.lt_succ_of_lt (inv.counted index (List.mem_append_left _ older))
  · exact Nat.lt_succ_self _
  · exact Nat.lt_succ_of_lt (inv.counted index (List.mem_append_right _ sent))

theorem toolResult_inv (s : Session) (params : ToolResultParams) (inv : Inv s) : Inv (handleToolResult s params) := by
  have flown : ∀ index other, (index,other) ∈ s.inFlight → ∃ call, s.calls other.toolCallId = some call ∧
      call.phase ≠ .spawned ∧ (call.listens = true →
        first (s.received ++ [params]) other.toolCallId call = some other.answer) := by
    intro index other member
    obtain ⟨call,known,late,answer⟩ := inv.flight index other member
    refine ⟨call,known,late,?_⟩
    intro listens
    exact first_stays s.received params _ call _ (inv.calls _ call known).bound (answer listens)
  unfold handleToolResult
  cases there : s.pendingToolCalls params.toolCallId with
  | false =>
    refine ⟨?_,inv.unknown,flown,inv.indices,?_⟩
    · intro id call known
      apply received_other s.received params _ id call (inv.calls id call known)
      exact fun mine => mine ▸ there
    · intro index member
      change index < (s.received ++ [params]).length
      rw [List.length_append]
      exact Nat.lt_add_right _ (inv.counted index member)
  | true =>
    obtain ⟨called,known⟩ : ∃ call, s.calls params.toolCallId = some call := by
      cases known : s.calls params.toolCallId with
      | none => exact absurd ((inv.unknown _ known).symm.trans there) Bool.false_ne_true
      | some call => exact ⟨call,rfl⟩
    have before := inv.calls _ called known
    rw [there] at before
    have own := received_own s.received params called before
    simp only [if_true]
    refine ⟨?_,?_,?_,?_,?_⟩
    · intro id call found
      simp only [Function.update_apply]
      split_ifs with mine
      · rw [mine,known] at found
        cases found
        rw [mine]
        exact own.1
      · apply received_other s.received params _ id call (inv.calls id call found)
        exact fun same => absurd same.symm mine
    · intro id unknown
      simp only [Function.update_apply]
      split_ifs
      · rfl
      · exact inv.unknown id unknown
    · intro index other member
      cases List.mem_append.mp member with
      | inl older => exact flown index other older
      | inr newest =>
        cases List.mem_singleton.mp newest
        exact ⟨called,known,own.2⟩
    · exact received_indices s params inv
    · exact received_counted s params inv

/-- The oneshot is used up, whatever becomes of what it carried. -/
theorem landed_inv (s : Session) (index : Nat) (inv : Inv s) :
    Inv { s with inFlight := s.inFlight.filter (fun flight => flight.1 != index) } := by
  have part : ((s.inFlight.filter (fun flight => flight.1 != index)).map Prod.fst ++ s.delivered.map Prod.fst).Sublist
      (s.inFlight.map Prod.fst ++ s.delivered.map Prod.fst) :=
    (List.filter_sublist.map Prod.fst).append (List.Sublist.refl _)
  refine ⟨inv.calls,inv.unknown,?_,inv.indices.sublist part,fun other member => inv.counted other (part.mem member)⟩
  intro other params member
  exact inv.flight other params (List.mem_filter.mp member).1

theorem landed_gone (s : Session) (index : Nat) :
    index ∉ (s.inFlight.filter (fun flight => flight.1 != index)).map Prod.fst := by
  intro still
  obtain ⟨flight,inside,equal⟩ := List.mem_map.mp still
  have kept := (List.mem_filter.mp inside).2
  rw [equal,bne_self_eq_false] at kept
  cases kept

/-- The answer is put into the oneshot of a call that listens. -/
theorem filled_inv (s : Session) (params : ToolResultParams) (call : Call) (inv : Inv s)
    (known : s.calls params.toolCallId = some call)
    (answer : first s.received params.toolCallId call = some params.answer) :
    Inv (s.set params.toolCallId { call with slot := some params.answer }
      (s.pendingToolCalls params.toolCallId)) := by
  have before := inv.calls _ call known
  apply inv_set _ _ _ _ inv
  · refine ⟨before.bound,before.unregistered,?_,before.unanswered,before.client,before.removed⟩
    intro reply _ filled
    cases filled
    exact answer
  · intro index other member mine
    obtain ⟨called,found,late,reply⟩ := inv.flight index other member
    rw [mine,known] at found
    cases found
    rw [mine] at reply
    exact ⟨late,reply⟩

theorem deliver_inv (s : Session) (index : Nat) (inv : Inv s) : Inv (deliver s index) := by
  unfold deliver
  cases found : s.inFlight.find? (fun flight => flight.1 == index) with
  | none => exact inv
  | some flight =>
    obtain ⟨taken,params⟩ := flight
    have same : taken = index := by simpa using List.find?_some found
    subst same
    have member := List.mem_of_find?_eq_some found
    have landed := landed_inv s taken inv
    simp only
    cases known : s.calls params.toolCallId with
    | none => exact landed
    | some call =>
      simp only
      split_ifs with listens
      · obtain ⟨called,again,_,answer⟩ := inv.flight taken params member
        rw [known] at again
        cases again
        have filled := filled_inv _ params call landed known (answer listens)
        have carried : taken ∈ s.inFlight.map Prod.fst := List.mem_map.mpr ⟨(taken,params),member,rfl⟩
        have apart := (List.nodup_append.mp inv.indices).2.2
        have moved : ((s.inFlight.filter (fun flight => flight.1 != taken)).map Prod.fst ++
            (s.delivered ++ [(taken,params.toolCallId)]).map Prod.fst).Perm
            (taken :: ((s.inFlight.filter (fun flight => flight.1 != taken)).map Prod.fst ++
              s.delivered.map Prod.fst)) := by
          rw [List.map_append,List.map_cons,List.map_nil,← List.append_assoc]
          exact List.perm_append_singleton taken _
        refine ⟨filled.calls,filled.unknown,filled.flight,?_,?_⟩
        · refine moved.nodup_iff.mpr (List.nodup_cons.mpr ⟨?_,landed.indices⟩)
          intro either
          cases List.mem_append.mp either with
          | inl still => exact landed_gone s taken still
          | inr sent => exact apart taken carried taken sent rfl
        · intro other either
          cases List.mem_cons.mp (moved.mem_iff.mp either) with
          | inl newest =>
            rw [newest]
            exact inv.counted taken (List.mem_append_left _ carried)
          | inr before => exact landed.counted other before
      · exact landed

theorem step_inv (s : Session) (i : Step) (inv : Inv s) : Inv (step s i) := by
  cases aims : i.target with
  | some id => exact step_named Inv s i id aims inv (fun call known => stepCall_inv s id call i inv known)
  | none =>
    cases i with
    | tick ms => exact ⟨inv.calls,inv.unknown,inv.flight,inv.indices,inv.counted⟩
    | call id =>
      rw [step]
      cases known : s.calls id with
      | none => exact call_inv s id inv known
      | some call => exact inv
    | toolResult params => exact toolResult_inv s params inv
    | deliver index => exact deliver_inv s index inv
    | drain => exact inv_queued s _ inv
    | other =>
      rw [step]
      split_ifs
      · exact inv_queued s _ inv
      · exact inv
    | close => exact ⟨inv.calls,inv.unknown,inv.flight,inv.indices,inv.counted⟩
    | _ => cases aims

/-- A dropped call has left nothing in the map. -/
def Clean (s : Session) : Prop :=
  ∀ id call, s.calls id = some call → call.phase = .cancelled → s.pendingToolCalls id = false

theorem answered_iff_clean (s : Session) (inv : Inv s) : Answered s ↔ Clean s := by
  constructor
  · intro answered id call known cancelled
    rw [← Bool.not_eq_true]
    intro pending
    obtain ⟨other,found,running,_⟩ := (answered.pending id).mp pending
    rw [known] at found
    cases found
    rw [Call.running,cancelled] at running
    cases running
  · intro clean
    refine ⟨fun id call answer known => (inv.calls id call known).client answer,
      (List.nodup_append.mp inv.indices).2.1,?_⟩
    intro id
    constructor
    · intro pending
      cases known : s.calls id with
      | none => exact absurd ((inv.unknown id known).symm.trans pending) Bool.false_ne_true
      | some call =>
        have before := inv.calls id call known
        have running : call.running = true := by
          cases phase : call.phase with
          | spawned => exact absurd ((before.unregistered phase).symm.trans pending) Bool.false_ne_true
          | returned outcome => exact absurd ((before.removed outcome phase).symm.trans pending) Bool.false_ne_true
          | cancelled => exact absurd ((clean id call known phase).symm.trans pending) Bool.false_ne_true
          | _ => rw [Call.running,phase]
        exact ⟨call,rfl,running,(before.unanswered running).mp pending⟩
    · intro given
      obtain ⟨call,known,running,none⟩ := given
      exact ((inv.calls id call known).unanswered running).mpr none

/-- A step of one call that is not dropped leaves the dropped calls as they are. -/
theorem clean_set (s : Session) (id : String) (call : Call) (pending : Bool) (clean : Clean s)
    (goesOn : call.phase = .cancelled → pending = false) : Clean (s.set id call pending) := by
  intro other known found cancelled
  rw [set_calls] at found
  rw [set_pending]
  split_ifs at found ⊢ with same
  · cases found
    exact goesOn cancelled
  · exact clean other known found cancelled

theorem stepCall_clean (s : Session) (id : String) (call : Call) (i : Step) (clean : Clean s)
    (cancels : ∀ id, i ≠ .cancel id) : Clean (stepCall s id call i) := by
  have moves := stepCall_moves s id call i
  generalize stepCall s id call i = after at moves ⊢
  cases moves with
  | stays => exact clean
  | registers spawned => exact clean_set s id _ true clean (fun cancelled => Phase.noConfusion cancelled)
  | serialises registered => exact clean_set s id _ _ clean (fun cancelled => Phase.noConfusion cancelled)
  | sends sending => exact clean_set s id _ _ clean (fun cancelled => Phase.noConfusion cancelled)
  | receives since answer waiting filled =>
    exact clean_set s id _ _ clean (fun cancelled => Phase.noConfusion cancelled)
  | expires since waiting => exact clean_set s id _ _ clean (fun cancelled => Phase.noConfusion cancelled)
  | ends outcome noClient => exact clean_set s id _ false clean (fun _ => rfl)
  | drops other cancel => exact absurd cancel (cancels other)

theorem running_of_awaits (call : Call) (awaits : call.awaits = true) : call.running = true := by
  obtain ⟨called,registeredAt,phase,slot⟩ := call
  cases phase with
  | sending => rfl
  | waiting since => rfl
  | _ => cases awaits

theorem removed_iff (s : Session) (id : String) (call : Call) (inv : Inv s) (known : s.calls id = some call)
    (awaits : call.awaits = true) : s.pendingToolCalls id = false ↔ first s.received id call ≠ none := by
  have same := (inv.calls id call known).unanswered (running_of_awaits call awaits)
  rw [← Bool.not_eq_true]
  exact not_congr same

theorem dropped_clean_iff (s : Session) (id : String) (call : Call) (clean : Clean s) :
    Clean (s.set id { call with phase := .cancelled } (s.pendingToolCalls id)) ↔ s.pendingToolCalls id = false := by
  constructor
  · intro after
    have known : (s.set id { call with phase := .cancelled } (s.pendingToolCalls id)).calls id =
        some { call with phase := .cancelled } := by
      rw [set_calls,if_pos rfl]
    have found := after id { call with phase := .cancelled } known rfl
    rw [set_pending,if_pos rfl] at found
    exact found
  · intro absent
    exact clean_set s id _ _ clean (fun _ => absent)

theorem cancel_clean_iff (s : Session) (id : String) (inv : Inv s) (clean : Clean s) :
    Clean (step s (.cancel id)) ↔ CancelsAnswered s (.cancel id) := by
  change Clean (match s.calls id with | none => s | some call => stepCall s id call (.cancel id)) ↔ _
  unfold CancelsAnswered
  cases known : s.calls id with
  | none =>
    constructor
    · intro _ call found
      rw [known] at found
      cases found
    · exact fun _ => clean
  | some call =>
    have dropped := dropped_clean_iff s id call clean
    simp only [stepCall]
    constructor
    · intro after other found due awaits
      rw [known] at found
      cases found
      rw [if_pos due] at after
      apply (removed_iff s id call inv known awaits).mp
      unfold Call.awaits at awaits
      split at awaits
      · rename_i phase
        rw [phase] at after
        exact dropped.mp after
      · rename_i phase
        rw [phase] at after
        exact dropped.mp after
      · cases awaits
    · intro answered
      have gone : call.called + registryTimeoutMs ≤ s.now → call.awaits = true → s.pendingToolCalls id = false :=
        fun due awaits => (removed_iff s id call inv known awaits).mpr (answered call known due awaits)
      split_ifs with due
      · split
        · rename_i phase
          exact dropped.mpr ((inv.calls id call known).unregistered phase)
        · rename_i phase
          exact dropped.mpr (gone due (by rw [Call.awaits,phase]))
        · rename_i phase
          exact dropped.mpr (gone due (by rw [Call.awaits,phase]))
        · exact clean
      · exact clean

theorem deliver_clean (s : Session) (index : Nat) (clean : Clean s) : Clean (deliver s index) := by
  unfold deliver
  cases s.inFlight.find? (fun flight => flight.1 == index) with
  | none => exact clean
  | some flight =>
    simp only
    cases known : s.calls flight.2.toolCallId with
    | none => exact clean
    | some call =>
      simp only
      split_ifs with listens
      · have landed : Clean { s with inFlight := s.inFlight.filter (fun flight => flight.1 != index) } := clean
        apply clean_set _ flight.2.toolCallId { call with slot := some flight.2.answer } _ landed
        intro cancelled
        exact clean _ call known cancelled
      · exact clean

theorem toolResult_clean (s : Session) (params : ToolResultParams) (clean : Clean s) :
    Clean (handleToolResult s params) := by
  unfold handleToolResult
  simp only
  split_ifs
  · intro id call known cancelled
    simp only [Function.update_apply]
    split_ifs
    · rfl
    · exact clean id call known cancelled
  · exact clean

/-- No other step drops a call. -/
theorem step_clean (s : Session) (i : Step) (clean : Clean s) (cancels : ∀ id, i ≠ .cancel id) : Clean (step s i) := by
  cases aims : i.target with
  | some id => exact step_named Clean s i id aims clean (fun call _ => stepCall_clean s id call i clean cancels)
  | none =>
    cases i with
    | tick ms => exact clean
    | call id =>
      rw [step]
      cases s.calls id with
      | none => exact clean_set s id _ _ clean (fun cancelled => Phase.noConfusion cancelled)
      | some call => exact clean
    | toolResult params => exact toolResult_clean s params clean
    | deliver index => exact deliver_clean s index clean
    | drain => exact clean
    | other =>
      rw [step]
      split_ifs
      · exact clean
      · exact clean
    | close => exact clean
    | _ => cases aims

theorem step_clean_iff (s : Session) (i : Step) (inv : Inv s) (clean : Clean s) :
    Clean (step s i) ↔ CancelsAnswered s i := by
  by_cases cancels : ∃ id, i = .cancel id
  · obtain ⟨id,rfl⟩ := cancels
    exact cancel_clean_iff s id inv clean
  · have none : ∀ id, i ≠ .cancel id := fun id cancel => cancels ⟨id,cancel⟩
    have free : CancelsAnswered s i := by
      cases i with
      | cancel id => exact absurd rfl (none id)
      | _ => exact True.intro
    exact ⟨fun _ => free,fun _ => step_clean s i clean none⟩

theorem start_inv : Inv start := by
  refine ⟨?_,fun _ _ => rfl,?_,List.nodup_nil,?_⟩
  · intro id call known
    cases known
  · intro index params member
    cases member
  · intro index member
    cases member

theorem tool_calls_answered_iff (steps : List Step) :
    Always step Answered start steps ↔ Along step CancelsAnswered start steps := by
  apply always_iff_along step CancelsAnswered Answered Inv (fun _ => True)
  · exact fun s i inv _ => step_inv s i inv
  · intro s i inv _ answered
    rw [answered_iff_clean (step s i) (step_inv s i inv)]
    exact step_clean_iff s i inv ((answered_iff_clean s inv).mp answered)
  · exact fun _ _ => True.intro
  · exact start_inv
  · apply (answered_iff_clean start start_inv).mpr
    intro id call known
    cases known

section Timers

/-- By how much the registry waits longer than the bridge. -/
def graceMs : Nat := registryTimeoutMs - bridgeTimeoutMs

/-- The call gets its notification sent within the grace, and its own timer does not pass
unnoticed. -/
def Call.inTime (call : Call) (now : Nat) : Prop :=
  match call.phase with
  | .spawned => now < call.called + graceMs
  | .registered => now < call.called + graceMs
  | .sending => now < call.called + graceMs
  | .waiting since => call.slot = none → now ≤ since + bridgeTimeoutMs
  | _ => True

def Prompt (s : Session) : Step → Prop
  | .tick ms => ∀ id call, s.calls id = some call → call.inTime (s.now + ms)
  | _ => True

def Call.sentInTime (call : Call) : Prop :=
  ∀ since, call.phase = .waiting since → since < call.called + graceMs

def Timely (s : Session) : Prop :=
  ∀ id call, s.calls id = some call → call.inTime s.now ∧ call.sentInTime

theorem timely_set (s : Session) (id : String) (call : Call) (pending : Bool) (timely : Timely s)
    (own : call.inTime s.now ∧ call.sentInTime) : Timely (s.set id call pending) := by
  intro other known found
  rw [set_calls] at found
  split_ifs at found
  · cases found
    exact own
  · exact timely other known found

/-- A call that has stopped waiting has no time to keep. -/
theorem ended_timely (s : Session) (id : String) (call : Call) (phase : Phase) (pending : Bool) (timely : Timely s)
    (ended : { call with phase := phase }.listens = false) (late : phase ≠ .spawned) :
    Timely (s.set id { call with phase := phase } pending) := by
  apply timely_set s id _ pending timely
  cases phase with
  | spawned => exact absurd rfl late
  | registered => cases ended
  | sending => cases ended
  | waiting since => cases ended
  | expired => exact ⟨True.intro,fun _ waits => Phase.noConfusion waits⟩
  | returned outcome => exact ⟨True.intro,fun _ waits => Phase.noConfusion waits⟩
  | cancelled => exact ⟨True.intro,fun _ waits => Phase.noConfusion waits⟩

theorem stepCall_timely (s : Session) (id : String) (call : Call) (i : Step) (timely : Timely s)
    (known : s.calls id = some call) : Timely (stepCall s id call i) := by
  have before := (timely id call known).1
  have moves := stepCall_moves s id call i
  generalize stepCall s id call i = after at moves ⊢
  cases moves with
  | stays => exact timely
  | registers spawned =>
    rw [Call.inTime,spawned] at before
    exact timely_set s id _ true timely ⟨before,fun _ waits => Phase.noConfusion waits⟩
  | serialises registered =>
    rw [Call.inTime,registered] at before
    exact timely_set s id _ _ timely ⟨before,fun _ waits => Phase.noConfusion waits⟩
  | sends sending =>
    rw [Call.inTime,sending] at before
    apply timely_set s id { call with phase := .waiting s.now } (s.pendingToolCalls id) timely
    refine ⟨fun _ => Nat.le_add_right _ _,?_⟩
    intro since waits
    cases waits
    exact before
  | receives since answer waiting filled => exact ended_timely s id call _ _ timely rfl Phase.noConfusion
  | expires since waiting => exact ended_timely s id call _ _ timely rfl Phase.noConfusion
  | ends outcome noClient => exact ended_timely s id call _ _ timely rfl Phase.noConfusion
  | drops other cancels => exact ended_timely s id call _ _ timely rfl Phase.noConfusion

theorem deliver_timely (s : Session) (index : Nat) (timely : Timely s) : Timely (deliver s index) := by
  unfold deliver
  cases s.inFlight.find? (fun flight => flight.1 == index) with
  | none => exact timely
  | some flight =>
    simp only
    cases known : s.calls flight.2.toolCallId with
    | none => exact timely
    | some call =>
      simp only
      split_ifs
      · have landed : Timely { s with inFlight := s.inFlight.filter (fun flight => flight.1 != index) } := timely
        obtain ⟨before,sent⟩ := timely _ call known
        apply timely_set _ flight.2.toolCallId { call with slot := some flight.2.answer }
          (s.pendingToolCalls flight.2.toolCallId) landed
        refine ⟨?_,sent⟩
        unfold Call.inTime at before ⊢
        cases phase : call.phase with
        | waiting since =>
          intro empty
          cases empty
        | _ =>
          rw [phase] at before
          exact before
      · exact timely

theorem step_timely (s : Session) (i : Step) (timely : Timely s) (prompt : Prompt s i) : Timely (step s i) := by
  cases aims : i.target with
  | some id => exact step_named Timely s i id aims timely (fun call known => stepCall_timely s id call i timely known)
  | none =>
    cases i with
    | tick ms => exact fun id call known => ⟨prompt id call known,(timely id call known).2⟩
    | call id =>
      rw [step]
      cases s.calls id with
      | none =>
        have soon : s.now < s.now + graceMs := Nat.lt_add_of_pos_right (by decide)
        exact timely_set s id _ _ timely ⟨soon,fun _ waits => Phase.noConfusion waits⟩
      | some call => exact timely
    | toolResult params =>
      rw [step,handleToolResult]
      simp only
      split_ifs
      · exact timely
      · exact timely
    | deliver index => exact deliver_timely s index timely
    | drain => exact timely
    | other =>
      rw [step]
      split_ifs
      · exact timely
      · exact timely
    | close => exact timely
    | _ => cases aims

/-- When the registry's timeout is due, the bridge's own one has been so before. -/
theorem timely_cancels (s : Session) (i : Step) (inv : Inv s) (timely : Timely s) : CancelsAnswered s i := by
  cases i with
  | cancel id =>
    intro call known due awaits
    obtain ⟨inTime,sent⟩ := timely id call known
    have longer : bridgeTimeoutMs + graceMs = registryTimeoutMs := by decide
    cases phase : call.phase with
    | sending =>
      rw [Call.inTime,phase] at inTime
      have early : s.now < call.called + graceMs := inTime
      omega
    | waiting since =>
      rw [Call.inTime,phase] at inTime
      have begun := sent since phase
      have listens : call.listens = true := by rw [Call.listens,phase]
      cases slot : call.slot with
      | none =>
        have early : s.now ≤ since + bridgeTimeoutMs := inTime slot
        omega
      | some answer =>
        rw [(inv.calls id call known).slot answer listens slot]
        exact Option.some_ne_none answer
    | _ =>
      rw [Call.awaits,phase] at awaits
      cases awaits
  | _ => exact True.intro

/-- Where no notification waits longer for room than the grace and no timer is missed, the
registry's timeout leaves nothing behind. -/
theorem prompt_calls_answered (steps : List Step) (prompt : Along step Prompt start steps) :
    Always step Answered start steps := by
  have kept : ∀ s i, Inv s ∧ Timely s ∧ Clean s → Prompt s i →
      Inv (step s i) ∧ Timely (step s i) ∧ Clean (step s i) := by
    intro s i both now
    obtain ⟨inv,timely,clean⟩ := both
    exact ⟨step_inv s i inv,step_timely s i timely now,
      (step_clean_iff s i inv clean).mpr (timely_cancels s i inv timely)⟩
  have timely : Timely start := by
    intro id call known
    cases known
  have clean : Clean start := by
    intro id call known
    cases known
  have always := always_of_along step Prompt (fun s => Inv s ∧ Timely s ∧ Clean s) kept start steps
    ⟨start_inv,timely,clean⟩ prompt
  exact always_mono step _ Answered (fun s both => (answered_iff_clean s both.1).mpr both.2.2) start steps always

end Timers

/-- The client does not read: the call finds the notify channel full, and the registry's
timeout drops it there with its id in the map. -/
def unread : List Step :=
  List.replicate notifyCapacity .other ++
    [.call "a",.register "a",.serialise "a" none,.send "a",.tick registryTimeoutMs,.cancel "a"]

theorem full_channel_leaves_entry :
    (run step start unread).pendingToolCalls "a" = true ∧
      ((run step start unread).calls "a").map Call.running = some false ∧
      ¬Answered (run step start unread) := by
  have pending : (run step start unread).pendingToolCalls "a" = true := by decide +kernel
  have stopped : ((run step start unread).calls "a").map Call.running = some false := by decide +kernel
  refine ⟨pending,stopped,?_⟩
  intro answered
  obtain ⟨call,known,running,_⟩ := (answered.pending "a").mp pending
  rw [known,Option.map_some,running] at stopped
  cases stopped

end ClawKernel.Server.ToolBridge
