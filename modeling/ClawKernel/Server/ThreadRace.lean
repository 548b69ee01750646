import ClawKernel.Lib.Interleaving
import ClawKernel.Server.Agents
import ClawKernel.Server.Channels

/-! `get_or_create_inbound_session` from several connections: every access to the thread map or
to the session map is a step, and sessions are removed in between.
-/
namespace ClawKernel.Server.ThreadRace
open Lib.Runs Lib.Tables Lib.Interleaving Server.Protocol Server.Sessions Server.Channels

inductive Request where
  | getOrCreate (threadId : Option String)
  | remove (id : String)
  deriving DecidableEq, Repr

/-- Where a call stands, with the access it makes next. -/
inductive Phase where
  | looking (tid : String)
  | fetching (tid id : String)
  | testing (threadId : Option String)
  | inserting (threadId : Option String) (id : String)
  | remembering (tid id : String)
  | returned (threadId : Option String) (result : Except ServerError Session)
  | removing (id : String)
  | removed (found : Bool)

def entered : Request → Phase
  | .getOrCreate none => .testing none
  | .getOrCreate (some tid) => .looking tid
  | .remove id => .removing id

/-- Which session a call is bound to, in which thread. -/
def Phase.known : Phase → Option (String × String)
  | .fetching tid id => some (tid,id)
  | .returned (some tid) (.ok session) => some (tid,session.id)
  | _ => none

/-- The id of a session that no one else has heard of. -/
def Phase.fresh : Phase → Option String
  | .inserting _ id => some id
  | .remembering _ id => some id
  | _ => none

section Accesses
variable (uuid : Nat → String)

def access (s : Hub) : Phase → Hub × Phase
  | .looking tid =>
    match s.registry.getThreadSession tid with
    | none => (s,.testing (some tid))
    | some id => (s,.fetching tid id)
  | .fetching tid id =>
    match s.manager.get id with
    | none => (s,.testing (some tid))
    | some session => (s,.returned (some tid) (.ok session))
  | .testing threadId =>
    ({ s with drawn := s.drawn + 1 },
      if s.manager.maxSessions ≤ s.manager.count then
        .returned threadId (.error (.maxSessionsReached s.manager.maxSessions))
      else .inserting threadId (uuid s.drawn))
  | .inserting threadId id =>
    ({ s with manager := s.manager.insertSession (.newWithPending id) },
      match threadId with
      | none => .returned none (.ok (.newWithPending id))
      | some tid => .remembering tid id)
  | .remembering tid id =>
    ({ s with registry := s.registry.setThreadSession tid id },.returned (some tid) (.ok (.newWithPending id)))
  | .returned threadId result => (s,.returned threadId result)
  | .removing id => ({ s with manager := (s.manager.remove id).1 },.removed (s.manager.remove id).2)
  | .removed found => (s,.removed found)

abbrev ThreadSystem := System Hub Phase

def act : ThreadSystem → Action Request → ThreadSystem := step entered (access uuid)

def opening (maxSessions : Nat) : ThreadSystem := start (.new maxSessions)

end Accesses

def Live (s : ThreadSystem) (id : String) : Prop := (s.shared.manager.get id).isSome

def Named (s : ThreadSystem) (tid id : String) : Prop := s.shared.registry.threadSessions.lookup tid = some id

/-- The call has returned a session for the thread. -/
def Answered (s : ThreadSystem) (n : ℕ) (tid id : String) : Prop :=
  ∃ session, s.calls.lookup n = some (.returned (some tid) (.ok session)) ∧ session.id = id

/-- No session of a thread is left alive that the thread does not name. -/
def Reachable (s : ThreadSystem) : Prop := ∀ n tid id, Answered s n tid id → Live s id → Named s tid id

/-- The call has a session for the thread, which it has returned or is still to remember. -/
def Held (s : ThreadSystem) (n : ℕ) (tid id : String) : Prop :=
  Answered s n tid id ∨ s.calls.lookup n = some (.remembering tid id)

def OfThread (s : ThreadSystem) (tid id : String) : Prop := ∃ n, Held s n tid id

/-- The action removes no session of the thread. -/
def Spares (tid : String) (s : ThreadSystem) : Action Request → Prop
  | .enter _ _ => True
  | .advance n => ∀ id, s.calls.lookup n = some (.removing id) → ¬OfThread s tid id

/-- A thread is given a session only while the one it named before is not alive. -/
def Vacant (s : ThreadSystem) : Action Request → Prop
  | .enter _ _ => True
  | .advance n => ∀ tid id, s.calls.lookup n = some (.remembering tid id) → ∀ other, Named s tid other → ¬Live s other

/-- Two calls for one thread that come and return while no session of it is removed
return the same session. -/
def SameSession (uuid : Nat → String) (s : ThreadSystem) (actions : List (Action Request)) : Prop :=
  ∀ before during after, actions = before ++ during ++ after →
    ∀ first second tid one other,
      (run (act uuid) s before).calls.lookup first = none → (run (act uuid) s before).calls.lookup second = none →
      Along (act uuid) (Spares tid) (run (act uuid) s before) during →
      Answered (run (act uuid) s (before ++ during)) first tid one →
      Answered (run (act uuid) s (before ++ during)) second tid other → one = other

section Accesses
variable (uuid : Nat → String)

theorem returned_stays (s : Hub) (threadId : Option String) (result : Except ServerError Session) (more : ℕ) :
    (fun each : Hub × Phase => access uuid each.1 each.2)^[more] (s,.returned threadId result) =
      (s,.returned threadId result) :=
  Function.iterate_fixed rfl more

/-- Uninterrupted, a call whose thread has no session to reuse opens one. -/
theorem accesses_testing (s : Hub) (threadId : Option String) (missing : reusable s threadId = none) (more : ℕ) :
    (fun each : Hub × Phase => access uuid each.1 each.2)^[more + 3] (s,.testing threadId) =
      ((getOrCreateInboundSession uuid s threadId).1,
        .returned threadId (getOrCreateInboundSession uuid s threadId).2) := by
  by_cases full : s.manager.maxSessions ≤ s.manager.count
  · have tests : access uuid s (.testing threadId) =
        ({ s with drawn := s.drawn + 1 },.returned threadId (.error (.maxSessionsReached s.manager.maxSessions))) :=
      congrArg _ (if_pos full)
    rw [Function.iterate_succ_apply,tests,returned_stays,getOrCreate_full uuid s threadId missing full]
  · have tests : access uuid s (.testing threadId) =
        ({ s with drawn := s.drawn + 1 },.inserting threadId (uuid s.drawn)) :=
      congrArg _ (if_neg full)
    rw [Function.iterate_succ_apply,tests,getOrCreate_open uuid s threadId missing (Nat.not_le.mp full)]
    cases threadId with
    | none => exact returned_stays uuid _ _ _ (more + 1)
    | some tid => exact returned_stays uuid _ _ _ more

/-- Uninterrupted, the accesses of a call are the call. -/
theorem accesses_eq_getOrCreate (s : Hub) (threadId : Option String) :
    (fun each : Hub × Phase => access uuid each.1 each.2)^[5] (s,entered (.getOrCreate threadId)) =
      ((getOrCreateInboundSession uuid s threadId).1,
        .returned threadId (getOrCreateInboundSession uuid s threadId).2) := by
  cases threadId with
  | none => exact accesses_testing uuid s none rfl 2
  | some tid =>
    rw [Function.iterate_succ_apply]
    cases registered : s.registry.getThreadSession tid with
    | none =>
      have missing : reusable s (some tid) = none := by rw [reusable,Option.bind_some,registered,Option.bind_none]
      have looks : access uuid s (entered (.getOrCreate (some tid))) = (s,.testing (some tid)) := by
        rw [entered,access,registered]
      rw [looks]
      exact accesses_testing uuid s (some tid) missing 1
    | some id =>
      have looks : access uuid s (entered (.getOrCreate (some tid))) = (s,.fetching tid id) := by
        rw [entered,access,registered]
      have again : reusable s (some tid) = s.manager.get id := by
        rw [reusable,Option.bind_some,registered,Option.bind_some]
      rw [looks,Function.iterate_succ_apply]
      cases live : s.manager.get id with
      | none =>
        have fetches : access uuid s (.fetching tid id) = (s,.testing (some tid)) := by rw [access,live]
        rw [fetches]
        exact accesses_testing uuid s (some tid) (again.trans live) 0
      | some session =>
        have fetches : access uuid s (.fetching tid id) = (s,.returned (some tid) (.ok session)) := by rw [access,live]
        rw [fetches,returned_stays,getOrCreate_reuse uuid s (some tid) session (again.trans live)]

/-- What one access finds and brings about. -/
inductive Access (s : Hub) : Phase → Hub → Phase → Prop where
  | unnamed (tid : String) : Access s (.looking tid) s (.testing (some tid))
  | named (tid id : String) (found : s.registry.threadSessions.lookup tid = some id) :
    Access s (.looking tid) s (.fetching tid id)
  | gone (tid id : String) : Access s (.fetching tid id) s (.testing (some tid))
  | live (tid id : String) (session : Session) (found : s.manager.get id = some session) :
    Access s (.fetching tid id) s (.returned (some tid) (.ok session))
  | full (threadId : Option String) (error : ServerError) :
    Access s (.testing threadId) { s with drawn := s.drawn + 1 } (.returned threadId (.error error))
  | drawn (threadId : Option String) :
    Access s (.testing threadId) { s with drawn := s.drawn + 1 } (.inserting threadId (uuid s.drawn))
  | single (id : String) :
    Access s (.inserting none id) { s with manager := s.manager.insertSession (.newWithPending id) }
      (.returned none (.ok (.newWithPending id)))
  | inserted (tid id : String) :
    Access s (.inserting (some tid) id) { s with manager := s.manager.insertSession (.newWithPending id) }
      (.remembering tid id)
  | remembered (tid id : String) :
    Access s (.remembering tid id) { s with registry := s.registry.setThreadSession tid id }
      (.returned (some tid) (.ok (.newWithPending id)))
  | returned (threadId : Option String) (result : Except ServerError Session) :
    Access s (.returned threadId result) s (.returned threadId result)
  | removing (id : String) (found : Bool) :
    Access s (.removing id) { s with manager := (s.manager.remove id).1 } (.removed found)
  | removed (found : Bool) : Access s (.removed found) s (.removed found)

theorem access_cases (s : Hub) (phase : Phase) :
    Access uuid s phase (access uuid s phase).1 (access uuid s phase).2 := by
  cases phase with
  | looking tid =>
    rw [access]
    cases found : s.registry.getThreadSession tid with
    | none => exact .unnamed tid
    | some id => exact .named tid id found
  | fetching tid id =>
    rw [access]
    cases found : s.manager.get id with
    | none => exact .gone tid id
    | some session => exact .live tid id session found
  | testing threadId =>
    rw [access]
    dsimp only
    split
    · exact .full threadId _
    · exact .drawn threadId
  | inserting threadId id =>
    cases threadId with
    | none => exact .single id
    | some tid => exact .inserted tid id
  | remembering tid id => exact .remembered tid id
  | returned threadId result => exact .returned threadId result
  | removing id => exact .removing id _
  | removed found => exact .removed found

section Outcome
variable (s after : Hub) (phase next : Phase) (outcome : Access uuid s phase after next)
include outcome

theorem drawn_le : s.drawn ≤ after.drawn := by
  cases outcome with
  | full threadId error => exact Nat.le_succ _
  | drawn threadId => exact Nat.le_succ _
  | _ => exact Nat.le_refl _

theorem outcome_fresh (id : String) (fresh : next.fresh = some id) :
    phase.fresh = some id ∨ after.drawn = s.drawn + 1 ∧ id = uuid s.drawn := by
  cases outcome with
  | drawn threadId => exact Or.inr ⟨rfl,(Option.some_inj.mp fresh).symm⟩
  | inserted tid held => exact Or.inl fresh
  | returned threadId result => exact Or.inl fresh
  | _ => cases fresh

/-- Whatever session a call is bound to after an access, it was bound to before, or the
thread named it, or the thread has just been given it. -/
theorem outcome_known (own : ∀ id session, s.manager.get id = some session → session.id = id) (tid id : String)
    (known : next.known = some (tid,id)) :
    phase.known = some (tid,id) ∨ s.registry.threadSessions.lookup tid = some id ∨ phase = .remembering tid id := by
  cases outcome with
  | named thread held found =>
    cases known
    exact Or.inr (Or.inl found)
  | live thread held session found =>
    have same := own held session found
    cases known
    exact Or.inl (congrArg (fun each => some (tid,each)) same.symm)
  | remembered thread held =>
    cases known
    exact Or.inr (Or.inr rfl)
  | returned threadId result => exact Or.inl known
  | full threadId error =>
    rcases threadId with _ | thread
    · cases known
    · cases known
  | _ => cases known

theorem outcome_named (tid id : String) (named : after.registry.threadSessions.lookup tid = some id) :
    s.registry.threadSessions.lookup tid = some id ∨ phase = .remembering tid id := by
  cases outcome with
  | remembered thread held =>
    change (s.registry.threadSessions.insert thread held).lookup tid = some id at named
    rcases lookup_of_insert s.registry.threadSessions thread tid held id named with ⟨rfl,rfl⟩ | ⟨_,before⟩
    · exact Or.inr rfl
    · exact Or.inl before
  | _ => exact Or.inl named

theorem outcome_keeps (tid id : String) (named : s.registry.threadSessions.lookup tid = some id)
    (spared : ∀ other, phase ≠ .remembering tid other) : after.registry.threadSessions.lookup tid = some id := by
  cases outcome with
  | remembered thread held =>
    change (s.registry.threadSessions.insert thread held).lookup tid = some id
    rw [lookup_insert_if,if_neg]
    · exact named
    · intro same
      rw [same] at spared
      exact spared held rfl
  | _ => exact named

theorem outcome_get (id : String) (session : Session) (live : after.manager.get id = some session) :
    s.manager.get id = some session ∨ phase.fresh = some id ∧ session.id = id := by
  have inserted (held : String) (live : (s.manager.insertSession (.newWithPending held)).get id = some session) :
      s.manager.get id = some session ∨ some held = some id ∧ session.id = id := by
    rcases get_insertSession_cases s.manager (.newWithPending held) session id live with old | ⟨rfl,rfl⟩
    · exact Or.inl old
    · exact Or.inr ⟨rfl,rfl⟩
  cases outcome with
  | single held => exact inserted held live
  | inserted thread held => exact inserted held live
  | removing removed found =>
    change (s.manager.remove removed).1.get id = some session at live
    rw [get_remove] at live
    split at live
    · cases live
    · exact Or.inl live
  | _ => exact Or.inl live

/-- Only its removal ends a session. -/
theorem outcome_live (id : String) (spared : phase ≠ .removing id) (live : (s.manager.get id).isSome) :
    (after.manager.get id).isSome := by
  have inserted (held : String) : ((s.manager.insertSession (.newWithPending held)).get id).isSome := by
    rw [get_insertSession]
    split
    · rfl
    · exact live
  cases outcome with
  | single held => exact inserted held
  | inserted thread held => exact inserted held
  | removing removed found =>
    change ((s.manager.remove removed).1.get id).isSome
    rw [get_remove,if_neg]
    · exact live
    · intro same
      exact spared (congrArg Phase.removing same.symm)
  | _ => exact live

/-- A call that is to remember a session, or has returned one, knows it to be alive unless it
already stood there. -/
theorem outcome_held (own : ∀ id session, s.manager.get id = some session → session.id = id) (tid id : String)
    (held : next = .remembering tid id ∨ ∃ session, next = .returned (some tid) (.ok session) ∧ session.id = id) :
    (after.manager.get id).isSome ∨ phase = .remembering tid id ∨
      ∃ session, phase = .returned (some tid) (.ok session) ∧ session.id = id := by
  rcases held with next | ⟨session,next,same⟩
  · cases outcome with
    | inserted thread fresh =>
      cases next
      left
      change ((s.manager.insertSession (.newWithPending id)).get id).isSome
      rw [get_insertSession]
      exact Option.isSome_of_eq_some (if_pos rfl)
    | _ => cases next
  · cases outcome with
    | live thread found session here =>
      cases next
      left
      rw [← same,own found session here,here]
      rfl
    | remembered thread fresh =>
      cases next
      rw [← same]
      exact Or.inr (Or.inl rfl)
    | returned threadId result => exact Or.inr (Or.inr ⟨session,next,same⟩)
    | _ => cases next

end Outcome

theorem entered_unbound (request : Request) : (entered request).fresh = none ∧ (entered request).known = none := by
  rcases request with (_ | tid) | id
  · exact ⟨rfl,rfl⟩
  · exact ⟨rfl,rfl⟩
  · exact ⟨rfl,rfl⟩

theorem shared_cases (s : ThreadSystem) (action : Action Request) :
    (act uuid s action).shared = s.shared ∨
      ∃ n phase, action = .advance n ∧ s.calls.lookup n = some phase ∧
        (act uuid s action).shared = (access uuid s.shared phase).1 := by
  cases action with
  | enter n request => exact Or.inl (shared_enter entered (access uuid) s n request)
  | advance n =>
    cases found : s.calls.lookup n with
    | none => exact Or.inl (congrArg System.shared (step_idle entered (access uuid) s n found))
    | some phase =>
      exact Or.inr ⟨n,phase,rfl,found,congrArg System.shared (step_advance entered (access uuid) s n phase found)⟩

theorem lookup_advance (s : ThreadSystem) (n : ℕ) (phase : Phase) (found : s.calls.lookup n = some phase) :
    (act uuid s (.advance n)).calls.lookup n = some (access uuid s.shared phase).2 := by
  rw [act,step_advance entered (access uuid) s n phase found]
  exact AList.lookup_insert s.calls

theorem answered_kept (s : ThreadSystem) (action : Action Request) (n : ℕ) (tid id : String)
    (answered : Answered s n tid id) : Answered (act uuid s action) n tid id := by
  obtain ⟨session,found,same⟩ := answered
  refine ⟨session,?_,same⟩
  cases action with
  | enter m request =>
    rw [act,Lib.Interleaving.step]
    split
    · exact found
    · rename_i unknown
      change (s.calls.insert m (entered request)).lookup n = _
      rw [lookup_insert_if,if_neg]
      · exact found
      · intro own
        rw [← own] at unknown
        exact unknown (AList.lookup_isSome.mp (Option.isSome_of_eq_some found))
  | advance m =>
    by_cases own : n = m
    · rw [← own]
      exact lookup_advance uuid s n _ found
    · cases present : s.calls.lookup m with
      | none =>
        rw [act,step_idle entered (access uuid) s m present]
        exact found
      | some phase =>
        rw [act,step_advance entered (access uuid) s m phase present]
        change (s.calls.insert m _).lookup n = _
        rw [lookup_insert_if,if_neg own]
        exact found

theorem drawn_step (s : ThreadSystem) (action : Action Request) : s.shared.drawn ≤ (act uuid s action).shared.drawn :=
  step_shared entered (access uuid) (fun hub => s.shared.drawn ≤ hub.drawn)
    (fun hub phase before => Nat.le_trans before (drawn_le uuid hub _ phase _ (access_cases uuid hub phase)))
    s action (Nat.le_refl _)

theorem get_step (s : ThreadSystem) (action : Action Request) (id : String) (session : Session)
    (live : (act uuid s action).shared.manager.get id = some session) :
    s.shared.manager.get id = some session ∨
      session.id = id ∧ ∃ n phase, action = .advance n ∧ s.calls.lookup n = some phase ∧ phase.fresh = some id := by
  rcases shared_cases uuid s action with same | ⟨n,phase,advances,found,same⟩
  · rw [same] at live
    exact Or.inl live
  · rw [same] at live
    have outcome := outcome_get uuid s.shared _ phase _ (access_cases uuid s.shared phase) id session live
    exact outcome.imp (fun before => before) (fun ⟨fresh,own⟩ => ⟨own,n,phase,advances,found,fresh⟩)

theorem named_step (s : ThreadSystem) (action : Action Request) (tid id : String)
    (named : Named (act uuid s action) tid id) :
    Named s tid id ∨ ∃ n, action = .advance n ∧ s.calls.lookup n = some (.remembering tid id) := by
  unfold Named at named
  rcases shared_cases uuid s action with same | ⟨n,phase,advances,found,same⟩
  · rw [same] at named
    exact Or.inl named
  · rw [same] at named
    rcases outcome_named uuid s.shared _ phase _ (access_cases uuid s.shared phase) tid id named with before | given
    · exact Or.inl before
    · rw [given] at found
      exact Or.inr ⟨n,advances,found⟩

theorem live_step (s : ThreadSystem) (action : Action Request) (id : String) (live : Live s id)
    (spared : ∀ n, action = .advance n → s.calls.lookup n ≠ some (.removing id)) : Live (act uuid s action) id := by
  unfold Live
  rcases shared_cases uuid s action with same | ⟨n,phase,advances,found,same⟩
  · rw [same]
    exact live
  · rw [same]
    apply outcome_live uuid s.shared _ phase _ (access_cases uuid s.shared phase) id _ live
    intro removing
    rw [removing] at found
    exact spared n advances found

theorem fresh_step (s : ThreadSystem) (action : Action Request) (n : ℕ) (phase : Phase) (id : String)
    (found : (act uuid s action).calls.lookup n = some phase) (fresh : phase.fresh = some id) :
    (∃ earlier, s.calls.lookup n = some earlier ∧ earlier.fresh = some id) ∨
      action = .advance n ∧ (act uuid s action).shared.drawn = s.shared.drawn + 1 ∧ id = uuid s.shared.drawn := by
  rcases lookup_step entered (access uuid) s action n phase found with
    same | ⟨request,_,_,enters⟩ | ⟨earlier,advances,present,next⟩
  · exact Or.inl ⟨phase,same,fresh⟩
  · rw [enters,(entered_unbound request).1] at fresh
    cases fresh
  · rw [next] at fresh
    rcases outcome_fresh uuid s.shared _ earlier _ (access_cases uuid s.shared earlier) id fresh with
      before | ⟨drawn,new⟩
    · exact Or.inl ⟨earlier,present,before⟩
    · refine Or.inr ⟨advances,?_,new⟩
      rw [advances,act,step_advance entered (access uuid) s n earlier present]
      exact drawn

theorem known_step (s : ThreadSystem) (own : ∀ id session, s.shared.manager.get id = some session → session.id = id)
    (action : Action Request) (n : ℕ) (phase : Phase) (tid id : String)
    (found : (act uuid s action).calls.lookup n = some phase) (known : phase.known = some (tid,id)) :
    (∃ earlier, s.calls.lookup n = some earlier ∧ earlier.known = some (tid,id)) ∨ Named s tid id ∨
      action = .advance n ∧ s.calls.lookup n = some (.remembering tid id) := by
  rcases lookup_step entered (access uuid) s action n phase found with
    same | ⟨request,_,_,enters⟩ | ⟨earlier,advances,present,next⟩
  · exact Or.inl ⟨phase,same,known⟩
  · rw [enters,(entered_unbound request).2] at known
    cases known
  · rw [next] at known
    rcases outcome_known uuid s.shared _ earlier _ (access_cases uuid s.shared earlier) own tid id known with
      before | named | given
    · exact Or.inl ⟨earlier,present,before⟩
    · exact Or.inr (Or.inl named)
    · rw [given] at present
      exact Or.inr (Or.inr ⟨advances,present⟩)

def Used (s : ThreadSystem) (id : String) : Prop := ∃ k < s.shared.drawn, id = uuid k

/-- A thread names the session, or a call is bound to it. -/
def Settled (s : ThreadSystem) (id : String) : Prop :=
  ∃ tid, Named s tid id ∨ ∃ n phase, s.calls.lookup n = some phase ∧ phase.known = some (tid,id)

/-- A fresh session is that of one call, and no thread or other call knows it yet. -/
structure Orderly (s : ThreadSystem) : Prop where
  own : ∀ id session, s.shared.manager.get id = some session → session.id = id
  settled : ∀ id, Settled s id → Used uuid s id ∧ ∀ n phase, s.calls.lookup n = some phase → phase.fresh ≠ some id
  fresh : ∀ n phase id, s.calls.lookup n = some phase → phase.fresh = some id →
    Used uuid s id ∧ ∀ m other, s.calls.lookup m = some other → other.fresh = some id → m = n
  answered : ∀ tid id, Named s tid id → ∃ n, Answered s n tid id

/-- A live session that a call is bound to is the one its thread names. -/
def Bound (s : ThreadSystem) : Prop :=
  ∀ n phase tid id, s.calls.lookup n = some phase → phase.known = some (tid,id) → Live s id → Named s tid id

theorem used_step (s : ThreadSystem) (action : Action Request) (id : String) (used : Used uuid s id) :
    Used uuid (act uuid s action) id := by
  obtain ⟨k,below,same⟩ := used
  exact ⟨k,Nat.lt_of_lt_of_le below (drawn_step uuid s action),same⟩

theorem settled_step (s : ThreadSystem) (orderly : Orderly uuid s) (action : Action Request) (id : String)
    (settled : Settled (act uuid s action) id) :
    Settled s id ∨ ∃ n tid, action = .advance n ∧ s.calls.lookup n = some (.remembering tid id) := by
  rcases settled with ⟨tid,named | ⟨n,phase,found,known⟩⟩
  · rcases named_step uuid s action tid id named with before | ⟨n,advances,given⟩
    · exact Or.inl ⟨tid,Or.inl before⟩
    · exact Or.inr ⟨n,tid,advances,given⟩
  · rcases known_step uuid s orderly.own action n phase tid id found known with
      ⟨earlier,present,before⟩ | named | ⟨advances,given⟩
    · exact Or.inl ⟨tid,Or.inr ⟨n,earlier,present,before⟩⟩
    · exact Or.inl ⟨tid,Or.inl named⟩
    · exact Or.inr ⟨n,tid,advances,given⟩

theorem named_known (s : ThreadSystem) (n : ℕ) (tid id : String) (answered : Answered s n tid id) :
    ∃ phase, s.calls.lookup n = some phase ∧ phase.known = some (tid,id) := by
  obtain ⟨session,found,same⟩ := answered
  exact ⟨_,found,congrArg (fun each => some (tid,each)) same⟩

theorem named_remembered (s : ThreadSystem) (n : ℕ) (tid id : String)
    (given : s.calls.lookup n = some (.remembering tid id)) :
    Named (act uuid s (.advance n)) tid id ∧ Answered (act uuid s (.advance n)) n tid id ∧
      (act uuid s (.advance n)).shared.manager = s.shared.manager := by
  have shared := congrArg System.shared (step_advance entered (access uuid) s n _ given)
  refine ⟨?_,⟨_,lookup_advance uuid s n _ given,rfl⟩,?_⟩
  · unfold Named
    rw [act,shared]
    exact AList.lookup_insert s.shared.registry.threadSessions
  · rw [act,shared]
    rfl

section Fresh
variable (injective : Function.Injective uuid)
include injective

theorem orderly_step (s : ThreadSystem) (orderly : Orderly uuid s) (action : Action Request) :
    Orderly uuid (act uuid s action) where
  own := by
    intro id session live
    rcases get_step uuid s action id session live with before | ⟨same,_⟩
    · exact orderly.own id session before
    · exact same
  settled := by
    intro id settled
    rcases settled_step uuid s orderly action id settled with before | ⟨n,tid,advances,given⟩
    · obtain ⟨used,unborn⟩ := orderly.settled id before
      refine ⟨used_step uuid s action id used,?_⟩
      intro m phase found fresh
      rcases fresh_step uuid s action m phase id found fresh with ⟨earlier,present,held⟩ | ⟨_,_,new⟩
      · exact unborn m earlier present held
      · exact drawn_ne_next uuid injective s.shared.drawn id used new
    · obtain ⟨used,alone⟩ := orderly.fresh n _ id given rfl
      refine ⟨used_step uuid s action id used,?_⟩
      intro m phase found fresh
      rcases fresh_step uuid s action m phase id found fresh with ⟨earlier,present,held⟩ | ⟨_,_,new⟩
      · -- the call that had the fresh session has just returned it
        rw [alone m earlier present held,advances,lookup_advance uuid s n _ given] at found
        cases found
        cases fresh
      · exact drawn_ne_next uuid injective s.shared.drawn id used new
  fresh := by
    intro n phase id found fresh
    rcases fresh_step uuid s action n phase id found fresh with ⟨earlier,present,held⟩ | ⟨advances,drawn,new⟩
    · obtain ⟨used,alone⟩ := orderly.fresh n earlier id present held
      refine ⟨used_step uuid s action id used,?_⟩
      intro m other there too
      rcases fresh_step uuid s action m other id there too with ⟨before,stood,holds⟩ | ⟨_,_,next⟩
      · exact alone m before stood holds
      · exact absurd next (drawn_ne_next uuid injective s.shared.drawn id used)
    · refine ⟨⟨s.shared.drawn,Nat.lt_of_lt_of_eq (Nat.lt_succ_self _) drawn.symm,new⟩,?_⟩
      intro m other there too
      rcases fresh_step uuid s action m other id there too with ⟨before,stood,holds⟩ | ⟨again,_,_⟩
      · exact absurd new (drawn_ne_next uuid injective s.shared.drawn id (orderly.fresh m before id stood holds).1)
      · rw [advances] at again
        cases again
        rfl
  answered := by
    intro tid id named
    rcases named_step uuid s action tid id named with before | ⟨n,advances,given⟩
    · obtain ⟨n,answered⟩ := orderly.answered tid id before
      exact ⟨n,answered_kept uuid s action n tid id answered⟩
    · rw [advances]
      exact ⟨n,(named_remembered uuid s n tid id given).2.1⟩

end Fresh

/-- While the condition holds, a thread goes on naming its live session. -/
theorem named_kept (s : ThreadSystem) (action : Action Request) (vacant : Vacant s action) (tid id : String)
    (named : Named s tid id) (live : Live s id) : Named (act uuid s action) tid id := by
  unfold Named
  rcases shared_cases uuid s action with same | ⟨n,phase,advances,found,same⟩
  · rw [same]
    exact named
  · rw [same]
    apply outcome_keeps uuid s.shared _ phase _ (access_cases uuid s.shared phase) tid id named
    intro other remembers
    rw [advances] at vacant
    rw [remembers] at found
    exact vacant tid other found id named live

theorem bound_step (s : ThreadSystem) (orderly : Orderly uuid s) (bound : Bound s) (action : Action Request)
    (vacant : Vacant s action) : Bound (act uuid s action) := by
  intro n phase tid id found known live
  have before (settled : Settled s id) : Live s id := by
    obtain ⟨session,here⟩ := Option.isSome_iff_exists.mp live
    rcases get_step uuid s action id session here with there | ⟨_,m,other,_,present,fresh⟩
    · exact Option.isSome_of_eq_some there
    · exact absurd fresh ((orderly.settled id settled).2 m other present)
  rcases known_step uuid s orderly.own action n phase tid id found known with
    ⟨earlier,present,held⟩ | named | ⟨advances,given⟩
  · have alive := before ⟨tid,Or.inr ⟨n,earlier,present,held⟩⟩
    exact named_kept uuid s action vacant tid id (bound n earlier tid id present held alive) alive
  · exact named_kept uuid s action vacant tid id named (before ⟨tid,Or.inl named⟩)
  · rw [advances]
    exact (named_remembered uuid s n tid id given).1

theorem bound_reachable (s : ThreadSystem) (bound : Bound s) : Reachable s := by
  intro n tid id answered live
  obtain ⟨phase,found,known⟩ := named_known s n tid id answered
  exact bound n phase tid id found known live

/-- A thread that is given a second session while the first lives leaves it behind. -/
theorem vacant_of_reachable (s : ThreadSystem) (orderly : Orderly uuid s) (action : Action Request)
    (reachable : Reachable (act uuid s action)) : Vacant s action := by
  cases action with
  | enter n request => exact True.intro
  | advance n =>
    intro tid id given other named live
    obtain ⟨now,_,sessions⟩ := named_remembered uuid s n tid id given
    obtain ⟨m,answered⟩ := orderly.answered tid other named
    have kept := answered_kept uuid s (.advance n) m tid other answered
    have alive : Live (act uuid s (.advance n)) other := by
      unfold Live
      rw [sessions]
      exact live
    have again := reachable m tid other kept alive
    have same : id = other := Option.some_inj.mp (now.symm.trans again)
    exact (orderly.settled other ⟨tid,Or.inl named⟩).2 n _ given (congrArg some same)

/-- A call that has a session for a thread has it alive as long as no session of the thread
is removed. -/
theorem held_step (s : ThreadSystem) (orderly : Orderly uuid s) (n : ℕ) (tid : String) (action : Action Request)
    (spares : Spares tid s action) (alive : ∀ id, Held s n tid id → Live s id) (id : String)
    (held : Held (act uuid s action) n tid id) : Live (act uuid s action) id := by
  have kept (before : Held s n tid id) : Live (act uuid s action) id := by
    apply live_step uuid s action id (alive id before)
    intro m advances removing
    rw [advances] at spares
    exact spares id removing ⟨n,before⟩
  have stands : ∃ phase, (act uuid s action).calls.lookup n = some phase ∧
      (phase = .remembering tid id ∨ ∃ session, phase = .returned (some tid) (.ok session) ∧ session.id = id) := by
    rcases held with ⟨session,found,same⟩ | found
    · exact ⟨_,found,Or.inr ⟨session,rfl,same⟩⟩
    · exact ⟨_,found,Or.inl rfl⟩
  obtain ⟨phase,found,shape⟩ := stands
  have before (earlier : Phase) (present : s.calls.lookup n = some earlier)
      (stood : earlier = .remembering tid id ∨ ∃ session, earlier = .returned (some tid) (.ok session) ∧ session.id = id) :
      Live (act uuid s action) id := by
    rcases stood with given | ⟨session,returned,same⟩
    · rw [given] at present
      exact kept (Or.inr present)
    · rw [returned] at present
      exact kept (Or.inl ⟨session,present,same⟩)
  rcases lookup_step entered (access uuid) s action n phase found with
    same | ⟨request,_,_,enters⟩ | ⟨earlier,advances,present,next⟩
  · exact before phase same shape
  · obtain ⟨fresh,known⟩ := entered_unbound request
    rw [← enters] at fresh known
    rcases shape with given | ⟨session,returned,_⟩
    · rw [given] at fresh
      cases fresh
    · rw [returned] at known
      cases known
  · rw [next] at shape
    rcases outcome_held uuid s.shared _ earlier _ (access_cases uuid s.shared earlier) orderly.own tid id shape with
      live | stood
    · unfold Live
      rw [advances,act,step_advance entered (access uuid) s n earlier present]
      exact live
    · exact before earlier present stood

theorem opening_orderly (maxSessions : Nat) : Orderly uuid (opening maxSessions) where
  own := nofun
  settled := by
    rintro id ⟨tid,named | ⟨n,phase,found,_⟩⟩
    · cases named
    · cases found
  fresh := nofun
  answered := nofun

section Throughout
variable (injective : Function.Injective uuid) (maxSessions : Nat)
include injective

theorem run_bound (actions : List (Action Request)) (along : Along (act uuid) Vacant (opening maxSessions) actions) :
    Orderly uuid (run (act uuid) (opening maxSessions) actions) ∧ Bound (run (act uuid) (opening maxSessions) actions) :=
  run_invariant (act uuid) Vacant (fun s => Orderly uuid s ∧ Bound s)
    (fun s action both vacant =>
      ⟨orderly_step uuid injective s both.1 action,bound_step uuid s both.1 both.2 action vacant⟩)
    (opening maxSessions) actions ⟨opening_orderly uuid maxSessions,nofun⟩ along

theorem run_held (s : ThreadSystem) (orderly : Orderly uuid s) (n : ℕ) (tid : String) (actions : List (Action Request))
    (absent : s.calls.lookup n = none) (spares : Along (act uuid) (Spares tid) s actions) (id : String)
    (held : Held (run (act uuid) s actions) n tid id) : Live (run (act uuid) s actions) id := by
  have alive : Orderly uuid (run (act uuid) s actions) ∧
      ∀ id, Held (run (act uuid) s actions) n tid id → Live (run (act uuid) s actions) id := by
    apply run_invariant (act uuid) (Spares tid)
      (fun s => Orderly uuid s ∧ ∀ id, Held s n tid id → Live s id)
      (fun s action both spared => ⟨orderly_step uuid injective s both.1 action,
        held_step uuid s both.1 n tid action spared both.2⟩) s actions _ spares
    refine ⟨orderly,?_⟩
    rintro id (⟨session,found,_⟩ | found)
    · rw [absent] at found
      cases found
    · rw [absent] at found
      cases found
  exact alive.2 id held

theorem same_session (actions : List (Action Request))
    (along : Along (act uuid) Vacant (opening maxSessions) actions) :
    SameSession uuid (opening maxSessions) actions := by
  intro before during after parts first second tid one other newcomer latecomer spares answered again
  rw [parts,along_append] at along
  have bound := (run_bound uuid injective maxSessions (before ++ during) along.1).2
  have orderly := (run_bound uuid injective maxSessions before ((along_append _ _ _ _ _).mp along.1).1).1
  rw [run_append] at bound answered again
  have live := run_held uuid injective _ orderly first tid during newcomer spares one (Or.inl answered)
  have alive := run_held uuid injective _ orderly second tid during latecomer spares other (Or.inl again)
  have named := bound_reachable _ bound first tid one answered live
  have too := bound_reachable _ bound second tid other again alive
  exact Option.some_inj.mp (named.symm.trans too)

/-- One session serves a thread at a time, and none is left behind, exactly if no thread is
given a session while the one it names lives. -/
theorem one_session_throughout_iff (actions : List (Action Request)) :
    (SameSession uuid (opening maxSessions) actions ∧ Always (act uuid) Reachable (opening maxSessions) actions) ↔
      Along (act uuid) Vacant (opening maxSessions) actions := by
  have reachable : Always (act uuid) Reachable (opening maxSessions) actions ↔
      Along (act uuid) Vacant (opening maxSessions) actions := by
    apply always_iff_along_forced (act uuid) Vacant Reachable Bound (Orderly uuid)
    · exact fun s action orderly => orderly_step uuid injective s orderly action
    · exact fun s action orderly bound vacant => bound_step uuid s orderly bound action vacant
    · exact fun s _ bound => bound_reachable s bound
    · exact fun s action orderly after => vacant_of_reachable uuid s orderly action after
    · exact opening_orderly uuid maxSessions
    · exact nofun
  rw [reachable]
  exact ⟨fun both => both.2,fun along => ⟨same_session uuid injective maxSessions actions along,along⟩⟩

end Throughout

end Accesses

/-- One message of a thread opens a session, the next finds it. -/
def inTurn : List (Action Request) :=
  [.enter 0 (.getOrCreate (some "thread")),.advance 0,.advance 0,.advance 0,.advance 0,
    .enter 1 (.getOrCreate (some "thread")),.advance 1,.advance 1]

/-- Two messages of one thread look before either has a session remembered. -/
def together : List (Action Request) :=
  [.enter 0 (.getOrCreate (some "thread")),.enter 1 (.getOrCreate (some "thread")),.advance 0,.advance 1,
    .advance 0,.advance 0,.advance 0,.advance 1,.advance 1,.advance 1]

theorem one_session_in_turn :
    SameSession Server.Agents.numbered (opening 1) inTurn ∧
      Always (act Server.Agents.numbered) Reachable (opening 1) inTurn := by
  apply (one_session_throughout_iff Server.Agents.numbered Server.Agents.numbered_injective 1 inTurn).mpr
  refine ⟨trivial,nofun,nofun,nofun,?_,trivial,nofun,nofun,trivial⟩
  intro tid id given other named
  cases given
  cases named

theorem two_sessions_together :
    ¬SameSession Server.Agents.numbered (opening 2) together ∧
      ¬Always (act Server.Agents.numbered) Reachable (opening 2) together := by
  constructor
  · intro same
    have spares : Along (act Server.Agents.numbered) (Spares "thread") (opening 2) together :=
      ⟨trivial,trivial,nofun,nofun,nofun,nofun,nofun,nofun,nofun,nofun,trivial⟩
    have one := same [] together [] rfl 0 1 "thread" (Server.Agents.numbered 0) (Server.Agents.numbered 1)
      rfl rfl spares ⟨_,rfl,rfl⟩ ⟨_,rfl,rfl⟩
    exact absurd one (by decide)
  · intro always
    have last := always.2.2.2.2.2.2.2.2.2.2
    have named := last 0 "thread" (Server.Agents.numbered 0) ⟨_,rfl,rfl⟩ rfl
    cases named

end ClawKernel.Server.ThreadRace
