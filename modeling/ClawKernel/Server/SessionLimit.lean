import ClawKernel.Lib.Interleaving
import ClawKernel.Server.Sessions

/-! `SessionManager` under concurrent calls: every access to one of its maps is a step.
-/
namespace ClawKernel.Server.SessionLimit
open Lib.Runs Lib.Tables Lib.Interleaving Server.Sessions Server.Protocol

inductive Answer where
  | created (result : Except ServerError Session)
  | removed (found : Bool)
  | removedSession (id : Option String)
  | cleared

/-- Where a call stands, with the access it makes next. -/
inductive Phase where
  | entered (call : Call)
  | inserting (session : Session)
  | indexing (agentId : String) (session : Session)
  | forgetting (agentId : String)
  | erasing (id : String)
  | clearing
  | returned (answer : Answer)

/-- The length test of the three calls that create a session. -/
def tested (m : SessionManager) (session : Session) : Phase :=
  if m.maxSessions ≤ m.count then .returned (.created (.error (.maxSessionsReached m.maxSessions)))
  else .inserting session

def access (m : SessionManager) : Phase → SessionManager × Phase
  | .entered (.create uuid) => (m,tested m (.new uuid))
  | .entered (.createWithId id) => (m,tested m (.newWithPending id))
  | .entered (.createForAgent uuid agentId) => (m,tested m (.newForAgent uuid agentId))
  | .entered (.remove id) =>
    match m.get id with
    | none => (m,.returned (.removed false))
    | some session =>
      match session.agentId with
      | none => (m.eraseSession id,.returned (.removed true))
      | some agentId => (m.eraseSession id,.forgetting agentId)
  | .entered (.removeByAgent agentId) =>
    match m.sessionForAgent agentId with
    | none => (m,.returned (.removedSession none))
    | some id => (m.forgetAgent agentId,.erasing id)
  | .entered .clear => ({ m with sessions := ∅ },.clearing)
  | .inserting session =>
    match session.agentId with
    | none => (m.insertSession session,.returned (.created (.ok session)))
    | some agentId => (m.insertSession session,.indexing agentId session)
  | .indexing agentId session => (m.indexAgent agentId session.id,.returned (.created (.ok session)))
  | .forgetting agentId => (m.forgetAgent agentId,.returned (.removed true))
  | .erasing id => (m.eraseSession id,.returned (.removedSession (some id)))
  | .clearing => ({ m with agentToSession := ∅ },.returned .cleared)
  | .returned answer => (m,.returned answer)

abbrev SessionSystem := System SessionManager Phase

def act : SessionSystem → Action Call → SessionSystem := step .entered access

def opened (maxSessions : Nat) : SessionSystem := start (.new maxSessions)

/-- What a call answers that nothing interrupts. -/
def answer (m : SessionManager) : Call → Answer
  | .create uuid => .created (m.create uuid).2
  | .createWithId id => .created (m.createWithId id).2
  | .createForAgent uuid agentId => .created (m.createForAgent uuid agentId).2
  | .remove id => .removed (m.remove id).2
  | .removeByAgent agentId => .removedSession (m.removeByAgent agentId).2
  | .clear => .cleared

def Within (s : SessionSystem) : Prop := s.shared.count ≤ s.shared.maxSessions

/-- A session is inserted only where there is still room for one more, or in place of a
session with the same id. -/
def Room (s : SessionSystem) : Action Call → Prop
  | .enter _ _ => True
  | .advance n => ∀ session, s.calls.lookup n = some (.inserting session) →
    s.shared.count < s.shared.maxSessions ∨ session.id ∈ s.shared.sessions

def Refused (n : Nat) (s : SessionSystem) : Prop :=
  ∃ max, s.calls.lookup n = some (.returned (.created (.error (.maxSessionsReached max))))

/-- The call is under way and as many sessions are live as there may be. -/
def FullDuring (n : Nat) (s : SessionSystem) : Prop :=
  (∃ call, s.calls.lookup n = some (.entered call)) ∧ s.shared.maxSessions ≤ s.shared.count

section Accesses
variable (m : SessionManager)

theorem count_insertSession (session : Session) :
    (m.insertSession session).count = if session.id ∈ m.sessions then m.count else m.count + 1 :=
  length_insert m.sessions session.id session

theorem access_inserting (session : Session) : (access m (.inserting session)).1 = m.insertSession session := by
  rw [access]
  split
  · rfl
  · rfl

/-- Uninterrupted, the accesses of a call are the call. -/
theorem accesses_eq_call (call : Call) :
    (fun each : SessionManager × Phase => access each.1 each.2)^[3] (m,.entered call) =
      (Sessions.call m call,.returned (answer m call)) := by
  cases call with
  | create uuid =>
    by_cases full : m.maxSessions ≤ m.count
    · simp [access,tested,full,answer,Sessions.call,SessionManager.create]
    · simp [access,tested,full,answer,Sessions.call,SessionManager.create,Session.new]
  | createWithId id =>
    by_cases full : m.maxSessions ≤ m.count
    · simp [access,tested,full,answer,Sessions.call,SessionManager.createWithId]
    · simp [access,tested,full,answer,Sessions.call,SessionManager.createWithId,Session.newWithPending]
  | createForAgent uuid agentId =>
    by_cases full : m.maxSessions ≤ m.count
    · simp [access,tested,full,answer,Sessions.call,SessionManager.createForAgent]
    · simp [access,tested,full,answer,Sessions.call,SessionManager.createForAgent,Session.newForAgent]
  | remove id =>
    cases live : m.get id with
    | none => simp [access,live,answer,Sessions.call,SessionManager.remove]
    | some session =>
      cases backs : session.agentId with
      | none => simp [access,live,backs,answer,Sessions.call,SessionManager.remove]
      | some agentId => simp [access,live,backs,answer,Sessions.call,SessionManager.remove]
  | removeByAgent agentId =>
    cases found : m.sessionForAgent agentId with
    | none => simp [access,found,answer,Sessions.call,SessionManager.removeByAgent]
    | some id => simp [access,found,answer,Sessions.call,SessionManager.removeByAgent]
  | clear => rfl

theorem access_maxSessions (phase : Phase) : (access m phase).1.maxSessions = m.maxSessions := by
  cases phase with
  | inserting session => rw [access_inserting,SessionManager.insertSession]
  | entered call =>
    cases call with
    | remove id =>
      rw [access]
      split
      · rfl
      · split
        · rfl
        · rfl
    | removeByAgent agentId =>
      rw [access]
      split
      · rfl
      · rfl
    | _ => rfl
  | _ => rfl

/-- Only an insert adds to the sessions. -/
theorem access_count_le (phase : Phase) (other : ∀ session, phase ≠ .inserting session) :
    (access m phase).1.count ≤ m.count := by
  cases phase with
  | inserting session => exact absurd rfl (other session)
  | erasing id => exact length_erase_le m.sessions id
  | entered call =>
    cases call with
    | remove id =>
      rw [access]
      split
      · exact Nat.le_refl _
      · split
        · exact length_erase_le m.sessions id
        · exact length_erase_le m.sessions id
    | removeByAgent agentId =>
      rw [access]
      split
      · exact Nat.le_refl _
      · exact Nat.le_refl _
    | clear => exact Nat.zero_le _
    | _ => exact Nat.le_refl _
  | _ => exact Nat.le_refl _

theorem tested_refused (session : Session) (max : Nat)
    (refused : tested m session = .returned (.created (.error (.maxSessionsReached max)))) :
    m.maxSessions ≤ m.count := by
  unfold tested at refused
  split at refused
  · assumption
  · cases refused

/-- A refusal comes from the length test. -/
theorem access_refused (phase : Phase) (max : Nat)
    (refused : (access m phase).2 = .returned (.created (.error (.maxSessionsReached max)))) :
    phase = .returned (.created (.error (.maxSessionsReached max))) ∨
      (∃ call, phase = .entered call) ∧ m.maxSessions ≤ m.count := by
  cases phase with
  | returned answer => exact Or.inl refused
  | inserting session =>
    rw [access] at refused
    split at refused
    · cases refused
    · cases refused
  | entered call =>
    refine Or.inr ⟨⟨call,rfl⟩,?_⟩
    cases call with
    | create uuid => exact tested_refused m _ max refused
    | createWithId id => exact tested_refused m _ max refused
    | createForAgent uuid agentId => exact tested_refused m _ max refused
    | remove id =>
      rw [access] at refused
      split at refused
      · cases refused
      · split at refused
        · cases refused
        · cases refused
    | removeByAgent agentId =>
      rw [access] at refused
      split at refused
      · cases refused
      · cases refused
    | clear => cases refused
  | _ => cases refused

end Accesses

theorem act_alone (s : SessionSystem) (n : ℕ) (call : Call) (fresh : s.calls.lookup n = none) :
    (run act s [.enter n call,.advance n,.advance n,.advance n]).shared = Sessions.call s.shared call ∧
      (run act s [.enter n call,.advance n,.advance n,.advance n]).calls.lookup n =
        some (.returned (answer s.shared call)) := by
  have found : ({ s with calls := s.calls.insert n (.entered call) } : SessionSystem).calls.lookup n =
      some (.entered call) := AList.lookup_insert s.calls
  have alone := run_alone Phase.entered access _ n (.entered call) found 3
  rw [accesses_eq_call] at alone
  have enters : act s (.enter n call) = { s with calls := s.calls.insert n (.entered call) } :=
    step_enter Phase.entered access s n call fresh
  have split : run act s [.enter n call,.advance n,.advance n,.advance n] =
      run act (act s (.enter n call)) (List.replicate 3 (.advance n)) := rfl
  rw [split,enters]
  exact alone

theorem act_within_iff (s : SessionSystem) (action : Action Call) (within : Within s) :
    Within (act s action) ↔ Room s action := by
  cases action with
  | enter n call =>
    have same : (act s (.enter n call)).shared = s.shared := shared_enter _ access s n call
    rw [Within,same]
    exact ⟨fun _ => trivial,fun _ => within⟩
  | advance n =>
    cases found : s.calls.lookup n with
    | none =>
      rw [act,step_idle _ access s n found]
      refine ⟨fun _ session inserting => ?_,fun _ => within⟩
      rw [found] at inserting
      cases inserting
    | some phase =>
      have shared : (act s (.advance n)).shared = (access s.shared phase).1 :=
        congrArg System.shared (step_advance _ access s n phase found)
      rw [Within,shared,access_maxSessions]
      by_cases insert : ∃ session, phase = .inserting session
      · obtain ⟨session,rfl⟩ := insert
        have room : Room s (.advance n) ↔
            s.shared.count < s.shared.maxSessions ∨ session.id ∈ s.shared.sessions := by
          constructor
          · exact fun room => room session found
          · intro room other inserting
            rw [found,Option.some_inj,Phase.inserting.injEq] at inserting
            rw [← inserting]
            exact room
        rw [room,access_inserting,count_insertSession]
        split
        · rename_i taken
          exact ⟨fun _ => Or.inr taken,fun _ => within⟩
        · rename_i free
          rw [or_iff_left free]
          exact Nat.succ_le_iff
      · have other : ∀ session, phase ≠ .inserting session := fun session same => insert ⟨session,same⟩
        constructor
        · intro _ session inserting
          rw [found,Option.some_inj] at inserting
          exact absurd inserting (other session)
        · exact fun _ => Nat.le_trans (access_count_le s.shared phase other) within

theorem refused_arises (s : SessionSystem) (action : Action Call) (n : ℕ) (before : ¬Refused n s)
    (refused : Refused n (act s action)) : FullDuring n s := by
  obtain ⟨max,found⟩ := refused
  rcases lookup_step _ access s action n _ found with same | ⟨call,_,_,entered⟩ | ⟨earlier,_,present,next⟩
  · exact absurd ⟨max,same⟩ before
  · cases entered
  · rcases access_refused s.shared earlier max next.symm with same | ⟨⟨call,entered⟩,full⟩
    · rw [same] at present
      exact absurd ⟨max,present⟩ before
    · rw [entered] at present
      exact ⟨⟨call,present⟩,full⟩

theorem refused_full_during (maxSessions : Nat) (actions : List (Action Call)) (n : ℕ)
    (refused : Refused n (run act (opened maxSessions) actions)) :
    ∃ before after, actions = before ++ after ∧ FullDuring n (run act (opened maxSessions) before) := by
  have fresh : ¬Refused n (opened maxSessions) := fun ⟨max,found⟩ => by cases found
  obtain ⟨before,action,after,parts,absent,arises⟩ := run_arises act (Refused n) _ actions fresh refused
  exact ⟨before,action :: after,parts,refused_arises _ action n absent arises⟩

/-- The limit holds throughout, and a refused call saw it reached, exactly if every session
that passed the length test finds room at its insert too. -/
theorem limit_throughout_iff (maxSessions : Nat) (actions : List (Action Call)) :
    (Always act Within (opened maxSessions) actions ∧
      ∀ n, Refused n (run act (opened maxSessions) actions) →
        ∃ before after, actions = before ++ after ∧ FullDuring n (run act (opened maxSessions) before)) ↔
      Along act Room (opened maxSessions) actions := by
  have within : Always act Within (opened maxSessions) actions ↔ Along act Room (opened maxSessions) actions := by
    apply always_iff_along act Room Within (fun _ => True) (fun _ => True)
    · exact fun _ _ _ _ => trivial
    · exact fun s action _ _ before => act_within_iff s action before
    · exact fun _ _ => trivial
    · trivial
    · exact Nat.zero_le maxSessions
  rw [within]
  exact ⟨fun both => both.1,fun along => ⟨along,fun n => refused_full_during maxSessions actions n⟩⟩

/-- Two connections test the length while one slot is free, and both insert. -/
theorem two_inserts_for_one_slot :
    ¬Always act Within (opened 1)
      [.enter 0 (.create "first"),.enter 1 (.create "second"),.advance 0,.advance 1,.advance 0,.advance 1] := by
  intro always
  have last : (2 : Nat) ≤ 1 := always.2.2.2.2.2.2
  exact absurd last (by decide)

end ClawKernel.Server.SessionLimit
