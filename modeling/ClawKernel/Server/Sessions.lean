import ClawKernel.Lib.Inverse
import ClawKernel.Lib.Runs
import ClawKernel.Lib.Tables
import ClawKernel.Server.Protocol

/-! `SessionManager`: the live sessions by id, and the index from an agent to the session
that backs it. The id that `Uuid::new_v4` draws is an argument of the call.
-/
namespace ClawKernel.Server.Sessions
open Lib.Inverse Lib.Runs Lib.Tables Server.Protocol

/-- `eventForwarder` is the number of the spawned forwarding task. -/
structure Session where
  id : String
  agentId : Option String
  eventForwarder : Option Nat
  scheduledTaskIds : List String
  deriving DecidableEq, Repr

def Session.new (id : String) : Session := ⟨id,none,none,[]⟩

def Session.newWithPending (id : String) : Session := ⟨id,none,none,[]⟩

def Session.newForAgent (id agentId : String) : Session := ⟨id,some agentId,none,[]⟩

structure SessionManager where
  sessions : Table String Session
  agentToSession : Table String String
  maxSessions : Nat

namespace SessionManager

def new (maxSessions : Nat) : SessionManager := ⟨∅,∅,maxSessions⟩

def count (m : SessionManager) : Nat := m.sessions.entries.length

def get (m : SessionManager) (id : String) : Option Session := m.sessions.lookup id

def sessionForAgent (m : SessionManager) (agentId : String) : Option String := m.agentToSession.lookup agentId

/-! The accesses to one of the two maps that the calls below are made of. -/

def insertSession (m : SessionManager) (session : Session) : SessionManager :=
  { m with sessions := m.sessions.insert session.id session }

def indexAgent (m : SessionManager) (agentId id : String) : SessionManager :=
  { m with agentToSession := m.agentToSession.insert agentId id }

def eraseSession (m : SessionManager) (id : String) : SessionManager :=
  { m with sessions := m.sessions.erase id }

def forgetAgent (m : SessionManager) (agentId : String) : SessionManager :=
  { m with agentToSession := m.agentToSession.erase agentId }

def create (m : SessionManager) (uuid : String) : SessionManager × Except ServerError Session :=
  if m.maxSessions ≤ m.count then (m,.error (.maxSessionsReached m.maxSessions))
  else (m.insertSession (.new uuid),.ok (.new uuid))

def createWithId (m : SessionManager) (id : String) : SessionManager × Except ServerError Session :=
  if m.maxSessions ≤ m.count then (m,.error (.maxSessionsReached m.maxSessions))
  else (m.insertSession (.newWithPending id),.ok (.newWithPending id))

def createForAgent (m : SessionManager) (uuid agentId : String) : SessionManager × Except ServerError Session :=
  if m.maxSessions ≤ m.count then (m,.error (.maxSessionsReached m.maxSessions))
  else ((m.insertSession (.newForAgent uuid agentId)).indexAgent agentId uuid,.ok (.newForAgent uuid agentId))

def remove (m : SessionManager) (id : String) : SessionManager × Bool :=
  match m.get id with
  | none => (m,false)
  | some session =>
    match session.agentId with
    | none => (m.eraseSession id,true)
    | some agentId => ((m.eraseSession id).forgetAgent agentId,true)

def removeByAgent (m : SessionManager) (agentId : String) : SessionManager × Option String :=
  match m.sessionForAgent agentId with
  | none => (m,none)
  | some id => ((m.forgetAgent agentId).eraseSession id,some id)

def clear (m : SessionManager) : SessionManager := { m with sessions := ∅,agentToSession := ∅ }

/-- What is behind the locks of a live session changes. -/
def update (m : SessionManager) (id : String) (change : Session → Session) : SessionManager :=
  { m with sessions := modify m.sessions id change }

/-- The agent that a live session backs. -/
def agentOf (m : SessionManager) (id : String) : Option String := (m.get id).bind Session.agentId

end SessionManager

inductive Call where
  | create (uuid : String)
  | createWithId (id : String)
  | createForAgent (uuid agentId : String)
  | remove (id : String)
  | removeByAgent (agentId : String)
  | clear
  deriving DecidableEq, Repr

def call (m : SessionManager) : Call → SessionManager
  | .create uuid => (m.create uuid).1
  | .createWithId id => (m.createWithId id).1
  | .createForAgent uuid agentId => (m.createForAgent uuid agentId).1
  | .remove id => (m.remove id).1
  | .removeByAgent agentId => (m.removeByAgent agentId).1
  | .clear => m.clear

/-- The index names, for every agent, the live session that backs it, and nothing else. -/
structure IndexExact (m : SessionManager) : Prop where
  named : ∀ agentId id, m.agentToSession.lookup agentId = some id ↔
    ∃ session, m.get id = some session ∧ session.agentId = some agentId
  reachable : ∀ id session agentId, m.get id = some session → session.agentId = some agentId →
    (m.sessionForAgent agentId).bind m.get = some session

/-- A call that creates a session takes the id of no other agent's session, and an agent
with a live session gets no second one. -/
def Apart (m : SessionManager) : Call → Prop
  | .create uuid => m.count < m.maxSessions → m.agentOf uuid = none
  | .createWithId id => m.count < m.maxSessions → m.agentOf id = none
  | .createForAgent uuid agentId => m.count < m.maxSessions →
    (∀ other, m.agentOf uuid = some other → other = agentId) ∧ ∀ id, m.agentOf id = some agentId → id = uuid
  | .remove _ => True
  | .removeByAgent _ => True
  | .clear => True

section Accesses
variable (m : SessionManager)

theorem get_insertSession (session : Session) (id : String) :
    (m.insertSession session).get id = if id = session.id then some session else m.get id :=
  lookup_insert_if m.sessions session.id id session

theorem get_insertSession_cases (new session : Session) (id : String)
    (live : (m.insertSession new).get id = some session) : m.get id = some session ∨ id = new.id ∧ session = new := by
  rw [get_insertSession] at live
  split at live
  · rename_i same
    exact Or.inr ⟨same,(Option.some_inj.mp live).symm⟩
  · exact Or.inl live

theorem get_eraseSession (id other : String) :
    (m.eraseSession id).get other = if other = id then none else m.get other :=
  lookup_erase_if m.sessions id other

theorem get_update (id other : String) (change : Session → Session) :
    (m.update id change).get other = if other = id then (m.get id).map change else m.get other :=
  lookup_modify m.sessions id other change

theorem get_update_cases (id other : String) (change : Session → Session) (session record : Session)
    (live : m.get id = some session) (there : (m.update id change).get other = some record) :
    other = id ∧ record = change session ∨ other ≠ id ∧ m.get other = some record := by
  rw [get_update,live] at there
  split at there
  · exact Or.inl ⟨‹_›,(Option.some_inj.mp there).symm⟩
  · exact Or.inr ⟨‹_›,there⟩

theorem isSome_get_update (id other : String) (change : Session → Session) :
    ((m.update id change).get other).isSome = (m.get other).isSome := by
  rw [get_update]
  split
  · rename_i same
    rw [same,Option.isSome_map]
  · rfl

theorem agentOf_update (id : String) (change : Session → Session)
    (kept : ∀ session, (change session).agentId = session.agentId) : (m.update id change).agentOf = m.agentOf := by
  funext other
  unfold SessionManager.agentOf
  rw [get_update]
  split
  · rename_i same
    rw [same]
    cases m.get id with
    | none => rfl
    | some session => exact kept session
  · rfl

theorem sessionForAgent_indexAgent (agentId id : String) :
    (m.indexAgent agentId id).sessionForAgent = set m.sessionForAgent agentId id := by
  funext other
  exact lookup_insert_if m.agentToSession agentId other id

theorem sessionForAgent_forgetAgent (agentId : String) :
    (m.forgetAgent agentId).sessionForAgent = drop m.sessionForAgent agentId := by
  funext other
  exact lookup_erase_if m.agentToSession agentId other

theorem agentOf_insertSession (session : Session) (id : String) :
    (m.insertSession session).agentOf id = if id = session.id then session.agentId else m.agentOf id := by
  unfold SessionManager.agentOf
  rw [get_insertSession]
  split
  · rfl
  · rfl

theorem agentOf_eraseSession (id : String) : (m.eraseSession id).agentOf = drop m.agentOf id := by
  funext other
  unfold SessionManager.agentOf drop
  rw [get_eraseSession]
  split
  · rfl
  · rfl

theorem agentOf_some (id agentId : String) :
    m.agentOf id = some agentId ↔ ∃ session, m.get id = some session ∧ session.agentId = some agentId :=
  Option.bind_eq_some_iff

theorem indexExact_iff : IndexExact m ↔ Paired m.sessionForAgent m.agentOf := by
  constructor
  · intro exact agentId id
    rw [agentOf_some]
    exact exact.named agentId id
  · intro paired
    have named (agentId id : String) : m.sessionForAgent agentId = some id ↔
        ∃ session, m.get id = some session ∧ session.agentId = some agentId := by
      rw [paired,agentOf_some]
    refine ⟨named,?_⟩
    intro id session agentId live backs
    rw [(named agentId id).mpr ⟨session,live,backs⟩,Option.bind_some]
    exact live

/-- Taking the id for a session without an agent loses the pair of that id, if any. -/
theorem paired_insertSession (session : Session) (alone : session.agentId = none)
    (paired : Paired m.sessionForAgent m.agentOf) :
    Paired (m.insertSession session).sessionForAgent (m.insertSession session).agentOf ↔
      m.agentOf session.id = none := by
  have dropped : (m.insertSession session).agentOf = drop m.agentOf session.id := by
    funext id
    rw [agentOf_insertSession,alone]
    rfl
  rw [dropped]
  exact paired_drop_iff m.sessionForAgent m.agentOf paired session.id

theorem paired_createForAgent (uuid agentId : String) (paired : Paired m.sessionForAgent m.agentOf) :
    Paired ((m.insertSession (.newForAgent uuid agentId)).indexAgent agentId uuid).sessionForAgent
        ((m.insertSession (.newForAgent uuid agentId)).indexAgent agentId uuid).agentOf ↔
      (∀ other, m.agentOf uuid = some other → other = agentId) ∧ ∀ id, m.agentOf id = some agentId → id = uuid := by
  have backed : ((m.insertSession (.newForAgent uuid agentId)).indexAgent agentId uuid).agentOf =
      set m.agentOf uuid agentId := by
    funext id
    exact agentOf_insertSession m (.newForAgent uuid agentId) id
  rw [backed,sessionForAgent_indexAgent]
  exact paired_set_iff m.sessionForAgent m.agentOf paired agentId uuid

theorem get_remove (id other : String) : (m.remove id).1.get other = if other = id then none else m.get other := by
  unfold SessionManager.remove
  cases live : m.get id with
  | none =>
    change m.get other = if other = id then none else m.get other
    split
    · rename_i same
      rw [same]
      exact live
    · rfl
  | some session =>
    cases backs : session.agentId with
    | none =>
      simp only [backs]
      exact get_eraseSession m id other
    | some agentId =>
      simp only [backs]
      exact get_eraseSession m id other

theorem agentOf_remove (id : String) : (m.remove id).1.agentOf = drop m.agentOf id := by
  funext other
  unfold SessionManager.agentOf drop
  rw [get_remove]
  split
  · rfl
  · rfl

theorem sessionForAgent_remove (id : String) :
    (m.remove id).1.sessionForAgent =
      match m.agentOf id with
      | none => m.sessionForAgent
      | some agentId => drop m.sessionForAgent agentId := by
  unfold SessionManager.remove SessionManager.agentOf
  cases live : m.get id with
  | none => rfl
  | some session =>
    rw [Option.bind_some]
    cases backs : session.agentId with
    | none =>
      simp only [backs]
      rfl
    | some agentId =>
      simp only [backs]
      exact sessionForAgent_forgetAgent (m.eraseSession id) agentId

theorem sessionForAgent_removeByAgent (agentId : String) :
    (m.removeByAgent agentId).1.sessionForAgent = drop m.sessionForAgent agentId := by
  unfold SessionManager.removeByAgent
  cases found : m.sessionForAgent agentId with
  | none => exact (drop_absent m.sessionForAgent agentId found).symm
  | some id => exact sessionForAgent_forgetAgent m agentId

theorem get_removeByAgent (agentId other : String) :
    (m.removeByAgent agentId).1.get other = if m.sessionForAgent agentId = some other then none else m.get other := by
  unfold SessionManager.removeByAgent
  cases found : m.sessionForAgent agentId with
  | none => rfl
  | some id =>
    have erased := get_eraseSession (m.forgetAgent agentId) id other
    by_cases same : other = id
    · rw [if_pos same] at erased
      rw [if_pos (congrArg some same.symm)]
      exact erased
    · rw [if_neg same] at erased
      rw [if_neg (fun back => same (Option.some_inj.mp back).symm)]
      exact erased

theorem agentOf_removeByAgent (agentId id : String) :
    (m.removeByAgent agentId).1.agentOf id = if m.sessionForAgent agentId = some id then none else m.agentOf id := by
  unfold SessionManager.agentOf
  rw [get_removeByAgent]
  split
  · rfl
  · rfl

theorem paired_remove (id : String) (paired : Paired m.sessionForAgent m.agentOf) :
    Paired (m.remove id).1.sessionForAgent (m.remove id).1.agentOf := by
  rw [agentOf_remove,sessionForAgent_remove]
  cases backs : m.agentOf id with
  | none => exact (paired_drop_iff m.sessionForAgent m.agentOf paired id).mpr backs
  | some agentId =>
    exact paired_drop_both m.sessionForAgent m.agentOf paired agentId id ((paired agentId id).mpr backs)

theorem paired_removeByAgent (agentId : String) (paired : Paired m.sessionForAgent m.agentOf) :
    Paired (m.removeByAgent agentId).1.sessionForAgent (m.removeByAgent agentId).1.agentOf := by
  unfold SessionManager.removeByAgent
  cases found : m.sessionForAgent agentId with
  | none => exact paired
  | some id =>
    have dropped := paired_drop_both m.sessionForAgent m.agentOf paired agentId id found
    rw [agentOf_eraseSession]
    change Paired (m.forgetAgent agentId).sessionForAgent _
    rw [sessionForAgent_forgetAgent]
    exact dropped

theorem create_state (uuid : String) :
    (m.create uuid).1 = if m.maxSessions ≤ m.count then m else m.insertSession (.new uuid) :=
  apply_ite Prod.fst _ _ _

theorem createWithId_state (id : String) :
    (m.createWithId id).1 = if m.maxSessions ≤ m.count then m else m.insertSession (.newWithPending id) :=
  apply_ite Prod.fst _ _ _

theorem createForAgent_state (uuid agentId : String) :
    (m.createForAgent uuid agentId).1 =
      if m.maxSessions ≤ m.count then m
      else (m.insertSession (.newForAgent uuid agentId)).indexAgent agentId uuid :=
  apply_ite Prod.fst _ _ _

/-- The length test turns a call into nothing. -/
theorem paired_unless_full (next : SessionManager) (meets : Prop) (paired : Paired m.sessionForAgent m.agentOf)
    (room : Paired next.sessionForAgent next.agentOf ↔ meets) :
    IndexExact (if m.maxSessions ≤ m.count then m else next) ↔ (m.count < m.maxSessions → meets) := by
  rw [indexExact_iff]
  by_cases full : m.maxSessions ≤ m.count
  · rw [if_pos full]
    exact ⟨fun _ below => absurd below (Nat.not_lt.mpr full),fun _ => paired⟩
  · rw [if_neg full,room]
    exact ⟨fun met _ => met,fun met => met (Nat.not_le.mp full)⟩

theorem call_exact_iff (each : Call) (exact : IndexExact m) : IndexExact (call m each) ↔ Apart m each := by
  have paired := (indexExact_iff m).mp exact
  cases each with
  | create uuid =>
    change IndexExact (m.create uuid).1 ↔ _
    rw [create_state]
    exact paired_unless_full m _ _ paired (paired_insertSession m (.new uuid) rfl paired)
  | createWithId id =>
    change IndexExact (m.createWithId id).1 ↔ _
    rw [createWithId_state]
    exact paired_unless_full m _ _ paired (paired_insertSession m (.newWithPending id) rfl paired)
  | createForAgent uuid agentId =>
    change IndexExact (m.createForAgent uuid agentId).1 ↔ _
    rw [createForAgent_state]
    exact paired_unless_full m _ _ paired (paired_createForAgent m uuid agentId paired)
  | remove id =>
    have kept := (indexExact_iff _).mpr (paired_remove m id paired)
    exact ⟨fun _ => trivial,fun _ => kept⟩
  | removeByAgent agentId =>
    have kept := (indexExact_iff _).mpr (paired_removeByAgent m agentId paired)
    exact ⟨fun _ => trivial,fun _ => kept⟩
  | clear =>
    have kept : IndexExact m.clear := (indexExact_iff _).mpr (fun _ _ => ⟨nofun,nofun⟩)
    exact ⟨fun _ => trivial,fun _ => kept⟩

end Accesses

/-! Ids are drawn one after another. -/

theorem drawn_later (uuid : Nat → String) (before after : Nat) (later : before ≤ after) (id : String)
    (drawn : ∃ k < before, id = uuid k) : ∃ k < after, id = uuid k := by
  obtain ⟨k,below,same⟩ := drawn
  exact ⟨k,Nat.lt_of_lt_of_le below later,same⟩

theorem drawn_ne_next (uuid : Nat → String) (injective : Function.Injective uuid) (next : Nat) (id : String)
    (drawn : ∃ k < next, id = uuid k) : id ≠ uuid next := by
  obtain ⟨k,below,rfl⟩ := drawn
  intro same
  exact Nat.ne_of_lt below (injective same)

theorem new_exact (maxSessions : Nat) : IndexExact (.new maxSessions) :=
  (indexExact_iff _).mpr (fun _ _ => ⟨nofun,nofun⟩)

/-- The index is an exact inverse throughout exactly if every call that creates a session
leaves the sessions of agents alone. -/
theorem index_exact_throughout_iff (maxSessions : Nat) (calls : List Call) :
    Always call IndexExact (.new maxSessions) calls ↔ Along call Apart (.new maxSessions) calls := by
  apply always_iff_along call Apart IndexExact (fun _ => True) (fun _ => True)
  · exact fun _ _ _ _ => trivial
  · exact fun m each _ _ exact => call_exact_iff m each exact
  · exact fun _ _ => trivial
  · trivial
  · exact new_exact maxSessions

/-- An agent with two sessions: removing the first takes the index entry of the second. -/
theorem second_session_unreachable :
    ¬Always call IndexExact (.new 2)
      [.createForAgent "first" "agent",.createForAgent "second" "agent",.remove "first"] := by
  intro always
  have last := always.2.2.2
  have found := last.reachable "second" (.newForAgent "second" "agent") "agent" rfl rfl
  cases found

end ClawKernel.Server.Sessions
