import ClawKernel.Runtime.Lifecycle

/-! One registration for each id: what `register` and `spawn` make of an id stays until a call
that has found it removes it.
-/
namespace ClawKernel.Runtime.Registrations
open Lib Lib.Runs Lib.Tables Lifecycle
open Lib.Interleaving hiding step
open Orchestrator hiding step new

def start (heartbeatTimeoutMs : Nat) : System Shared Call := Interleaving.start (new heartbeatTimeoutMs)

/-- Every registration is in the map until a call removes it that has found it, and of two calls
that have made one of the same id only one can have it still. -/
structure OneRegistration (s : System Shared Call) : Prop where
  accounted : ∀ number < s.shared.issued, number ∈ s.shared.retired ∨ ∃ agentId, numberOf s.shared agentId = some number
  single : ∀ k other call call' agentId number number', s.calls.lookup k = some call → s.calls.lookup other = some call' →
    made call = some (agentId,number) → made call' = some (agentId,number') →
    number ∉ s.shared.retired → number' ∉ s.shared.retired → k = other

/-- An entry is made where there is none, and what is removed is what was found. -/
def Exclusive (s : System Shared Call) (action : Action Request) : Prop :=
  ∀ k call, action = .advance k → s.calls.lookup k = some call →
    (∀ agentId, inserting call = some agentId → agentId ∉ s.shared.agents) ∧
      ∀ agentId number other, removing call = some (agentId,number) → numberOf s.shared agentId = some other →
        other = number

/-- The numbers in the map are issued, none is there twice, and none that is retired. -/
structure Ledger (s : Shared) : Prop where
  below : ∀ agentId number, numberOf s agentId = some number → number < s.issued
  live : ∀ agentId number, numberOf s agentId = some number → number ∉ s.retired
  apart : ∀ agentId other number, numberOf s agentId = some number → numberOf s other = some number → agentId = other
  retired : ∀ number ∈ s.retired, number < s.issued

structure Inv (s : System Shared Call) : Prop where
  ledger : Ledger s.shared
  made : ∀ k call agentId number, s.calls.lookup k = some call → Lifecycle.made call = some (agentId,number) →
    number < s.shared.issued ∧ ∀ other, numberOf s.shared other = some number → other = agentId
  distinct : ∀ k other call call' agentId agentId' number, s.calls.lookup k = some call →
    s.calls.lookup other = some call' → Lifecycle.made call = some (agentId,number) →
    Lifecycle.made call' = some (agentId',number) → k = other

theorem ledger_same (s after : Shared) (same : Same s after) (ledger : Ledger s) : Ledger after := by
  obtain ⟨numbers,issued,retired⟩ := same
  refine ⟨?_,?_,?_,?_⟩
  · intro agentId number found
    rw [issued]
    exact ledger.below agentId number ((numbers agentId).symm.trans found)
  · intro agentId number found
    rw [retired]
    exact ledger.live agentId number ((numbers agentId).symm.trans found)
  · intro agentId other number one two
    exact ledger.apart agentId other number ((numbers agentId).symm.trans one) ((numbers other).symm.trans two)
  · rw [retired,issued]
    exact ledger.retired

theorem ledger_insert (s : Shared) (agentId : String) (state : AgentState) (ledger : Ledger s) :
    Ledger (s.insert agentId state) := by
  have unissued : ∀ other, numberOf s other ≠ some s.issued :=
    fun other found => Nat.lt_irrefl _ (ledger.below other s.issued found)
  refine ⟨?_,?_,?_,fun number member => Nat.lt_succ_of_lt (ledger.retired number member)⟩
  · intro other number found
    rw [numberOf_insert] at found
    split at found
    · cases found
      exact Nat.lt_succ_self _
    · exact Nat.lt_succ_of_lt (ledger.below other number found)
  · intro other number found
    rw [numberOf_insert] at found
    split at found
    · cases found
      exact fun member => Nat.lt_irrefl _ (ledger.retired s.issued member)
    · exact ledger.live other number found
  · intro first second number one two
    rw [numberOf_insert] at one two
    split at one
    · rename_i same
      cases one
      split at two
      · exact same.trans (Eq.symm ‹_›)
      · exact absurd two (unissued second)
    · split at two
      · cases two
        exact absurd one (unissued first)
      · exact ledger.apart first second number one two

theorem ledger_remove (s : Shared) (agentId : String) (number : Nat) (ledger : Ledger s) :
    Ledger (s.remove agentId number) := by
  have before : ∀ other found, numberOf (s.remove agentId number) other = some found →
      other ≠ agentId ∧ numberOf s other = some found := by
    intro other found there
    rw [numberOf_remove] at there
    split at there
    · cases there
    · exact ⟨‹_›,there⟩
  refine ⟨?_,?_,?_,?_⟩
  · exact fun other found there => ledger.below other found (before other found there).2
  · intro other found there member
    obtain ⟨apart,was⟩ := before other found there
    rw [retired_remove] at member
    split at member
    · rename_i own
      rcases List.mem_append.mp member with old | last
      · exact ledger.live other found was old
      · rw [List.mem_singleton] at last
        subst last
        exact apart (ledger.apart other agentId found was own)
    · exact ledger.live other found was member
  · exact fun first second found one two =>
      ledger.apart first second found (before first found one).2 (before second found two).2
  · intro found member
    rw [retired_remove] at member
    split at member
    · rename_i own
      rcases List.mem_append.mp member with old | last
      · exact ledger.retired found old
      · rw [List.mem_singleton] at last
        subst last
        exact ledger.below agentId found own
    · exact ledger.retired found member

/-- A number that was issued before stands where it stood, if it is still in the map. -/
structure Follows (s after : Shared) : Prop where
  grows : s.issued ≤ after.issued
  stays : ∀ agentId number, number < s.issued → numberOf after agentId = some number → numberOf s agentId = some number

theorem access_ledger (s : Shared) (call : Call) (ledger : Ledger s) :
    Ledger (access s call).1 ∧ Follows s (access s call).1 := by
  cases access_traffic s call with
  | same idle same =>
    exact ⟨ledger_same s _ same ledger,Nat.le_of_eq same.issued.symm,
      fun agentId number _ found => (same.numbers agentId).symm.trans found⟩
  | inserted agentId state inserts idle same =>
    rw [same]
    refine ⟨ledger_insert s agentId state ledger,Nat.le_succ _,fun other number issued found => ?_⟩
    rw [numberOf_insert] at found
    split at found
    · cases found
      exact absurd issued (Nat.lt_irrefl _)
    · exact found
  | removed agentId number idle own same =>
    refine ⟨ledger_same _ _ same (ledger_remove s agentId number ledger),Nat.le_of_eq same.issued.symm,
      fun other issued _ found => ?_⟩
    rw [same.numbers,numberOf_remove] at found
    split at found
    · cases found
    · exact found

theorem step_ledger (s : System Shared Call) (action : Action Request) (ledger : Ledger s.shared) :
    Ledger (step s action).shared ∧ Follows s.shared (step s action).shared := by
  have still : Ledger s.shared ∧ Follows s.shared s.shared := ⟨ledger,Nat.le_refl _,fun _ _ _ found => found⟩
  cases action with
  | enter k request =>
    rw [step,shared_enter]
    exact still
  | advance k =>
    cases found : s.calls.lookup k with
    | none =>
      rw [step,step_idle entered access s k found]
      exact still
    | some call =>
      rw [step,step_advance entered access s k call found]
      exact access_ledger s.shared call ledger

theorem made_entered (request : Request) : made (entered request) = none := by
  cases request <;> rfl

/-- What a call has made: it had before, or it makes its entry in this step. -/
theorem made_step (s : System Shared Call) (action : Action Request) (k : Nat) (call : Call) (agentId : String)
    (number : Nat) (found : (step s action).calls.lookup k = some call) (has : made call = some (agentId,number)) :
    (∃ earlier, s.calls.lookup k = some earlier ∧ made earlier = some (agentId,number)) ∨
      ∃ earlier state, action = .advance k ∧ s.calls.lookup k = some earlier ∧ number = s.shared.issued ∧
        (step s action).shared = s.shared.insert agentId state := by
  rcases lookup_step entered access s action k call found with before | ⟨request,_,_,rfl⟩ | ⟨earlier,rfl,before,rfl⟩
  · exact Or.inl ⟨call,before,has⟩
  · rw [made_entered] at has
    cases has
  · rcases made_access s.shared earlier with same | ⟨other,inserts,now⟩
    · rw [same] at has
      exact Or.inl ⟨earlier,before,has⟩
    · rw [now] at has
      cases has
      right
      rw [step,step_advance entered access s k earlier before]
      cases access_traffic s.shared earlier with
      | same idle same =>
        rw [inserts] at idle
        cases idle.1
      | inserted id state inserts' idle same =>
        rw [inserts] at inserts'
        cases inserts'
        exact ⟨earlier,state,rfl,before,rfl,same⟩
      | removed id number idle own same =>
        rw [inserts] at idle
        cases idle

theorem step_inv (s : System Shared Call) (action : Action Request) (inv : Inv s) : Inv (step s action) := by
  obtain ⟨ledger,follows⟩ := step_ledger s action inv.ledger
  refine ⟨ledger,?_,?_⟩
  · intro k call agentId number found has
    rcases made_step s action k call agentId number found has with ⟨earlier,before,had⟩ |
      ⟨earlier,state,_,_,rfl,inserted⟩
    · obtain ⟨issued,own⟩ := inv.made k earlier agentId number before had
      exact ⟨Nat.lt_of_lt_of_le issued follows.grows,fun other there => own other (follows.stays other number issued there)⟩
    · refine ⟨?_,fun other there => ?_⟩
      · rw [inserted]
        exact Nat.lt_succ_self _
      · rw [inserted,numberOf_insert] at there
        split at there
        · assumption
        · exact absurd (inv.ledger.below other _ there) (Nat.lt_irrefl _)
  · intro k other call call' agentId agentId' number found found' has has'
    rcases made_step s action k call agentId number found has with ⟨earlier,before,had⟩ | ⟨_,_,rfl,_,rfl,_⟩
    · rcases made_step s action other call' agentId' number found' has' with ⟨earlier',before',had'⟩ | ⟨_,_,_,_,rfl,_⟩
      · exact inv.distinct k other earlier earlier' agentId agentId' number before before' had had'
      · exact absurd (inv.made k earlier agentId _ before had).1 (Nat.lt_irrefl _)
    · rcases made_step s (.advance k) other call' agentId' _ found' has' with ⟨earlier',before',had'⟩ | ⟨_,_,same,_,_,_⟩
      · exact absurd (inv.made other earlier' agentId' _ before' had').1 (Nat.lt_irrefl _)
      · cases same
        rfl

/-- Whoever has made a registration of an id that is still there holds the one in the map. -/
theorem one_of_accounted (s : System Shared Call) (inv : Inv s)
    (accounted : ∀ number < s.shared.issued, number ∈ s.shared.retired ∨
      ∃ agentId, numberOf s.shared agentId = some number) :
    OneRegistration s := by
  refine ⟨accounted,?_⟩
  intro k other call call' agentId number number' found found' has has' live live'
  obtain ⟨issued,own⟩ := inv.made k call agentId number found has
  obtain ⟨issued',own'⟩ := inv.made other call' agentId number' found' has'
  have there : numberOf s.shared agentId = some number := by
    rcases accounted number issued with gone | ⟨id,there⟩
    · exact absurd gone live
    · rw [← own id there]
      exact there
  have there' : numberOf s.shared agentId = some number' := by
    rcases accounted number' issued' with gone | ⟨id,there⟩
    · exact absurd gone live'
    · rw [← own' id there]
      exact there
  rw [there] at there'
  cases there'
  exact inv.distinct k other call call' agentId agentId number found found' has has'

theorem accounted_same (s after : Shared) (same : Same s after) :
    (∀ number < after.issued, number ∈ after.retired ∨ ∃ agentId, numberOf after agentId = some number) ↔
      ∀ number < s.issued, number ∈ s.retired ∨ ∃ agentId, numberOf s agentId = some number := by
  obtain ⟨numbers,issued,retired⟩ := same
  rw [issued,retired]
  simp only [numbers]

/-- An insert loses no registration exactly if its id is free. -/
theorem insert_accounted_iff (s : Shared) (agentId : String) (state : AgentState) (ledger : Ledger s)
    (accounted : ∀ number < s.issued, number ∈ s.retired ∨ ∃ id, numberOf s id = some number) :
    (∀ number < (s.insert agentId state).issued, number ∈ (s.insert agentId state).retired ∨
        ∃ id, numberOf (s.insert agentId state) id = some number) ↔ agentId ∉ s.agents := by
  constructor
  · intro after present
    obtain ⟨number,there⟩ := (mem_iff_numberOf s agentId).mp present
    have old := ledger.below agentId number there
    rcases after number (Nat.lt_succ_of_lt old) with gone | ⟨id,stays⟩
    · exact ledger.live agentId number there gone
    · rw [numberOf_insert] at stays
      split at stays
      · cases stays
        exact Nat.lt_irrefl _ old
      · exact absurd (ledger.apart id agentId number stays there) ‹_›
  · intro free number old
    rcases Nat.lt_succ_iff_lt_or_eq.mp old with before | rfl
    · rcases accounted number before with gone | ⟨id,there⟩
      · exact Or.inl gone
      · refine Or.inr ⟨id,?_⟩
        rw [numberOf_insert,if_neg]
        · exact there
        · rintro rfl
          exact free ((mem_iff_numberOf s id).mpr ⟨number,there⟩)
    · refine Or.inr ⟨agentId,?_⟩
      rw [numberOf_insert,if_pos rfl]

/-- A removal loses no registration exactly if it takes the one it has found, or none. -/
theorem remove_accounted_iff (s : Shared) (agentId : String) (number : Nat) (ledger : Ledger s)
    (accounted : ∀ number < s.issued, number ∈ s.retired ∨ ∃ id, numberOf s id = some number) :
    (∀ old < (s.remove agentId number).issued, old ∈ (s.remove agentId number).retired ∨
        ∃ id, numberOf (s.remove agentId number) id = some old) ↔
      ∀ other, numberOf s agentId = some other → other = number := by
  constructor
  · intro all other there
    by_contra apart
    rcases all other (ledger.below agentId other there) with gone | ⟨id,stays⟩
    · rw [retired_remove,there,if_neg (fun same => apart (Option.some_inj.mp same))] at gone
      exact ledger.live agentId other there gone
    · rw [numberOf_remove] at stays
      split at stays
      · cases stays
      · exact absurd (ledger.apart id agentId other stays there) ‹_›
  · intro found old before
    rcases accounted old before with gone | ⟨id,there⟩
    · left
      rw [retired_remove]
      split
      · exact List.mem_append_left _ gone
      · exact gone
    · by_cases same : id = agentId
      · subst same
        obtain rfl := found old there
        left
        rw [retired_remove,if_pos there]
        exact List.mem_append_right _ List.mem_cons_self
      · exact Or.inr ⟨id,(numberOf_remove s agentId id number).trans ((if_neg same).trans there)⟩

/-- An access loses no registration exactly if it is exclusive. -/
theorem access_accounted_iff (s : Shared) (call : Call) (ledger : Ledger s)
    (accounted : ∀ number < s.issued, number ∈ s.retired ∨ ∃ agentId, numberOf s agentId = some number) :
    (∀ number < (access s call).1.issued, number ∈ (access s call).1.retired ∨
        ∃ agentId, numberOf (access s call).1 agentId = some number) ↔
      (∀ agentId, inserting call = some agentId → agentId ∉ s.agents) ∧
        ∀ agentId number other, removing call = some (agentId,number) → numberOf s agentId = some other →
          other = number := by
  cases access_traffic s call with
  | same idle same =>
    rw [accounted_same s (access s call).1 same,idle.1,idle.2]
    exact ⟨fun _ => ⟨(fun _ clash => by cases clash),(fun _ _ _ clash => by cases clash)⟩,fun _ => accounted⟩
  | inserted agentId state inserts idle same =>
    rw [same,inserts,idle,insert_accounted_iff s agentId state ledger accounted]
    constructor
    · intro free
      refine ⟨?_,(fun _ _ _ clash => by cases clash)⟩
      rintro _ ⟨⟩
      exact free
    · exact fun both => both.1 agentId rfl
  | removed agentId number idle own same =>
    rw [accounted_same _ (access s call).1 same,remove_accounted_iff s agentId number ledger accounted,idle]
    constructor
    · intro found
      refine ⟨(fun _ clash => by cases clash),?_⟩
      intro id given other takes there
      rcases own with own | ⟨none,_⟩
      · rw [own] at takes
        cases takes
        exact found other there
      · rw [none] at takes
        cases takes
    · rintro ⟨_,found⟩ other there
      rcases own with own | ⟨_,own⟩
      · exact found agentId number other own there
      · rw [own] at there
        cases there
        rfl

theorem one_registration_iff (s : System Shared Call) (action : Action Request) (inv : Inv s) (one : OneRegistration s) :
    OneRegistration (step s action) ↔ Exclusive s action := by
  cases action with
  | enter k request =>
    constructor
    · intro _ _ _ clash
      cases clash
    · intro _
      apply one_of_accounted _ (step_inv s _ inv)
      rw [step,shared_enter]
      exact one.accounted
  | advance k =>
    cases found : s.calls.lookup k with
    | none =>
      constructor
      · rintro _ other call ⟨⟩ there
        rw [found] at there
        cases there
      · intro _
        rw [step,step_idle entered access s k found]
        exact one
    | some call =>
      have shared : (step s (.advance k)).shared = (access s.shared call).1 := by
        rw [step,step_advance entered access s k call found]
      have exact' := access_accounted_iff s.shared call inv.ledger one.accounted
      rw [← shared] at exact'
      constructor
      · rintro after other call' ⟨⟩ there
        rw [found] at there
        cases there
        exact exact'.mp after.accounted
      · exact fun exclusive => one_of_accounted _ (step_inv s _ inv) (exact'.mpr (exclusive k call rfl found))

/-- Each id has one registration throughout a run exactly if every entry is made where there is
none, and every call removes the entry it has found. -/
theorem one_registration_per_id_iff (timeout : Nat) (actions : List (Action Request)) :
    Always step OneRegistration (start timeout) actions ↔ Along step Exclusive (start timeout) actions := by
  apply always_iff_along step Exclusive OneRegistration Inv (fun _ => True)
  · exact fun s action inv _ => step_inv s action inv
  · exact fun s action inv _ one => one_registration_iff s action inv one
  · exact fun _ _ => trivial
  · refine ⟨⟨?_,?_,?_,fun _ member => absurd member List.not_mem_nil⟩,?_,?_⟩
    · exact fun _ _ found => by cases found
    · exact fun _ _ found => by cases found
    · exact fun _ _ _ found => by cases found
    · exact fun _ _ _ _ found => by cases found
    · exact fun _ _ _ _ _ _ _ found => by cases found
  · refine ⟨fun _ clash => absurd clash (Nat.not_lt_zero _),?_⟩
    exact fun _ _ _ _ _ _ _ found => by cases found

theorem mem_numbers (s : Shared) (agentId : String) (number : Nat) (there : numberOf s agentId = some number) :
    number ∈ s.agents.entries.map (fun entry => entry.2.number) := by
  obtain ⟨entry,found,rfl⟩ := Option.map_eq_some_iff.mp there
  exact List.mem_map.mpr ⟨⟨agentId,entry⟩,(entry_iff s.agents agentId entry).mpr found,rfl⟩

def config : AgentConfig := ⟨"a","agent",∅⟩

/-- Two calls of `register` check the map before either makes its entry. -/
def twice : List (Action Request) :=
  [.enter 0 (.making (.register 0 config)),.enter 1 (.making (.register 1 config)),.advance 0,.advance 1,
    .advance 0,.advance 1]

/-- While a `terminate` waits for the process, the agent is removed and registered again. -/
def replaced : List (Action Request) :=
  [.enter 0 (.making (.register 0 config)),.advance 0,.advance 0,.advance 0,
    .enter 1 (.ending (.terminate "a" (.ok ()))),.advance 1,.advance 1,
    .enter 2 (.ending (.unregister "a" "gone")),.advance 2,
    .enter 3 (.making (.register 3 config)),.advance 3,.advance 3,.advance 1]

theorem registration_replaced :
    ¬Always step OneRegistration (start 30000) twice ∧ ¬Always step OneRegistration (start 30000) replaced := by
  constructor
  · intro always
    rcases (always_end step OneRegistration (start 30000) twice always).accounted 0 (by decide) with gone | ⟨agentId,there⟩
    · exact absurd gone (by decide)
    · exact absurd (mem_numbers _ agentId 0 there) (by decide)
  · intro always
    rcases (always_end step OneRegistration (start 30000) replaced always).accounted 1 (by decide) with gone | ⟨agentId,there⟩
    · exact absurd gone (by decide)
    · exact absurd (mem_numbers _ agentId 1 there) (by decide)

end ClawKernel.Runtime.Registrations
