import ClawKernel.Runtime.Registrations

/-! What is published of a registration once a call that removes it has begun. -/
namespace ClawKernel.Runtime.Departures
open Lib Lib.Runs Lib.Tables Lifecycle Registrations
open Lib.Interleaving hiding step start
open Orchestrator hiding step new

def Starts : Event → Prop
  | .agentStarted _ => True
  | .agentRestarted .. => True
  | _ => False

/-- After the begin of its removal the registration is not said to start. -/
def Silent (marks : List Mark) (number : Nat) : Prop :=
  ∀ before after event, marks = before ++ .began number :: after → .published number event ∈ after → ¬Starts event

/-- The last event of the registration is that it has stopped. -/
def EndsStopped (marks : List Mark) (number : Nat) : Prop :=
  ∃ before agentId reason after, marks = before ++ .published number (.agentStopped agentId reason) :: after ∧
    ∀ event, Mark.published number event ∉ after

structure StaysDead (s : System Shared Call) : Prop where
  silent : ∀ number, Silent s.shared.marks number
  last : ∀ k ending number result, s.calls.lookup k = some (.ending ending (.returned (some number) result)) →
    EndsStopped s.shared.marks number

/-- The registrations whose start the call is to publish, whatever else happens. -/
def starting : Call → List Nat
  | .making _ (.inserted number) => [number]
  | .making _ (.supervised number) => [number]
  | .sweep _ _ (.collecting _ _ picked) => picked.map Prod.snd
  | .sweep _ _ (.restarting picked) => picked.map Prod.snd
  | .sweep _ _ (.announcing _ number picked) => number :: picked.map Prod.snd
  | .exit exit (.woken _ _) => [exit.number]
  | .exit exit (.looped _ _) => [exit.number]
  | .exit exit (.restarted _ _) => [exit.number]
  | _ => []

/-- The registration whose removal begins with this access. -/
def beginning (s : Shared) : Call → Option Nat
  | .ending ending .entered => numberOf s ending.agentId
  | _ => none

/-- The registration that a sweep picks, or that a restart finds its agent for. -/
def reviving (s : Shared) : Call → Option Nat
  | .sweep _ _ (.collecting maxRestarts (agentId :: _) _) => (sweepPick s maxRestarts agentId).map Prod.snd
  | .exit exit (.sleeping _ _) => if exit.agentId ∈ s.agents then some exit.number else none
  | _ => none

/-- The registration of which `AgentFailed` is published next. -/
def failing : Call → Option Nat
  | .exit exit (.dropped _) => some exit.number
  | _ => none

/-- A removal begins when no start is on its way, nothing is revived after that, and no failure
is published of a registration that is gone. -/
def Undisturbed (s : System Shared Call) (action : Action Request) : Prop :=
  ∀ k call, action = .advance k → s.calls.lookup k = some call →
    (∀ number, beginning s.shared call = some number → ∀ j other, s.calls.lookup j = some other → number ∉ starting other) ∧
    (∀ number, reviving s.shared call = some number → Mark.began number ∉ s.shared.marks) ∧
    ∀ number, failing call = some number →
      ∀ j ending result, s.calls.lookup j ≠ some (.ending ending (.returned (some number) result))

/-- What an access adds to the marks. -/
inductive Adds (s : Shared) (call : Call) : List Mark → Prop
  | nothing (idle : beginning s call = none) : Adds s call s.marks
  | began (number : Nat) (begins : beginning s call = some number) : Adds s call (s.marks ++ [.began number])
  | started (number : Nat) (event : Event) (idle : beginning s call = none) (pending : number ∈ starting call) :
      Adds s call (s.marks ++ [.published number event])
  | stopped (number : Nat) (agentId reason : String) (idle : beginning s call = none) :
      Adds s call (s.marks ++ [.published number (.agentStopped agentId reason)])
  | failed (number : Nat) (agentId reason : String) (attempts : Nat) (idle : beginning s call = none)
      (fails : failing call = some number) :
      Adds s call (s.marks ++ [.published number (.agentFailed agentId attempts reason)])

theorem making_adds (s : Shared) (making : Making) (phase : MakingPhase) :
    Adds s (.making making phase) (makingTurn s making phase).1.marks := by
  cases phase with
  | entered =>
    simp only [makingTurn]
    split <;> exact .nothing rfl
  | checked =>
    cases making with
    | register now config => exact .nothing rfl
    | spawn now config spawned =>
      cases spawned with
      | error message => exact .nothing rfl
      | ok pid => exact .nothing rfl
    | spawnAgent now agentId name policy => exact .nothing rfl
  | spawned pid => cases making <;> exact .nothing rfl
  | inserted number =>
    cases making with
    | register now config => exact .started number _ rfl List.mem_cons_self
    | spawn now config spawned => exact .started number _ rfl List.mem_cons_self
    | spawnAgent now agentId name policy => exact .nothing rfl
  | supervised number => exact .started number _ rfl List.mem_cons_self
  | published number => exact .nothing rfl
  | returned result => exact .nothing rfl

theorem take_adds (s : Shared) (ending : Ending) (status : AgentStatus) :
    Adds s (.ending ending .entered) (take s ending.agentId status).1.marks := by
  cases found : s.agents.lookup ending.agentId with
  | none =>
    simp only [take,found]
    exact .nothing (congrArg (Option.map Entry.number) found)
  | some entry =>
    simp only [take,found]
    exact .began entry.number (congrArg (Option.map Entry.number) found)

theorem ending_adds (s : Shared) (ending : Ending) (phase : EndingPhase) :
    Adds s (.ending ending phase) (endingTurn s ending phase).1.marks := by
  cases phase with
  | entered =>
    cases ending with
    | unregister agentId reason =>
      cases found : s.agents.lookup agentId with
      | none =>
        simp only [endingTurn,found]
        exact .nothing (congrArg (Option.map Entry.number) found)
      | some entry =>
        simp only [endingTurn,found]
        exact .began entry.number (congrArg (Option.map Entry.number) found)
    | terminate agentId answer => exact take_adds s (.terminate agentId answer) .stopped
    | kill agentId answer => exact take_adds s (.kill agentId answer) .error
  | taken number state => cases ending <;> exact .nothing rfl
  | waited number result => exact .nothing rfl
  | removed number result =>
    cases ending with
    | unregister agentId reason => exact .nothing rfl
    | terminate agentId answer => exact .stopped number _ _ rfl
    | kill agentId answer => exact .nothing rfl
  | cleared number result => exact .stopped number _ _ rfl
  | returned number result => exact .nothing rfl

theorem health_adds (s : Shared) (now : Nat) (phase : HealthPhase) :
    Adds s (.health now phase) (healthTurn s now phase).1.marks := by
  unfold healthTurn
  split <;> exact .nothing rfl

theorem sweep_adds (s : Shared) (now : Nat) (visits : List String) (phase : SweepPhase) :
    Adds s (.sweep now visits phase) (sweepTurn s now visits phase).1.marks := by
  unfold sweepTurn
  split
  · split <;> exact .nothing rfl
  · exact .nothing rfl
  · exact .nothing rfl
  · exact .nothing rfl
  · exact .nothing rfl
  · exact .started _ _ rfl List.mem_cons_self

theorem exit_adds (s : Shared) (exit : Exit) (phase : ExitPhase) :
    Adds s (.exit exit phase) (exitTurn s exit phase).1.marks := by
  unfold exitTurn
  split
  · split <;> exact .nothing rfl
  · exact .nothing rfl
  · exact .stopped exit.number _ _ rfl
  · split <;> exact .nothing rfl
  · exact .nothing rfl
  · exact .nothing rfl
  · exact .failed exit.number _ _ _ rfl rfl
  · split <;> exact .nothing rfl
  · exact .nothing rfl
  · split <;> exact .nothing rfl
  · split <;> exact .nothing rfl
  · exact .nothing rfl
  · exact .started exit.number _ rfl List.mem_cons_self
  · exact .nothing rfl

theorem access_adds (s : Shared) (call : Call) : Adds s call (access s call).1.marks := by
  cases call with
  | making making phase => exact making_adds s making phase
  | ending ending phase => exact ending_adds s ending phase
  | health now phase => exact health_adds s now phase
  | sweep now visits phase => exact sweep_adds s now visits phase
  | exit exit phase => exact exit_adds s exit phase
  | enableAutoRestart policy => exact .nothing rfl
  | announceCapabilities agentId capabilities => exact .nothing rfl
  | done => exact .nothing rfl

/-- What a call is to publish after an access: that it was to publish before, a registration it
has just made, or one it revives. -/
theorem making_starting (s : Shared) (making : Making) (phase : MakingPhase) (number : Nat)
    (pending : number ∈ starting (.making making (makingTurn s making phase).2)) :
    number ∈ starting (.making making phase) ∨ number = s.issued := by
  cases phase with
  | entered =>
    simp only [makingTurn] at pending
    split at pending <;> cases pending
  | checked =>
    cases making with
    | register now config => exact Or.inr (List.mem_singleton.mp pending)
    | spawn now config spawned => cases spawned <;> cases pending
    | spawnAgent now agentId name policy => exact Or.inr (List.mem_singleton.mp pending)
  | spawned pid =>
    cases making with
    | register now config => cases pending
    | spawn now config spawned => exact Or.inr (List.mem_singleton.mp pending)
    | spawnAgent now agentId name policy => cases pending
  | inserted published =>
    cases making with
    | register now config => cases pending
    | spawn now config spawned => cases pending
    | spawnAgent now agentId name policy => exact Or.inl pending
  | supervised published => cases pending
  | published published => cases pending
  | returned result => cases pending

theorem sweep_starting (s : Shared) (now : Nat) (visits : List String) (phase : SweepPhase) (number : Nat)
    (pending : number ∈ starting (.sweep now visits (sweepTurn s now visits phase).2)) :
    number ∈ starting (.sweep now visits phase) ∨ reviving s (.sweep now visits phase) = some number := by
  cases phase with
  | entered =>
    simp only [sweepTurn] at pending
    split at pending <;> cases pending
  | collecting maxRestarts left picked =>
    cases left with
    | nil => exact Or.inl pending
    | cons agentId left =>
      simp only [sweepTurn,starting,List.map_append,List.mem_append] at pending
      rcases pending with before | now
      · exact Or.inl before
      · right
        cases picks : sweepPick s maxRestarts agentId with
        | none =>
          rw [picks] at now
          cases now
        | some pick =>
          rw [picks] at now
          simp only [reviving,picks,Option.map_some]
          exact congrArg some (List.mem_singleton.mp now).symm
  | restarting picked => cases picked <;> exact Or.inl pending
  | announcing agentId announced picked => exact Or.inl (List.mem_cons_of_mem _ pending)

theorem exit_starting (s : Shared) (exit : Exit) (phase : ExitPhase) (number : Nat)
    (pending : number ∈ starting (.exit exit (exitTurn s exit phase).2)) :
    number ∈ starting (.exit exit phase) ∨ reviving s (.exit exit phase) = some number := by
  cases phase with
  | entered =>
    simp only [exitTurn] at pending
    split at pending <;> cases pending
  | stopped =>
    simp only [exitTurn] at pending
    split at pending <;> cases pending
  | due =>
    simp only [exitTurn] at pending
    split at pending <;> cases pending
  | sleeping attempt delayMs =>
    simp only [exitTurn] at pending
    split at pending
    · rename_i present
      right
      rw [reviving,if_pos present]
      exact congrArg some (List.mem_singleton.mp pending).symm
    · cases pending
  | woken attempt delayMs => exact Or.inl (List.mem_singleton.mpr (by
      simp only [exitTurn] at pending
      split at pending <;> exact List.mem_singleton.mp pending))
  | looped attempt delayMs => exact Or.inl pending
  | _ => cases pending

theorem access_starting (s : Shared) (call : Call) (number : Nat) (pending : number ∈ starting (access s call).2) :
    number ∈ starting call ∨ number = s.issued ∨ reviving s call = some number := by
  cases call with
  | making making phase => exact (making_starting s making phase number pending).imp_right Or.inl
  | sweep now visits phase => exact (sweep_starting s now visits phase number pending).imp_right Or.inr
  | exit exit phase => exact (exit_starting s exit phase number pending).imp_right Or.inr
  | _ => cases pending

/-- The registration that a call has begun to remove. -/
def removes : EndingPhase → Option Nat
  | .entered => none
  | .taken number _ => some number
  | .waited number _ => some number
  | .removed number _ => some number
  | .cleared number _ => some number
  | .returned number _ => number

theorem take_removes (s : Shared) (agentId : String) (status : AgentStatus) :
    removes (take s agentId status).2 = numberOf s agentId := by
  unfold take numberOf
  split
  · rename_i absent
    rw [absent]
    rfl
  · rename_i entry found
    rw [found]
    rfl

theorem ending_removes (s : Shared) (ending : Ending) (phase : EndingPhase) :
    removes (endingTurn s ending phase).2 = removes phase ∨
      removes (endingTurn s ending phase).2 = beginning s (.ending ending phase) := by
  cases phase with
  | entered =>
    right
    cases ending with
    | unregister agentId reason =>
      unfold endingTurn beginning numberOf Ending.agentId
      dsimp only
      split
      · rename_i absent
        rw [absent]
        rfl
      · rename_i entry found
        rw [found]
        rfl
    | terminate agentId answer => exact take_removes s agentId .stopped
    | kill agentId answer => exact take_removes s agentId .error
  | _ => cases ending <;> exact Or.inl rfl

/-- A call returns as it publishes that the registration has stopped. -/
theorem ending_returned (s : Shared) (ending : Ending) (phase : EndingPhase) (number : Nat)
    (result : Except RuntimeError Unit)
    (returns : (endingTurn s ending phase).2 = .returned (some number) result) :
    phase = .returned (some number) result ∨ ∃ reason, (endingTurn s ending phase).1.marks =
      s.marks ++ [.published number (.agentStopped ending.agentId reason)] := by
  cases phase with
  | entered =>
    cases ending with
    | unregister agentId reason =>
      unfold endingTurn at returns
      dsimp only at returns
      split at returns <;> cases returns
    | terminate agentId answer =>
      unfold endingTurn take at returns
      dsimp only at returns
      split at returns <;> cases returns
    | kill agentId answer =>
      unfold endingTurn take at returns
      dsimp only at returns
      split at returns <;> cases returns
  | taken took state => cases ending <;> cases returns
  | waited took answer => cases returns
  | removed took answer =>
    cases ending with
    | unregister agentId reason => cases returns
    | terminate agentId answer =>
      cases returns
      exact Or.inr ⟨"terminated",rfl⟩
    | kill agentId answer => cases returns
  | cleared took answer =>
    cases returns
    exact Or.inr ⟨ending.reason,rfl⟩
  | returned took answer => exact Or.inl returns

theorem silent_append (marks : List Mark) (mark : Mark) (number : Nat) (silent : Silent marks number)
    (quiet : ∀ event, mark = .published number event → Starts event → Mark.began number ∉ marks) :
    Silent (marks ++ [mark]) number := by
  intro before after event split member starts
  rcases List.eq_nil_or_concat after with rfl | ⟨after,last,rfl⟩
  · cases member
  · rw [List.concat_eq_append,← List.cons_append,← List.append_assoc] at split
    obtain ⟨rfl,same⟩ := List.append_inj' split rfl
    cases same
    rw [List.concat_eq_append] at member
    rcases List.mem_append.mp member with old | new
    · exact silent before after event rfl old starts
    · exact quiet event (List.mem_singleton.mp new).symm starts (List.mem_append_right _ List.mem_cons_self)

theorem endsStopped_append (marks : List Mark) (mark : Mark) (number : Nat) (ends : EndsStopped marks number)
    (other : ∀ event, mark = .published number event → ∃ agentId reason, event = .agentStopped agentId reason) :
    EndsStopped (marks ++ [mark]) number := by
  by_cases own : ∃ event, mark = .published number event
  · obtain ⟨event,rfl⟩ := own
    obtain ⟨agentId,reason,rfl⟩ := other event rfl
    exact ⟨marks,agentId,reason,[],rfl,fun _ => List.not_mem_nil⟩
  · obtain ⟨before,agentId,reason,after,rfl,none⟩ := ends
    refine ⟨before,agentId,reason,after ++ [mark],by rw [List.append_assoc,List.cons_append],fun event member => ?_⟩
    rcases List.mem_append.mp member with old | new
    · exact none event old
    · exact own ⟨event,(List.mem_singleton.mp new).symm⟩

theorem endsStopped_last (marks : List Mark) (number : Nat) (event : Event)
    (ends : EndsStopped (marks ++ [.published number event]) number) :
    ∃ agentId reason, event = .agentStopped agentId reason := by
  obtain ⟨before,agentId,reason,after,split,none⟩ := ends
  rcases List.eq_nil_or_concat after with rfl | ⟨after,last,rfl⟩
  · cases List.append_inj_right' split rfl
    exact ⟨agentId,reason,rfl⟩
  · rw [List.concat_eq_append,← List.cons_append,← List.append_assoc] at split
    cases List.append_inj_right' split rfl
    have member : Mark.published number event ∈ after.concat (.published number event) := by
      rw [List.concat_eq_append]
      exact List.mem_concat_self
    exact absurd member (none event)

theorem below_of_beginning (s : Shared) (call : Call) (number : Nat) (ledger : Ledger s)
    (begins : beginning s call = some number) : number < s.issued := by
  unfold beginning at begins
  split at begins
  · exact ledger.below _ number begins
  · cases begins

/-- The call that begins to remove a registration is not to start one. -/
theorem quiet_of_beginning (s : Shared) (call : Call) (number other : Nat) (begins : beginning s call = some number) :
    other ∉ starting (access s call).2 := by
  unfold beginning at begins
  split at begins
  · exact List.not_mem_nil
  · cases begins

theorem ending_of_access (s : Shared) (call : Call) (ending : Ending) (phase : EndingPhase)
    (after : (access s call).2 = .ending ending phase) :
    ∃ earlier, call = .ending ending earlier ∧ phase = (endingTurn s ending earlier).2 := by
  cases call with
  | ending ending' earlier =>
    cases after
    exact ⟨earlier,rfl,rfl⟩
  | _ => cases after

structure Inv (s : System Shared Call) : Prop where
  ledger : Ledger s.shared
  issued : ∀ number, .began number ∈ s.shared.marks → number < s.shared.issued
  quiet : ∀ k call number, s.calls.lookup k = some call → .began number ∈ s.shared.marks → number ∉ starting call
  begun : ∀ k ending phase number, s.calls.lookup k = some (.ending ending phase) → removes phase = some number →
    .began number ∈ s.shared.marks
  dead : StaysDead s

theorem began_access (s : Shared) (call : Call) (number : Nat) :
    .began number ∈ (access s call).1.marks ↔ .began number ∈ s.marks ∨ beginning s call = some number := by
  have adds := access_adds s call
  generalize (access s call).1.marks = marks at adds ⊢
  cases adds with
  | nothing idle =>
    rw [idle]
    exact ⟨Or.inl,fun either => either.resolve_right nofun⟩
  | began begun begins =>
    rw [begins,List.mem_append,List.mem_singleton,Mark.began.injEq,Option.some.injEq,eq_comm]
  | started other event idle pending =>
    rw [idle,List.mem_append,List.mem_singleton]
    exact ⟨fun either => either.imp_right nofun,fun either => either.imp_right nofun⟩
  | stopped other agentId reason idle =>
    rw [idle,List.mem_append,List.mem_singleton]
    exact ⟨fun either => either.imp_right nofun,fun either => either.imp_right nofun⟩
  | failed other agentId reason attempts idle fails =>
    rw [idle,List.mem_append,List.mem_singleton]
    exact ⟨fun either => either.imp_right nofun,fun either => either.imp_right nofun⟩

/-- What is silent stays so in an access, unless the access publishes a start of it. -/
theorem access_silent (s : Shared) (call : Call) (number : Nat) (silent : Silent s.marks number)
    (quiet : .began number ∈ s.marks → number ∉ starting call) : Silent (access s call).1.marks number := by
  have adds := access_adds s call
  generalize (access s call).1.marks = marks at adds ⊢
  cases adds with
  | nothing idle => exact silent
  | began begun begins => exact silent_append s.marks _ number silent nofun
  | started other event idle pending =>
    apply silent_append s.marks _ number silent
    rintro event' ⟨⟩ starts began
    exact quiet began pending
  | stopped other agentId reason idle =>
    apply silent_append s.marks _ number silent
    rintro event' ⟨⟩ starts
    exact starts.elim
  | failed other agentId reason attempts idle fails =>
    apply silent_append s.marks _ number silent
    rintro event' ⟨⟩ starts
    exact starts.elim

theorem access_endsStopped (s : Shared) (call : Call) (number : Nat) (ends : EndsStopped s.marks number)
    (quiet : number ∉ starting call) (lasting : failing call ≠ some number) :
    EndsStopped (access s call).1.marks number := by
  have adds := access_adds s call
  generalize (access s call).1.marks = marks at adds ⊢
  cases adds with
  | nothing idle => exact ends
  | began begun begins => exact endsStopped_append s.marks _ number ends nofun
  | started other event idle pending =>
    apply endsStopped_append s.marks _ number ends
    rintro event' ⟨⟩
    exact absurd pending quiet
  | stopped other agentId reason idle =>
    apply endsStopped_append s.marks _ number ends
    rintro event' ⟨⟩
    exact ⟨agentId,reason,rfl⟩
  | failed other agentId reason attempts idle fails =>
    apply endsStopped_append s.marks _ number ends
    rintro event' ⟨⟩
    exact absurd fails lasting

theorem inv_enter (s : System Shared Call) (k : Nat) (request : Request) (inv : Inv s) : Inv (step s (.enter k request)) := by
  have shared : (step s (.enter k request)).shared = s.shared := shared_enter entered access s k request
  have calls := lookup_enter entered access s k request
  refine ⟨by rw [shared]; exact inv.ledger,by rw [shared]; exact inv.issued,?_,?_,by rw [shared]; exact inv.dead.silent,?_⟩
  · rw [shared]
    intro other call number found began
    rcases calls other call found with before | rfl
    · exact inv.quiet other call number before began
    · cases request <;> exact List.not_mem_nil
  · rw [shared]
    intro other ending phase number found removing
    rcases calls other _ found with before | enters
    · exact inv.begun other ending phase number before removing
    · cases request <;> cases enters
      cases removing
  · rw [shared]
    intro other ending number result found
    rcases calls other _ found with before | enters
    · exact inv.dead.last other ending number result before
    · cases request <;> cases enters

/-- Of what has begun to be removed no call has a start to publish, after the step either. -/
theorem quiet_advance (s : System Shared Call) (k : Nat) (call : Call) (inv : Inv s) (found : s.calls.lookup k = some call)
    (undisturbed : Undisturbed s (.advance k)) (other : Nat) (call' : Call) (number : Nat)
    (found' : (step s (.advance k)).calls.lookup other = some call')
    (began : Mark.began number ∈ (access s.shared call).1.marks) : number ∉ starting call' := by
  obtain ⟨unstarted,unrevived,_⟩ := undisturbed k call rfl found
  have calls := lookup_advance entered access s k call found other call' found'
  rcases (began_access s.shared call number).mp began with before | begins
  · rcases calls with was | rfl
    · exact inv.quiet other call' number was before
    · intro pending
      rcases access_starting s.shared call number pending with old | rfl | revived
      · exact inv.quiet k call number found before old
      · exact Nat.lt_irrefl _ (inv.issued _ before)
      · exact unrevived number revived before
  · rcases calls with was | rfl
    · exact unstarted number begins other call' was
    · exact quiet_of_beginning s.shared call number number begins

/-- A removal that has returned has published the last event. -/
theorem last_advance (s : System Shared Call) (k : Nat) (call : Call) (inv : Inv s) (found : s.calls.lookup k = some call)
    (undisturbed : Undisturbed s (.advance k)) (other : Nat) (ending : Ending) (number : Nat)
    (result : Except RuntimeError Unit)
    (found' : (step s (.advance k)).calls.lookup other = some (.ending ending (.returned (some number) result))) :
    EndsStopped (access s.shared call).1.marks number := by
  obtain ⟨_,_,lasting⟩ := undisturbed k call rfl found
  have kept : ∀ j, s.calls.lookup j = some (.ending ending (.returned (some number) result)) →
      EndsStopped (access s.shared call).1.marks number := by
    intro j was
    apply access_endsStopped s.shared call number (inv.dead.last j ending number result was)
    · exact inv.quiet k call number found (inv.begun j ending _ number was rfl)
    · exact fun fails => lasting number fails j ending result was
  rcases lookup_advance entered access s k call found other _ found' with was | now
  · exact kept other was
  · obtain ⟨earlier,rfl,returns⟩ := ending_of_access s.shared call ending _ now.symm
    rcases ending_returned s.shared ending earlier number result returns.symm with rfl | ⟨reason,marks⟩
    · exact kept k found
    · exact ⟨s.shared.marks,ending.agentId,reason,[],marks,fun _ => List.not_mem_nil⟩

theorem inv_advance (s : System Shared Call) (k : Nat) (call : Call) (inv : Inv s) (found : s.calls.lookup k = some call)
    (undisturbed : Undisturbed s (.advance k)) : Inv (step s (.advance k)) := by
  obtain ⟨ledger,follows⟩ := access_ledger s.shared call inv.ledger
  have shared : (step s (.advance k)).shared = (access s.shared call).1 := by
    rw [step,step_advance entered access s k call found]
  refine ⟨?_,?_,?_,?_,?_,?_⟩
  · rw [shared]
    exact ledger
  · rw [shared]
    intro number began
    rcases (began_access s.shared call number).mp began with before | begins
    · exact Nat.lt_of_lt_of_le (inv.issued number before) follows.grows
    · exact Nat.lt_of_lt_of_le (below_of_beginning s.shared call number inv.ledger begins) follows.grows
  · rw [shared]
    exact quiet_advance s k call inv found undisturbed
  · rw [shared]
    intro other ending phase number found' removing
    rw [began_access]
    rcases lookup_advance entered access s k call found other _ found' with was | now
    · exact Or.inl (inv.begun other ending phase number was removing)
    · obtain ⟨earlier,rfl,rfl⟩ := ending_of_access s.shared call ending phase now.symm
      rcases ending_removes s.shared ending earlier with same | begins
      · exact Or.inl (inv.begun k ending earlier number found (same.symm.trans removing))
      · exact Or.inr (begins.symm.trans removing)
  · rw [shared]
    exact fun number => access_silent s.shared call number (inv.dead.silent number) (inv.quiet k call number found)
  · rw [shared]
    exact last_advance s k call inv found undisturbed

theorem inv_kept (s : System Shared Call) (action : Action Request)
    (inv : Inv s) (undisturbed : Undisturbed s action) : Inv (step s action) := by
  cases action with
  | enter k request => exact inv_enter s k request inv
  | advance k =>
    cases found : s.calls.lookup k with
    | none =>
      rw [step,step_idle entered access s k found]
      exact inv
    | some call => exact inv_advance s k call inv found undisturbed

/-- Dead stays dead in every run in which a removal begins when no start is on its way, nothing
is revived after that, and no failure is published of a registration that is gone. -/
theorem dead_stays_dead (timeout : Nat) (actions : List (Action Request))
    (undisturbed : Along step Undisturbed (Registrations.start timeout) actions) :
    Always step StaysDead (Registrations.start timeout) actions := by
  apply always_mono step Inv StaysDead (fun s inv => inv.dead)
  refine always_of_along step Undisturbed Inv inv_kept _ actions ?_ undisturbed
  refine ⟨⟨?_,?_,?_,fun _ member => absurd member List.not_mem_nil⟩,fun _ member => absurd member List.not_mem_nil,
    ?_,?_,⟨?_,?_⟩⟩
  · exact fun _ _ found => by cases found
  · exact fun _ _ found => by cases found
  · exact fun _ _ _ found => by cases found
  · exact fun _ _ _ found => by cases found
  · exact fun _ _ _ _ found => by cases found
  · intro number before after event split
    exact absurd split.symm (List.append_ne_nil_of_right_ne_nil before (List.cons_ne_nil _ _))
  · exact fun _ _ _ _ found => by cases found

def agent : AgentConfig := ⟨"a","agent",∅⟩

def advances (k steps : Nat) : List (Action Request) := List.replicate steps (.advance k)

/-- An agent is registered and killed, and nothing else happens meanwhile. -/
def alone : List (Action Request) :=
  .enter 0 (.making (.register 0 agent)) :: (advances 0 3 ++ .enter 1 (.ending (.kill "a" (.ok ()))) :: advances 1 5)

/-- While a `kill` waits for the process, the auto-restart task finds the agent failed. -/
def swept : List (Action Request) :=
  .enter 0 (.making (.register 0 agent)) :: (advances 0 3 ++ .enter 1 (.enableAutoRestart ⟨true,3⟩) :: advances 1 1 ++
    .enter 2 (.ending (.kill "a" (.ok ()))) :: advances 2 1 ++ .enter 3 (.sweep 5 ["a"]) :: advances 3 5)

/-- A restart finds the agent before `terminate` begins, and publishes after that. -/
def woken : List (Action Request) :=
  .enter 0 (.making (.spawnAgent 0 "a" "agent" ⟨3,fun _ => 1000⟩)) :: (advances 0 5 ++
    .enter 1 (.exit ⟨"a",0,"ipc_loop_panic",1⟩) :: advances 1 7 ++
    .enter 2 (.ending (.terminate "a" (.ok ()))) :: advances 2 1 ++
    advances 1 3)

/-- The message loop of a terminated agent ends, and the agent is published to have failed. -/
def failed : List (Action Request) :=
  .enter 0 (.making (.spawnAgent 0 "a" "agent" ⟨0,fun _ => 1000⟩)) :: (advances 0 5 ++
    .enter 1 (.ending (.terminate "a" (.ok ()))) :: advances 1 4 ++
    .enter 2 (.exit ⟨"a",0,"ipc_loop_exit",1⟩) :: advances 2 7)

theorem undisturbed_enter (s : System Shared Call) (k : Nat) (request : Request) : Undisturbed s (.enter k request) :=
  fun _ _ clash => by cases clash

theorem undisturbed_idle (s : System Shared Call) (k : Nat) (call : Call) (found : s.calls.lookup k = some call)
    (idle : beginning s.shared call = none ∧ reviving s.shared call = none ∧ failing call = none) :
    Undisturbed s (.advance k) := by
  rintro other call' ⟨⟩ found'
  rw [found] at found'
  cases found'
  rw [idle.1,idle.2.1,idle.2.2]
  exact ⟨nofun,nofun,nofun⟩

theorem dead_stays_dead_alone : Always step StaysDead (Registrations.start 30000) alone := by
  apply dead_stays_dead 30000 alone
  refine ⟨undisturbed_enter _ _ _,undisturbed_idle _ 0 _ rfl ⟨rfl,rfl,rfl⟩,undisturbed_idle _ 0 _ rfl ⟨rfl,rfl,rfl⟩,
    undisturbed_idle _ 0 _ rfl ⟨rfl,rfl,rfl⟩,undisturbed_enter _ _ _,?_,undisturbed_idle _ 1 _ rfl ⟨rfl,rfl,rfl⟩,
    undisturbed_idle _ 1 _ rfl ⟨rfl,rfl,rfl⟩,undisturbed_idle _ 1 _ rfl ⟨rfl,rfl,rfl⟩,
    undisturbed_idle _ 1 _ rfl ⟨rfl,rfl,rfl⟩,trivial⟩
  rintro k call ⟨⟩ found
  cases found
  refine ⟨?_,(fun _ clash => by cases clash),(fun _ clash => by cases clash)⟩
  -- The registering call has returned and the other is just entered.
  intro number _ j other there
  have member := (entry_iff _ j other).mpr there
  rcases List.mem_cons.mp member with same | rest
  · cases same
    exact List.not_mem_nil
  · cases List.mem_singleton.mp rest
    exact List.not_mem_nil

theorem dead_agent_starts :
    ¬Always step StaysDead (Registrations.start 30000) swept ∧ ¬Always step StaysDead (Registrations.start 30000) woken ∧
      ¬Always step StaysDead (Registrations.start 30000) failed := by
  refine ⟨?_,?_,?_⟩
  · intro always
    have last := always_end step StaysDead (Registrations.start 30000) swept always
    exact last.silent 0 [.published 0 (.agentStarted "a")] [.published 0 (.agentStarted "a")] (.agentStarted "a") (by decide)
      List.mem_cons_self trivial
  · intro always
    have last := always_end step StaysDead (Registrations.start 30000) woken always
    exact last.silent 0 [.published 0 (.agentStarted "a"),.published 0 (.agentStopped "a" "ipc_loop_panic")]
      [.published 0 (.agentRestarted "a" 1 1000)] (.agentRestarted "a" 1 1000) (by decide) List.mem_cons_self trivial
  · intro always
    have last := always_end step StaysDead (Registrations.start 30000) failed always
    have ends : EndsStopped _ 0 := last.last 1 (.terminate "a" (.ok ())) 0 (.ok ()) rfl
    obtain ⟨agentId,reason,same⟩ := endsStopped_last ((run step (Registrations.start 30000) failed).shared.marks.take 4) 0
      (.agentFailed "a" 0 "ipc_loop_exit") ends
    cases same

end ClawKernel.Runtime.Departures
