import ClawKernel.Lib.Interleaving
import ClawKernel.Tools.Registry

/-! Calls of `execute` on one registry with a sandbox applier. The mode, the sandbox state and
the permissions are consulted one after another, and between two of these accesses other
calls move and guards switch the mode.
-/
namespace ClawKernel.Tools.SandboxGate
open Lib Lib.Runs Lib.Tables Lib.Interleaving Registry

structure Request where
  now : Nat
  name : String
  args : Json.Value
  ctx : ToolContext

/-- Where a call stands: the tool found, the mode read, the sandbox passed, the permissions
checked, the tool started. -/
inductive Phase where
  | entered
  | found (tool : Tool)
  | resolved (tool : Tool) (mode : RegistryExecutionMode)
  | gated (tool : Tool) (mode : RegistryExecutionMode)
  | permitted (tool : Tool) (mode : RegistryExecutionMode)
  | started (tool : Tool)
  | returned (result : Except RegistryError ToolResult)

/-- A call with the mode in which it has started its tool, if it has, and whether the sandbox
had failed when it began. -/
structure Call where
  request : Request
  phase : Phase
  ran : Option RegistryExecutionMode
  late : Bool

/-- The registry and its guards, and how often `apply_safe_mode` was called. -/
structure Shared where
  held : Held
  applied : Nat

def Shared.sandbox (s : Shared) : Option (Except String Unit) := s.held.registry.sandboxState

def Shared.put (s : Shared) (registry : ToolRegistry) : Shared := { s with held := { s.held with registry := registry } }

def failed : Option (Except String Unit) → Bool
  | some (.error _) => true
  | _ => false

/-- A registry with these tools, made by `new` and `with_sandbox_applier`. -/
def withSandboxApplier (tools : String → Option Tool) (applied : Except String Unit) : Shared :=
  ⟨⟨{ new with tools := tools, sandboxApplier := some applied },[],0⟩,0⟩

section Execute
variable (glob : String → Option (String → Bool))

def entered (request : Request) : Call := ⟨request,.entered,none,false⟩

/-- `get_or_init` on the sandbox state. -/
def gate (s : Shared) : Shared × Option RegistryError :=
  let after := applySandbox s.held.registry
  ({ s.put after.1 with
      applied := if s.sandbox.isNone && s.held.registry.sandboxApplier.isSome then s.applied + 1 else s.applied },
    after.2)

def access (s : Shared) (call : Call) : Shared × Call :=
  let registry := s.held.registry
  match call.phase with
  | .entered =>
    match registry.tools call.request.name with
    | none => (s,{ call with phase := .returned (.error (.toolNotFound call.request.name)), late := failed s.sandbox })
    | some tool => (s,{ call with phase := .found tool, late := failed s.sandbox })
  | .found tool =>
    (s,{ call with phase := .resolved tool (effectiveMode registry.globalMode call.request.ctx.executionMode) })
  | .resolved tool .power => (s,{ call with phase := .gated tool .power })
  | .resolved tool .safe =>
    match gate s with
    | (after,some error) => (after,{ call with phase := .returned (.error error) })
    | (after,none) => (after,{ call with phase := .gated tool .safe })
  | .gated tool .power => (s,{ call with phase := .permitted tool .power })
  | .gated tool .safe =>
    match checkPermissions glob call.request.name tool.permissions call.request.ctx.permissions with
    | some error => (s,{ call with phase := .returned (.error error) })
    | none => (s,{ call with phase := .permitted tool .safe })
  | .permitted tool mode =>
    (s.put { registry with auditCounter := registry.auditCounter + 1 },
      { call with phase := .started tool, ran := some mode })
  | .started tool =>
    let (result,elapsed) := finish tool call.request.args call.request.ctx
    (s.put (insertLog registry ⟨call.request.now,call.request.ctx.agentId,call.request.name,result.success,elapsed⟩),
      { call with phase := .returned (.ok result) })
  | .returned _ => (s,call)

inductive Turn where
  | call (action : Action Request)
  | enterPowerMode (powerKey : String) (verify : String → Bool)
  | dropGuard (guard : Nat)

def step (s : System Shared Call) : Turn → System Shared Call
  | .call action => Interleaving.step entered (access glob) s action
  | .enterPowerMode powerKey verify =>
    { s with shared := { s.shared with held := (enterPowerMode s.shared.held powerKey verify).1 } }
  | .dropGuard guard => { s with shared := { s.shared with held := Registry.dropGuard s.shared.held guard } }

/-- `apply_safe_mode` is called once at most, no tool is started in Safe mode before it has
succeeded, and a call begun after it has failed is refused. -/
structure FailClosed (s : System Shared Call) : Prop where
  once : s.shared.applied ≤ 1
  safe : ∀ n call, s.calls.lookup n = some call → call.ran = some .safe → s.shared.sandbox = some (.ok ())
  refuses : ∀ n call, s.calls.lookup n = some call → call.late = true → call.ran = none ∧
    ∀ result, call.phase = .returned result → ∃ message, result = .error (.executionFailed message)

/-- Once the sandbox has failed a call that begins names a tool of the registry, and one that
has begun since finds Safe mode. -/
def MeetsGate (s : System Shared Call) (turn : Turn) : Prop :=
  ∀ n call, turn = .call (.advance n) → s.calls.lookup n = some call → failed s.shared.sandbox = true →
    match call.phase with
    | .entered => (s.shared.held.registry.tools call.request.name).isSome
    | .found _ => call.late = true → s.shared.held.registry.globalMode = .safe
    | _ => True

/-- Past the gate in Safe mode the sandbox is up; a call that has begun after its failure
stays before the gate. -/
def Stands (sandbox : Option (Except String Unit)) (call : Call) : Prop :=
  match call.phase with
  | .entered => call.ran = none
  | .found _ => True
  | .resolved _ mode => call.late = true → mode = .safe
  | .gated _ mode => call.late = false ∧ (mode = .safe → sandbox = some (.ok ()))
  | .permitted _ mode => call.late = false ∧ (mode = .safe → sandbox = some (.ok ()))
  | .started _ => call.late = false
  | .returned result => call.late = true → ∃ message, result = .error (.executionFailed message)

structure Fits (sandbox : Option (Except String Unit)) (call : Call) : Prop where
  safe : call.ran = some .safe → sandbox = some (.ok ())
  late : call.late = true → failed sandbox = true ∧ call.ran = none
  stands : Stands sandbox call

structure Inv (s : System Shared Call) : Prop where
  applier : s.shared.held.registry.sandboxApplier.isSome = true
  counted : s.shared.applied = if s.shared.sandbox.isNone then 0 else 1
  calls : ∀ n call, s.calls.lookup n = some call → Fits s.shared.sandbox call

def refusal (message : String) : RegistryError :=
  .executionFailed ("OS sandbox apply failed — tool execution refused for safety: " ++ message)

theorem gate_eq (s : Shared) (applied : Except String Unit) (present : s.held.registry.sandboxApplier = some applied) :
    gate s =
      (⟨{ s.held with registry := { s.held.registry with sandboxState := some (s.sandbox.getD applied) } },
          if s.sandbox.isNone then s.applied + 1 else s.applied⟩,
        match s.sandbox.getD applied with
        | .ok _ => none
        | .error message => some (refusal message)) := by
  obtain ⟨⟨⟨tools,auditLog,maxAuditEntries,auditCounter,sandboxApplier,sandboxState,globalMode⟩,guards,issued⟩,count⟩ := s
  cases present
  cases sandboxState with
  | none => rfl
  | some state => rfl

/-- The shared state after one step: the sandbox state is set once, and counted. -/
structure Kept (s after : Shared) : Prop where
  applier : after.held.registry.sandboxApplier = s.held.registry.sandboxApplier
  settled : ∀ state, s.sandbox = some state → after.sandbox = some state
  counted : s.applied = (if s.sandbox.isNone then 0 else 1) → after.applied = if after.sandbox.isNone then 0 else 1

theorem kept_put (s : Shared) (registry : ToolRegistry) (applier : registry.sandboxApplier = s.held.registry.sandboxApplier)
    (state : registry.sandboxState = s.held.registry.sandboxState) : Kept s (s.put registry) := by
  have same : (s.put registry).sandbox = s.sandbox := state
  refine ⟨applier,fun _ before => same.trans before,fun before => ?_⟩
  rw [same]
  exact before

theorem kept_refl (s : Shared) : Kept s s := ⟨rfl,fun _ before => before,fun before => before⟩

theorem kept_gate (s : Shared) (present : s.held.registry.sandboxApplier.isSome = true) : Kept s (gate s).1 := by
  obtain ⟨applied,applier⟩ := Option.isSome_iff_exists.mp present
  rw [gate_eq s applied applier]
  refine ⟨rfl,?_,?_⟩
  · intro state before
    change some (s.sandbox.getD applied) = some state
    rw [before]
    rfl
  · intro before
    change (if s.sandbox.isNone then s.applied + 1 else s.applied) = 1
    rw [before]
    cases s.sandbox with
    | none => rfl
    | some state => rfl

theorem access_kept (s : Shared) (call : Call) (present : s.held.registry.sandboxApplier.isSome = true) :
    Kept s (access glob s call).1 := by
  have gated := kept_gate s present
  unfold access
  dsimp only
  split
  · split <;> exact kept_refl s
  · exact kept_refl s
  · exact kept_refl s
  · split
    · rename_i same
      rw [same] at gated
      exact gated
    · rename_i same
      rw [same] at gated
      exact gated
  · exact kept_refl s
  · split <;> exact kept_refl s
  · exact kept_put s _ rfl rfl
  · exact kept_put s _ rfl rfl
  · exact kept_refl s

theorem failed_kept (s after : Shared) (kept : Kept s after) (failing : failed s.sandbox = true) :
    failed after.sandbox = true := by
  cases state : s.sandbox with
  | none =>
    rw [state] at failing
    cases failing
  | some result =>
    rw [kept.settled result state]
    rw [state] at failing
    exact failing

/-- What another step does to the shared state is nothing to a call. -/
theorem fits_mono (s after : Shared) (kept : Kept s after) (call : Call) (fits : Fits s.sandbox call) :
    Fits after.sandbox call := by
  obtain ⟨safe,late,stands⟩ := fits
  refine ⟨fun ran => kept.settled _ (safe ran),
    fun begun => ⟨failed_kept s after kept (late begun).1,(late begun).2⟩,?_⟩
  unfold Stands at stands ⊢
  cases phase : call.phase with
  | gated tool mode =>
    rw [phase] at stands
    exact ⟨stands.1,fun mode => kept.settled _ (stands.2 mode)⟩
  | permitted tool mode =>
    rw [phase] at stands
    exact ⟨stands.1,fun mode => kept.settled _ (stands.2 mode)⟩
  | _ =>
    rw [phase] at stands
    exact stands

/-- In Safe mode: the sandbox is up after the gate, or the call is refused for it. -/
theorem gate_cases (s : Shared) (present : s.held.registry.sandboxApplier.isSome = true) :
    (gate s).2 = none ∧ (gate s).1.sandbox = some (.ok ()) ∨
      ∃ message, (gate s).2 = some (refusal message) ∧ (gate s).1.sandbox = some (.error message) := by
  obtain ⟨applied,applier⟩ := Option.isSome_iff_exists.mp present
  rw [gate_eq s applied applier]
  cases state : s.sandbox.getD applied with
  | ok _ => exact Or.inl ⟨rfl,rfl⟩
  | error message => exact Or.inr ⟨message,rfl,rfl⟩

/-- A call in Safe mode passes the gate only when the sandbox is up. -/
theorem gate_fits (s : Shared) (request : Request) (tool : Tool) (ran : Option RegistryExecutionMode) (late : Bool)
    (present : s.held.registry.sandboxApplier.isSome = true) (fits : Fits s.sandbox ⟨request,.resolved tool .safe,ran,late⟩) :
    Fits (access glob s ⟨request,.resolved tool .safe,ran,late⟩).1.sandbox
      (access glob s ⟨request,.resolved tool .safe,ran,late⟩).2 := by
  obtain ⟨safe,begun,stands⟩ := fits
  have gated := kept_gate s present
  rcases gate_cases s present with ⟨passed,up⟩ | ⟨message,refused,down⟩
  · have early : late = false := by
      apply Bool.eq_false_iff.mpr
      intro failing
      have still := failed_kept s _ gated (begun failing).1
      rw [up] at still
      cases still
    simp only [access]
    rw [show gate s = ((gate s).1,none) from Prod.ext rfl passed]
    refine ⟨fun _ => up,fun failing => ?_,early,fun _ => up⟩
    change late = true at failing
    rw [early] at failing
    cases failing
  · simp only [access]
    rw [show gate s = ((gate s).1,some (refusal message)) from Prod.ext rfl refused]
    exact ⟨fun ran => gated.settled _ (safe ran),
      fun failing => ⟨failed_kept s _ gated (begun failing).1,(begun failing).2⟩,fun _ => ⟨_,rfl⟩⟩

theorem access_fits (s : Shared) (call : Call) (present : s.held.registry.sandboxApplier.isSome = true)
    (fits : Fits s.sandbox call)
    (meets : failed s.sandbox = true →
      match call.phase with
      | .entered => (s.held.registry.tools call.request.name).isSome
      | .found _ => call.late = true → s.held.registry.globalMode = .safe
      | _ => True) :
    Fits (access glob s call).1.sandbox (access glob s call).2 := by
  obtain ⟨request,phase,ran,late⟩ := call
  obtain ⟨safe,begun,stands⟩ := fits
  cases phase with
  | entered =>
    simp only [access]
    cases registered : s.held.registry.tools request.name with
    | none =>
      refine ⟨safe,fun failing => ⟨failing,stands⟩,fun failing => ?_⟩
      have there := meets failing
      rw [registered] at there
      cases there
    | some tool => exact ⟨safe,fun failing => ⟨failing,stands⟩,trivial⟩
  | found tool =>
    refine ⟨safe,begun,fun failing => ?_⟩
    have mode := meets (begun failing).1 failing
    change effectiveMode s.held.registry.globalMode request.ctx.executionMode = .safe
    rw [effectiveMode,mode]
    rfl
  | resolved tool mode =>
    cases mode with
    | power =>
      have early : late = false := Bool.eq_false_iff.mpr (fun failing => RegistryExecutionMode.noConfusion (stands failing))
      exact ⟨safe,begun,early,fun clash => RegistryExecutionMode.noConfusion clash⟩
    | safe => exact gate_fits glob s request tool ran late present ⟨safe,begun,stands⟩
  | gated tool mode =>
    cases mode with
    | power => exact ⟨safe,begun,stands⟩
    | safe =>
      simp only [access]
      split
      · refine ⟨safe,begun,fun failing => ?_⟩
        rw [stands.1] at failing
        cases failing
      · exact ⟨safe,begun,stands⟩
  | permitted tool mode =>
    refine ⟨?_,?_,stands.1⟩
    · intro ran
      cases ran
      exact stands.2 rfl
    · intro failing
      change late = true at failing
      rw [show late = false from stands.1] at failing
      cases failing
  | started tool =>
    refine ⟨safe,begun,fun failing => ?_⟩
    change late = true at failing
    rw [show late = false from stands] at failing
    cases failing
  | returned result => exact ⟨safe,begun,stands⟩

/-- A call that nothing interrupts does what `execute` does. -/
theorem access_alone (s : Shared) (request : Request) :
    ((fun each : Shared × Call => access glob each.1 each.2)^[6] (s,entered request)).1.held.registry =
        (execute glob request.now s.held.registry request.name request.args request.ctx).1 ∧
      ((fun each : Shared × Call => access glob each.1 each.2)^[6] (s,entered request)).2.phase =
        .returned (execute glob request.now s.held.registry request.name request.args request.ctx).2 := by
  unfold execute
  cases registered : s.held.registry.tools request.name with
  | none => simp [entered,access,registered]
  | some tool =>
    unfold permit
    cases mode : effectiveMode s.held.registry.globalMode request.ctx.executionMode with
    | power => simp [entered,access,registered,mode,Shared.put]
    | safe =>
      have tools : (applySandbox s.held.registry).1.tools = s.held.registry.tools := by
        unfold applySandbox
        split <;> rfl
      cases sandboxed : applySandbox s.held.registry with
      | mk after refused =>
        cases refused with
        | some error => simp [entered,access,registered,mode,gate,sandboxed,Shared.put]
        | none =>
          cases checked : checkPermissions glob request.name tool.permissions request.ctx.permissions with
          | some error => simp [entered,access,registered,mode,gate,sandboxed,checked,Shared.put]
          | none => simp [entered,access,registered,mode,gate,sandboxed,checked,Shared.put]

theorem switch_kept (s : Shared) (held : Held) (applier : held.registry.sandboxApplier = s.held.registry.sandboxApplier)
    (state : held.registry.sandboxState = s.held.registry.sandboxState) : Kept s { s with held := held } := by
  have same : Shared.sandbox { s with held := held } = s.sandbox := state
  refine ⟨applier,fun _ before => same.trans before,fun before => ?_⟩
  rw [same]
  exact before

theorem step_kept (s : System Shared Call) (turn : Turn) (present : s.shared.held.registry.sandboxApplier.isSome = true) :
    Kept s.shared (step glob s turn).shared := by
  cases turn with
  | call action =>
    cases action with
    | enter n request =>
      rw [step,shared_enter]
      exact kept_refl s.shared
    | advance n =>
      cases found : s.calls.lookup n with
      | none =>
        rw [step,step_idle entered (access glob) s n found]
        exact kept_refl s.shared
      | some call =>
        rw [step,step_advance entered (access glob) s n call found]
        exact access_kept glob s.shared call present
  | enterPowerMode powerKey verify =>
    apply switch_kept
    · unfold enterPowerMode
      split <;> rfl
    · unfold enterPowerMode
      split <;> rfl
  | dropGuard guard =>
    apply switch_kept
    · unfold Registry.dropGuard
      split <;> rfl
    · unfold Registry.dropGuard
      split <;> rfl

theorem step_inv (s : System Shared Call) (turn : Turn) (inv : Inv s) (meets : MeetsGate s turn) :
    Inv (step glob s turn) := by
  have kept := step_kept glob s turn inv.applier
  refine ⟨kept.applier ▸ inv.applier,kept.counted inv.counted,?_⟩
  intro n call found
  cases turn with
  | call action =>
    rcases lookup_step entered (access glob) s action n call found with before | ⟨request,_,_,rfl⟩ |
      ⟨earlier,rfl,before,rfl⟩
    · exact fits_mono s.shared _ kept call (inv.calls n call before)
    · exact ⟨(by rintro ⟨⟩),(by rintro ⟨⟩),rfl⟩
    · have fits := access_fits glob s.shared earlier inv.applier (inv.calls n earlier before)
        (meets n earlier rfl before)
      rw [step,step_advance entered (access glob) s n earlier before]
      exact fits
  | enterPowerMode powerKey verify => exact fits_mono s.shared _ kept call (inv.calls n call found)
  | dropGuard guard => exact fits_mono s.shared _ kept call (inv.calls n call found)

theorem failClosed_of_inv (s : System Shared Call) (inv : Inv s) : FailClosed s := by
  refine ⟨?_,fun n call found ran => (inv.calls n call found).safe ran,?_⟩
  · rw [inv.counted]
    split
    · exact Nat.zero_le 1
    · exact Nat.le_refl 1
  · intro n call found late
    have fits := inv.calls n call found
    refine ⟨(fits.late late).2,fun result returned => ?_⟩
    have stands := fits.stands
    unfold Stands at stands
    rw [returned] at stands
    exact stands late

/-- The sandbox is fail-closed in every run in which no call begun after its failure asks for
a tool that is not registered or finds Power mode. -/
theorem sandbox_fail_closed (tools : String → Option Tool) (applied : Except String Unit) (turns : List Turn)
    (along : Along (step glob) MeetsGate (start (withSandboxApplier tools applied)) turns) :
    Always (step glob) FailClosed (start (withSandboxApplier tools applied)) turns := by
  have invariant := always_of_along (step glob) MeetsGate Inv (fun s turn => step_inv glob s turn)
    (start (withSandboxApplier tools applied)) turns ⟨rfl,rfl,fun n call found => by cases found⟩ along
  exact always_mono (step glob) Inv FailClosed failClosed_of_inv _ turns invariant

end Execute

/-! A sandbox that cannot be applied. -/
section Failing

def noGlob : String → Option (String → Bool) := fun _ => none

def ping : Tool where
  permissions := ⟨⟨[],[]⟩,⟨[]⟩,.denied⟩
  timeoutMs := 0
  execute := fun args _ => ⟨1,.ok ⟨true,some args,none,1⟩⟩

def pinging : Request := ⟨0,"ping",.null,⟨"agent",⟨⟨[],[]⟩,⟨[]⟩,.denied⟩,.safe⟩⟩

def failing : Shared := withSandboxApplier (fun name => if name = "ping" then some ping else none) (.error "denied")

def twice : List Turn :=
  [.call (.enter 0 pinging),.call (.advance 0),.call (.advance 0),.call (.advance 0),
    .call (.enter 1 pinging),.call (.advance 1),.call (.advance 1),.call (.advance 1)]

/-- The first call finds that the sandbox fails, the second comes when power mode is on. -/
def poweredUp : List Turn :=
  [.call (.enter 0 pinging),.call (.advance 0),.call (.advance 0),.call (.advance 0),.enterPowerMode "key" (fun _ => true),
    .call (.enter 1 pinging),.call (.advance 1),.call (.advance 1),.call (.advance 1),.call (.advance 1),.call (.advance 1)]

theorem sandbox_fail_closed_twice : Always (step noGlob) FailClosed (start failing) twice := by
  apply sandbox_fail_closed noGlob _ (.error "denied") twice
  refine ⟨?_,?_,?_,?_,?_,?_,?_,?_,trivial⟩
  all_goals
    rintro n call turned found refused
    cases turned
  · cases found
    rfl
  · cases found
    exact fun clash => Bool.noConfusion clash
  · cases found
    trivial
  · cases found
    rfl
  · cases found
    exact fun _ => rfl
  · cases found
    trivial

theorem power_mode_runs_unsandboxed : ¬Always (step noGlob) FailClosed (start failing) poweredUp := by
  intro always
  have last := (always_end (step noGlob) FailClosed (start failing) poweredUp always).refuses 1 _ rfl rfl
  cases last.1

end Failing
end ClawKernel.Tools.SandboxGate
