import Mathlib.Logic.Function.Basic
import ClawKernel.Lib.Json
import ClawKernel.Lib.Runs

/-! `ToolRegistry`: its execution mode and the guards of power mode, and the
permission check in front of every tool call. The glob crate is the parameter
`glob`: the compiled pattern as a predicate on paths, `none` where it does not compile.
-/
namespace ClawKernel.Tools.Registry
open Lib Lib.Runs

inductive RegistryExecutionMode where
  | safe
  | power
  deriving DecidableEq, Repr

inductive SubprocessPolicy where
  | denied
  | allowed
  deriving DecidableEq, Repr

structure FsPermissions where
  readPaths : List String
  writePaths : List String
  deriving DecidableEq, Repr

structure NetworkPermissions where
  allowedDomains : List String
  deriving DecidableEq, Repr

structure PermissionSet where
  filesystem : FsPermissions
  network : NetworkPermissions
  subprocess : SubprocessPolicy
  deriving DecidableEq, Repr

structure ToolContext where
  agentId : String
  permissions : PermissionSet
  executionMode : RegistryExecutionMode
  deriving DecidableEq, Repr

inductive ToolErrorCode where
  | invalidParameter
  | executionFailed
  | timeout
  | permissionDenied
  | resourceNotFound
  | rateLimited
  | internalError
  deriving DecidableEq, Repr

structure ToolError where
  code : ToolErrorCode
  message : String
  deriving DecidableEq, Repr

structure ToolResult where
  success : Bool
  output : Option Json.Value
  error : Option ToolError
  durationMs : Nat
  deriving Repr

def ToolResult.err (error : ToolError) (durationMs : Nat) : ToolResult where
  success := false
  output := none
  error := some error
  durationMs := durationMs

def ToolError.timedOut : ToolError := ⟨.timeout,"execution timed out"⟩

def ToolError.internal (message : String) : ToolError := ⟨.internalError,message⟩

inductive RegistryError where
  | toolNotFound (name : String)
  | permissionDenied (tool permission : String)
  | executionFailed (message : String)
  deriving DecidableEq, Repr

/-- How the spawned task ends: with the tool's result, or with a join error. -/
structure TaskEnd where
  elapsedMs : Nat
  joined : Except String ToolResult

structure Tool where
  permissions : PermissionSet
  timeoutMs : Nat
  execute : Json.Value → ToolContext → TaskEnd

structure LogEntry where
  timestampMs : Nat
  agentId : String
  toolName : String
  success : Bool
  durationMs : Nat
  deriving DecidableEq, Repr

structure ToolRegistry where
  tools : String → Option Tool
  auditLog : List (Nat × LogEntry)
  maxAuditEntries : Nat
  auditCounter : Nat
  /-- What `apply_safe_mode` of the injected applier answers. -/
  sandboxApplier : Option (Except String Unit)
  sandboxState : Option (Except String Unit)
  globalMode : RegistryExecutionMode

def new : ToolRegistry where
  tools := fun _ => none
  auditLog := []
  maxAuditEntries := 10000
  auditCounter := 1
  sandboxApplier := none
  sandboxState := none
  globalMode := .safe

section Check
variable (glob : String → Option (String → Bool))

def fsPathCovered (toolPath : String) (ctxPatterns : List String) : Bool :=
  ctxPatterns.any (fun pat => pat == toolPath || ((glob pat).map (fun p => p toolPath)).getD false)

/-- The one-shot sandbox application, and whether the call is refused for it. -/
def applySandbox (r : ToolRegistry) : ToolRegistry × Option RegistryError :=
  match r.sandboxApplier with
  | none => (r,none)
  | some applied =>
    let state := r.sandboxState.getD applied
    ({ r with sandboxState := some state },
      match state with
      | .ok _ => none
      | .error msg => some (.executionFailed ("OS sandbox apply failed — tool execution refused for safety: " ++ msg)))

def checkPermissions (name : String) (tool ctx : PermissionSet) : Option RegistryError :=
  if tool.subprocess = .allowed ∧ ctx.subprocess = .denied then
    some (.permissionDenied name "subprocess")
  else if !tool.filesystem.readPaths.isEmpty &&
      !tool.filesystem.readPaths.all (fun p => fsPathCovered glob p ctx.filesystem.readPaths) then
    some (.permissionDenied name "filesystem:read")
  else if !tool.filesystem.writePaths.isEmpty &&
      !tool.filesystem.writePaths.all (fun p => fsPathCovered glob p ctx.filesystem.writePaths) then
    some (.permissionDenied name "filesystem:write")
  else if !tool.network.allowedDomains.isEmpty &&
      !tool.network.allowedDomains.all (fun d => ctx.network.allowedDomains.contains d) then
    some (.permissionDenied name "network")
  else none

def effectiveMode (globalMode _requested : RegistryExecutionMode) : RegistryExecutionMode :=
  if globalMode = .power then .power else .safe

/-- Everything before the call itself: sandbox, then permissions, both in Safe mode only. -/
def permit (r : ToolRegistry) (name : String) (tool : Tool) (ctx : ToolContext) :
    ToolRegistry × Option RegistryError :=
  if effectiveMode r.globalMode ctx.executionMode = .safe then
    match applySandbox r with
    | (after,some error) => (after,some error)
    | (after,none) => (after,checkPermissions glob name tool.permissions ctx.permissions)
  else (r,none)

def insertLog (r : ToolRegistry) (entry : LogEntry) : ToolRegistry :=
  let entries := r.auditLog ++ [(r.auditCounter,entry)]
  { r with
    auditCounter := r.auditCounter + 1
    auditLog :=
      if entries.length > r.maxAuditEntries then entries.drop (max (r.maxAuditEntries / 10) 1) else entries }

def toolTimeout (raw : Nat) : Nat := if raw = 0 then 30000 else raw

def finish (tool : Tool) (args : Json.Value) (ctx : ToolContext) : ToolResult × Nat :=
  let task := tool.execute args ctx
  if task.elapsedMs < toolTimeout tool.timeoutMs then
    match task.joined with
    | .ok result => (result,task.elapsedMs)
    | .error joinErr => (.err (.internal ("Task error: " ++ joinErr)) task.elapsedMs,task.elapsedMs)
  else (.err .timedOut task.elapsedMs,task.elapsedMs)

def execute (now : Nat) (r : ToolRegistry) (name : String) (args : Json.Value) (ctx : ToolContext) :
    ToolRegistry × Except RegistryError ToolResult :=
  match r.tools name with
  | none => (r,.error (.toolNotFound name))
  | some tool =>
    match permit glob r name tool ctx with
    | (after,some error) => (after,.error error)
    | (after,none) =>
      -- the first `fetch_add` numbers the call, the second one (in `insert_log`) the entry
      let called := { after with auditCounter := after.auditCounter + 1 }
      let (result,elapsed) := finish tool args ctx
      (insertLog called ⟨now,ctx.agentId,name,result.success,elapsed⟩,.ok result)

end Check

/-! Power mode: the registry with the guards its callers hold. -/
section PowerMode
variable (glob : String → Option (String → Bool))

structure Held where
  registry : ToolRegistry
  guards : List Nat
  issued : Nat

def held : Held := ⟨new,[],0⟩

/-- `stored_hash.verify` is the function `verify`. -/
def enterPowerMode (h : Held) (powerKey : String) (verify : String → Bool) : Held × Except RegistryError Nat :=
  if !verify powerKey then
    (h,.error (.executionFailed "invalid power key: cannot enter Power Mode"))
  else
    ({ registry := { h.registry with globalMode := .power }
       guards := h.issued :: h.guards
       issued := h.issued + 1 },.ok h.issued)

/-- `PowerModeGuard::drop`. Only a guard that is alive can be dropped. -/
def dropGuard (h : Held) (guard : Nat) : Held :=
  if guard ∈ h.guards then
    { h with
      registry := { h.registry with globalMode := .safe }
      guards := h.guards.erase guard }
  else h

inductive Act where
  | enterPowerMode (powerKey : String) (verify : String → Bool)
  | drop (guard : Nat)
  | execute (now : Nat) (name : String) (args : Json.Value) (ctx : ToolContext)

def act (h : Held) : Act → Held
  | .enterPowerMode powerKey verify => (enterPowerMode h powerKey verify).1
  | .drop guard => dropGuard h guard
  | .execute now name args ctx => { h with registry := (execute glob now h.registry name args ctx).1 }

def Guarded (h : Held) : Prop := h.registry.globalMode = .power ↔ h.guards ≠ []

instance (h : Held) : Decidable (Guarded h) :=
  inferInstanceAs (Decidable (h.registry.globalMode = .power ↔ h.guards ≠ []))

/-- No guard is dropped while another one is alive. -/
def DropsLast (h : Held) : Act → Prop
  | .drop guard => guard ∈ h.guards → h.guards = [guard]
  | _ => True

theorem applySandbox_globalMode (r : ToolRegistry) : (applySandbox r).1.globalMode = r.globalMode := by
  unfold applySandbox
  split <;> rfl

theorem permit_globalMode (r : ToolRegistry) (name : String) (tool : Tool) (ctx : ToolContext) :
    (permit glob r name tool ctx).1.globalMode = r.globalMode := by
  have same := applySandbox_globalMode r
  unfold permit
  split
  · split <;> simp_all only
  · rfl

theorem execute_globalMode (now : Nat) (r : ToolRegistry) (name : String) (args : Json.Value) (ctx : ToolContext) :
    (execute glob now r name args ctx).1.globalMode = r.globalMode := by
  cases found : r.tools name with
  | none => simp only [execute,found]
  | some tool =>
    have same := permit_globalMode glob r name tool ctx
    cases admitted : permit glob r name tool ctx with
    | mk after refusal =>
      rw [admitted] at same
      cases refusal with
      | none =>
        simp only [execute,found,admitted]
        exact same
      | some error =>
        simp only [execute,found,admitted]
        exact same

theorem act_guarded_iff (h : Held) (a : Act) (guarded : Guarded h) :
    Guarded (act glob h a) ↔ DropsLast h a := by
  cases a with
  | enterPowerMode powerKey verify =>
    cases verified : verify powerKey with
    | false => simpa [act,enterPowerMode,verified,DropsLast] using guarded
    | true => simp [act,enterPowerMode,verified,DropsLast,Guarded]
  | drop guard =>
    by_cases alive : guard ∈ h.guards
    · have emptied : h.guards.erase guard = [] ↔ h.guards = [guard] := by
        rw [List.erase_eq_nil_iff]
        exact or_iff_right (List.ne_nil_of_mem alive)
      simp [act,dropGuard,alive,DropsLast,Guarded,emptied]
    · simpa [act,dropGuard,alive,DropsLast] using guarded
  | execute now name args ctx =>
    simpa [act,DropsLast,Guarded,execute_globalMode] using guarded

/-- The registry is in Power mode exactly while some guard is alive, in every state
of a run from a new registry, exactly when every guard that is dropped is the only one alive. -/
theorem power_mode_guarded_iff (acts : List Act) :
    Always (act glob) Guarded held acts ↔ Along (act glob) DropsLast held acts := by
  apply always_iff_along (act glob) DropsLast Guarded (fun _ => True) (fun _ => True) (fun _ _ _ _ => trivial)
    (fun h a _ _ guarded => act_guarded_iff glob h a guarded) held acts (fun _ _ => trivial) trivial
  simp [Guarded,held,new]

end PowerMode

def trusting : String → Bool := fun _ => true

/-- Two overlapping guards: dropping the first one ends the mode of the second. -/
theorem overlapping_guard_loses_mode :
    ¬Guarded (run (act (fun _ => none)) held
      [.enterPowerMode "k" trusting,.enterPowerMode "k" trusting,.drop 0]) := by
  decide

/-! The permission check of Safe mode. A path is matched by a list of patterns in
the sense the check itself gives to such a list. -/
section Permissions
variable (glob : String → Option (String → Bool))

structure Contained (tool ctx : PermissionSet) : Prop where
  read : ∀ path, fsPathCovered glob path tool.filesystem.readPaths = true →
    fsPathCovered glob path ctx.filesystem.readPaths = true
  write : ∀ path, fsPathCovered glob path tool.filesystem.writePaths = true →
    fsPathCovered glob path ctx.filesystem.writePaths = true
  domains : ∀ domain ∈ tool.network.allowedDomains, domain ∈ ctx.network.allowedDomains
  subprocess : tool.subprocess = .allowed → ctx.subprocess = .allowed

/-- A call that runs is contained, and the mode the caller asks for decides nothing:
it changes neither a refusal nor the result of a tool that does not read it. -/
def Sound (r : ToolRegistry) (name : String) (tool : Tool) (ctx : ToolContext) : Prop :=
  (∀ now args result, (execute glob now r name args ctx).2 = .ok result →
    Contained glob tool.permissions ctx.permissions) ∧
  ∀ mode, permit glob r name tool { ctx with executionMode := mode } = permit glob r name tool ctx ∧
    ∀ now args, tool.execute args { ctx with executionMode := mode } = tool.execute args ctx →
      execute glob now r name args { ctx with executionMode := mode } = execute glob now r name args ctx

/-- Every path the patterns match is, letter by letter, one of them. -/
def Plain (patterns : List String) : Prop :=
  ∀ path, fsPathCovered glob path patterns = true → path ∈ patterns

/-- Every path the patterns match is matched by one that the others list as well, or is one of them. -/
def Listed (patterns others : List String) : Prop :=
  ∀ path, fsPathCovered glob path patterns = true →
    path ∈ patterns ∨ ∃ pattern ∈ patterns, pattern ∈ others ∧ fsPathCovered glob path [pattern] = true

theorem covered_iff (path : String) (patterns : List String) :
    fsPathCovered glob path patterns = true ↔ ∃ pattern ∈ patterns, fsPathCovered glob path [pattern] = true := by
  simp [fsPathCovered]

theorem covered_of_mem (path : String) (patterns : List String) (member : path ∈ patterns) :
    fsPathCovered glob path patterns = true := by
  rw [covered_iff]
  exact ⟨path,member,by simp [fsPathCovered]⟩

theorem checkPermissions_none (name : String) (tool ctx : PermissionSet) :
    checkPermissions glob name tool ctx = none ↔
      (tool.subprocess = .allowed → ctx.subprocess = .allowed) ∧
      (∀ p ∈ tool.filesystem.readPaths, fsPathCovered glob p ctx.filesystem.readPaths = true) ∧
      (∀ p ∈ tool.filesystem.writePaths, fsPathCovered glob p ctx.filesystem.writePaths = true) ∧
      ∀ d ∈ tool.network.allowedDomains, d ∈ ctx.network.allowedDomains := by
  have policy : ctx.subprocess = .denied ↔ ¬ctx.subprocess = .allowed := by
    cases ctx.subprocess <;> simp
  have empty (items : List String) (test : String → Bool) :
      (!items.isEmpty && !items.all test) = true ↔ ¬∀ p ∈ items, test p = true := by
    rw [← List.all_eq_true]
    cases items with
    | nil => simp
    | cons first rest => rw [List.isEmpty_cons,Bool.not_false,Bool.true_and,Bool.not_eq_true',Bool.not_eq_true]
  unfold checkPermissions
  simp only [empty,policy,List.contains_iff_mem]
  constructor
  · intro passed
    split_ifs at passed with subprocess reads writes domains
    exact ⟨fun asked => by_contra (fun refused => subprocess ⟨asked,refused⟩),reads,writes,domains⟩
  · intro ⟨subprocess,reads,writes,domains⟩
    rw [if_neg (fun both => both.2 (subprocess both.1)),if_neg (fun missed => missed reads),
      if_neg (fun missed => missed writes),if_neg (fun missed => missed domains)]

/-- Whether the sandbox, applied now or before, keeps every call from running. -/
def SandboxRefuses (r : ToolRegistry) : Prop := (applySandbox r).2 ≠ none

theorem execute_runs (now : Nat) (r : ToolRegistry) (name : String) (tool : Tool) (args : Json.Value)
    (ctx : ToolContext) (found : r.tools name = some tool) :
    (∃ result, (execute glob now r name args ctx).2 = .ok result) ↔ (permit glob r name tool ctx).2 = none := by
  cases admitted : permit glob r name tool ctx with
  | mk after refusal =>
    cases refusal with
    | none => simp [execute,found,admitted]
    | some error => simp [execute,found,admitted]

theorem permit_none (r : ToolRegistry) (safe : r.globalMode = .safe) (name : String) (tool : Tool) (ctx : ToolContext) :
    (permit glob r name tool ctx).2 = none ↔
      ¬SandboxRefuses r ∧ checkPermissions glob name tool.permissions ctx.permissions = none := by
  cases applied : applySandbox r with
  | mk after refusal =>
    cases refusal with
    | none => simp [permit,effectiveMode,safe,applied,SandboxRefuses]
    | some error => simp [permit,effectiveMode,safe,applied,SandboxRefuses]

theorem contained_of_listed (name : String) (tool ctx : PermissionSet)
    (passed : checkPermissions glob name tool ctx = none)
    (reads : Listed glob tool.filesystem.readPaths ctx.filesystem.readPaths)
    (writes : Listed glob tool.filesystem.writePaths ctx.filesystem.writePaths) : Contained glob tool ctx := by
  obtain ⟨subprocess,readable,writable,domains⟩ := (checkPermissions_none glob name tool ctx).mp passed
  have lists (patterns others : List String) (listed : Listed glob patterns others)
      (covered : ∀ p ∈ patterns, fsPathCovered glob p others = true) (path : String)
      (matched : fsPathCovered glob path patterns = true) : fsPathCovered glob path others = true := by
    rcases listed path matched with member | ⟨pattern,_,shared,single⟩
    · exact covered path member
    · exact (covered_iff glob path others).mpr ⟨pattern,shared,single⟩
  exact {
    read := lists _ _ reads readable
    write := lists _ _ writes writable
    domains := domains
    subprocess := subprocess }

theorem permit_mode (r : ToolRegistry) (name : String) (tool : Tool) (ctx : ToolContext) (mode : RegistryExecutionMode) :
    permit glob r name tool { ctx with executionMode := mode } = permit glob r name tool ctx := rfl

theorem execute_mode (now : Nat) (r : ToolRegistry) (name : String) (tool : Tool) (args : Json.Value) (ctx : ToolContext)
    (found : r.tools name = some tool) (mode : RegistryExecutionMode)
    (unread : tool.execute args { ctx with executionMode := mode } = tool.execute args ctx) :
    execute glob now r name args { ctx with executionMode := mode } = execute glob now r name args ctx := by
  have same : finish tool args { ctx with executionMode := mode } = finish tool args ctx := by
    simp only [finish,unread]
  simp only [execute,found,permit_mode,same]

def metacharacter (c : Char) : Bool := c == '?' || c == '*' || c == '[' || c == ']'

def escapeChar (c : Char) : List Char := if metacharacter c then ['[',c,']'] else [c]

/-- `glob::Pattern::escape`: every metacharacter in brackets. -/
def escape (text : String) : String := String.ofList (text.toList.flatMap escapeChar)

/-- A question mark for every character but the separator. -/
def questions (text : String) : String :=
  String.ofList (text.toList.map (fun c => if c = '/' then c else '?'))

/-- What the documentation of the glob crate says of the two: the escaped text matches
the text and nothing else, a question mark matches one character other than the separator. -/
structure Documented : Prop where
  escaped : ∀ text, ∃ compiled, glob (escape text) = some compiled ∧ ∀ path, compiled path = true ↔ path = text
  questioned : ∀ text, ∃ compiled, glob (questions text) = some compiled ∧
    ∀ path, compiled path = true ↔ questions path = questions text

theorem escape_length (chars : List Char) :
    chars.flatMap escapeChar = chars ∨ chars.length < (chars.flatMap escapeChar).length := by
  induction chars with
  | nil => exact .inl rfl
  | cons c rest ih =>
    rw [List.flatMap_cons]
    cases special : metacharacter c with
    | true =>
      have bracketed : escapeChar c = ['[',c,']'] := by simp [escapeChar,special]
      have grows : rest.length ≤ (rest.flatMap escapeChar).length := by
        rcases ih with same | longer
        · exact Nat.le_of_eq (congrArg List.length same.symm)
        · exact Nat.le_of_lt longer
      apply Or.inr
      rw [bracketed,List.length_append,List.length_cons]
      simp only [List.length_cons,List.length_nil]
      omega
    | false =>
      have alone : escapeChar c = [c] := by simp [escapeChar,special]
      rw [alone,List.singleton_append]
      rcases ih with same | longer
      · exact .inl (by rw [same])
      · exact .inr (by simpa using longer)

/-- A pattern can tell a text from any other path, without being that path itself. -/
theorem pattern_apart (documented : Documented glob) (text path : String) (other : path ≠ text) :
    ∃ pattern, fsPathCovered glob text [pattern] = true ∧ fsPathCovered glob path [pattern] = false := by
  obtain ⟨only,compiled,exactly⟩ := documented.escaped text
  by_cases same : escape text = path
  · obtain ⟨shape,shaped,similar⟩ := documented.questioned text
    have longer : text.toList.length < path.toList.length := by
      rcases escape_length text.toList with equal | longer
      · exact absurd (by rw [← same,escape,equal,String.ofList_toList]) other
      · rwa [← same,escape,String.toList_ofList]
    have size (s : String) : (questions s).toList.length = s.toList.length := by
      rw [questions,String.toList_ofList,List.length_map]
    have differs : questions text ≠ path := by
      intro equal
      have := size text
      rw [equal] at this
      omega
    have unmatched : shape path = false := by
      rw [← Bool.not_eq_true,similar]
      intro equal
      have := congrArg (fun s => s.toList.length) equal
      simp only [size] at this
      omega
    refine ⟨questions text,?_,?_⟩
    · simp [fsPathCovered,shaped,(similar text).mpr rfl]
    · simp [fsPathCovered,shaped,unmatched,differs]
  · have unmatched : only path = false := by
      rw [← Bool.not_eq_true,exactly]
      exact other
    refine ⟨escape text,?_,?_⟩
    · simp [fsPathCovered,compiled,(exactly text).mpr rfl]
    · simp [fsPathCovered,compiled,unmatched,same]

/-- So the texts of a list can be granted without granting a further path. -/
theorem patterns_apart (documented : Documented glob) (texts : List String) (path : String) (other : path ∉ texts) :
    ∃ patterns, (∀ text ∈ texts, fsPathCovered glob text patterns = true) ∧
      fsPathCovered glob path patterns = false := by
  induction texts with
  | nil => exact ⟨[],by simp,rfl⟩
  | cons text rest ih =>
    obtain ⟨different,outside⟩ := not_or.mp (List.mem_cons.not.mp other)
    obtain ⟨patterns,granted,kept⟩ := ih outside
    obtain ⟨pattern,first,apart⟩ := pattern_apart glob documented text path different
    have split (p : String) : fsPathCovered glob p (pattern :: patterns) =
        (fsPathCovered glob p [pattern] || fsPathCovered glob p patterns) := by
      simp [fsPathCovered]
    refine ⟨pattern :: patterns,?_,by rw [split,apart,kept]; rfl⟩
    intro t member
    rw [split,Bool.or_eq_true]
    rcases List.mem_cons.mp member with here | later
    · exact .inl (here ▸ first)
    · exact .inr (granted t later)

theorem plain_of_contained (documented : Documented glob) (name : String) (tool : PermissionSet)
    (contained : ∀ ctx, checkPermissions glob name tool ctx = none → Contained glob tool ctx) :
    Plain glob tool.filesystem.readPaths ∧ Plain glob tool.filesystem.writePaths := by
  -- a context that grants the declared texts and, but for one of the two lists, what the tool declares
  constructor
  · intro path matched
    by_contra undeclared
    obtain ⟨patterns,granted,kept⟩ := patterns_apart glob documented tool.filesystem.readPaths path undeclared
    let ctx : PermissionSet := { tool with filesystem := { tool.filesystem with readPaths := patterns } }
    have passed : checkPermissions glob name tool ctx = none := by
      rw [checkPermissions_none]
      exact ⟨id,granted,fun p member => covered_of_mem glob p _ member,fun d member => member⟩
    exact absurd ((contained ctx passed).read path matched) (by rw [kept]; exact Bool.false_ne_true)
  · intro path matched
    by_contra undeclared
    obtain ⟨patterns,granted,kept⟩ := patterns_apart glob documented tool.filesystem.writePaths path undeclared
    let ctx : PermissionSet := { tool with filesystem := { tool.filesystem with writePaths := patterns } }
    have passed : checkPermissions glob name tool ctx = none := by
      rw [checkPermissions_none]
      exact ⟨id,fun p member => covered_of_mem glob p _ member,granted,fun d member => member⟩
    exact absurd ((contained ctx passed).write path matched) (by rw [kept]; exact Bool.false_ne_true)

theorem sound_iff (r : ToolRegistry) (safe : r.globalMode = .safe) (name : String) (tool : Tool)
    (found : r.tools name = some tool) (ctx : ToolContext) :
    Sound glob r name tool ctx ↔ (¬SandboxRefuses r → checkPermissions glob name tool.permissions ctx.permissions = none →
      Contained glob tool.permissions ctx.permissions) := by
  constructor
  · intro sound applied passed
    obtain ⟨result,ran⟩ := (execute_runs glob 0 r name tool .null ctx found).mpr
      ((permit_none glob r safe name tool ctx).mpr ⟨applied,passed⟩)
    exact sound.1 0 .null result ran
  · intro contained
    refine ⟨fun now args result ran => ?_,fun mode => ⟨permit_mode glob r name tool ctx mode,fun now args unread =>
      execute_mode glob now r name tool args ctx found mode unread⟩⟩
    obtain ⟨applied,passed⟩ := (permit_none glob r safe name tool ctx).mp
      ((execute_runs glob now r name tool args ctx found).mp ⟨result,ran⟩)
    exact contained applied passed

/-- In Safe mode the check is sound for a tool in every context exactly when the tool's
declared paths match nothing but themselves, or the sandbox refuses every call. In one
context it is enough that the other patterns, those that match more, are listed there too. -/
theorem safe_mode_sound_iff (documented : Documented glob) (r : ToolRegistry) (safe : r.globalMode = .safe)
    (name : String) (tool : Tool) (found : r.tools name = some tool) :
    ((∀ ctx, Sound glob r name tool ctx) ↔ SandboxRefuses r ∨
      Plain glob tool.permissions.filesystem.readPaths ∧ Plain glob tool.permissions.filesystem.writePaths) ∧
    ∀ ctx, Listed glob tool.permissions.filesystem.readPaths ctx.permissions.filesystem.readPaths →
      Listed glob tool.permissions.filesystem.writePaths ctx.permissions.filesystem.writePaths →
      Sound glob r name tool ctx := by
  have listed (ctx : ToolContext)
      (reads : Listed glob tool.permissions.filesystem.readPaths ctx.permissions.filesystem.readPaths)
      (writes : Listed glob tool.permissions.filesystem.writePaths ctx.permissions.filesystem.writePaths) :
      Sound glob r name tool ctx :=
    (sound_iff glob r safe name tool found ctx).mpr
      (fun _ passed => contained_of_listed glob name tool.permissions ctx.permissions passed reads writes)
  refine ⟨⟨fun sound => ?_,fun condition ctx => ?_⟩,listed⟩
  · by_cases refused : SandboxRefuses r
    · exact .inl refused
    · apply Or.inr
      apply plain_of_contained glob documented name tool.permissions
      intro permissions passed
      exact (sound_iff glob r safe name tool found ⟨"",permissions,.safe⟩).mp (sound _) refused passed
  · rcases condition with refused | ⟨reads,writes⟩
    · exact (sound_iff glob r safe name tool found ctx).mpr (fun applied => absurd refused applied)
    · exact listed ctx (fun path matched => .inl (reads path matched)) (fun path matched => .inl (writes path matched))

end Permissions

/-! Wildcards, question marks and single bracketed characters, for concrete runs. -/

inductive Token where
  | letter (c : Char)
  | question
  | star
  | deep
  deriving DecidableEq, Repr

def tokens : List Char → List Token
  | '[' :: c :: ']' :: rest => .letter c :: tokens rest
  | '*' :: '*' :: rest => .deep :: tokens rest
  | '*' :: rest => .star :: tokens rest
  | '?' :: rest => .question :: tokens rest
  | c :: rest => .letter c :: tokens rest
  | [] => []

def accepts : List Token → List Char → Bool
  | [], text => text.isEmpty
  | .letter _ :: _, [] => false
  | .letter c :: rest, d :: more => d == c && accepts rest more
  | .question :: _, [] => false
  | .question :: rest, d :: more => d != '/' && accepts rest more
  | .star :: rest, text =>
    (List.range (text.length + 1)).any (fun n => (text.take n).all (· != '/') && accepts rest (text.drop n))
  | .deep :: rest, text => (List.range (text.length + 1)).any (fun n => accepts rest (text.drop n))

def wildcards (pattern : String) : Option (String → Bool) :=
  some (fun path => accepts (tokens pattern.toList) path.toList)

theorem tokens_escape (chars : List Char) : tokens (chars.flatMap escapeChar) = chars.map Token.letter := by
  induction chars with
  | nil => rfl
  | cons c rest ih =>
    rw [List.flatMap_cons,List.map_cons,← ih]
    cases special : metacharacter c with
    | true => simp [escapeChar,special,tokens]
    | false =>
      simp only [metacharacter,Bool.or_eq_false_iff,beq_eq_false_iff_ne] at special
      simp [escapeChar,metacharacter,special,tokens]

theorem accepts_letters (chars text : List Char) : accepts (chars.map Token.letter) text = true ↔ text = chars := by
  induction chars generalizing text with
  | nil => cases text <;> simp [accepts]
  | cons c rest ih => cases text <;> simp [accepts,ih]

def question (c : Char) : Char := if c = '/' then c else '?'

theorem accepts_questions (chars text : List Char) :
    accepts (tokens (chars.map question)) text = true ↔ text.map question = chars.map question := by
  induction chars generalizing text with
  | nil => cases text <;> simp [accepts,tokens]
  | cons c rest ih =>
    cases text with
    | nil => by_cases separator : c = '/' <;> simp [accepts,tokens,question,separator]
    | cons d more =>
      by_cases separator : c = '/' <;> by_cases head : d = '/' <;>
        simp [accepts,tokens,question,separator,head,ih]

theorem wildcards_documented : Documented wildcards where
  escaped text := by
    refine ⟨_,rfl,fun path => ?_⟩
    rw [escape,String.toList_ofList,tokens_escape,accepts_letters,String.toList_inj]
  questioned text := by
    refine ⟨_,rfl,fun path => ?_⟩
    rw [questions,questions,String.toList_ofList,← String.toList_inj,String.toList_ofList,String.toList_ofList]
    exact accepts_questions text.toList path.toList

def reading (paths : List String) : PermissionSet := ⟨⟨paths,[]⟩,⟨[]⟩,.denied⟩

def reader (paths : List String) : Tool where
  permissions := reading paths
  timeoutMs := 0
  execute _ _ := ⟨0,.ok ⟨true,none,none,0⟩⟩

def withReader (paths : List String) : ToolRegistry :=
  { new with tools := Function.update new.tools "read" (some (reader paths)) }

theorem withReader_tools (paths : List String) : (withReader paths).tools "read" = some (reader paths) := by
  simp [withReader]

theorem safe_mode_sound_iff_plain_path :
    Sound wildcards (withReader ["/data/a"]) "read" (reader ["/data/a"]) ⟨"agent",reading ["/data/*"],.power⟩ := by
  have condition := (safe_mode_sound_iff wildcards wildcards_documented (withReader ["/data/a"]) rfl "read"
    (reader ["/data/a"]) (withReader_tools ["/data/a"])).1
  refine condition.mpr (.inr ⟨?_,?_⟩) _
  · intro path matched
    have letters : tokens "/data/a".toList = "/data/a".toList.map Token.letter := by decide
    simp only [reader,reading,fsPathCovered,wildcards,letters,List.any_cons,List.any_nil,Bool.or_false,
      Option.map_some,Option.getD_some,Bool.or_eq_true,beq_iff_eq,accepts_letters,String.toList_inj] at matched
    rcases matched with same | same
    · exact List.mem_singleton.mpr same.symm
    · exact List.mem_singleton.mpr same
  · intro path matched
    exact absurd matched Bool.false_ne_true

/-- `/data/*` matches the text `/data/**`, so a tool that declares the latter runs, though
it matches `/data/a/b` and the context's pattern does not. -/
theorem wildcard_taken_as_text :
    (∃ result, (execute wildcards 0 (withReader ["/data/**"]) "read" .null
      ⟨"agent",reading ["/data/*"],.safe⟩).2 = .ok result) ∧
    fsPathCovered wildcards "/data/a/b" ["/data/**"] = true ∧
    fsPathCovered wildcards "/data/a/b" ["/data/*"] = false ∧
    ¬Sound wildcards (withReader ["/data/**"]) "read" (reader ["/data/**"]) ⟨"agent",reading ["/data/*"],.safe⟩ := by
  have runs : ∃ result, (execute wildcards 0 (withReader ["/data/**"]) "read" .null
      ⟨"agent",reading ["/data/*"],.safe⟩).2 = .ok result := by
    apply (execute_runs wildcards 0 (withReader ["/data/**"]) "read" (reader ["/data/**"]) .null _
      (withReader_tools ["/data/**"])).mpr
    decide
  refine ⟨runs,by decide,by decide,?_⟩
  intro sound
  obtain ⟨result,ok⟩ := runs
  have covered := (sound.1 0 .null result ok).read "/data/a/b" (by decide)
  exact absurd covered (by decide)

end ClawKernel.Tools.Registry
