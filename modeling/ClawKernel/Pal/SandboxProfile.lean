import ClawKernel.Lib.Sexpr
import ClawKernel.Lib.Utf8
import ClawKernel.Runtime.Signatures

/-! The macOS sandbox: the profile text that is handed to `sandbox_init`, read back as the rules of
its language, and what these rules permit.
-/
namespace ClawKernel.Pal.SandboxProfile
open Lib Lib.Sexpr Lib.Replace Lib.Utf8
open Runtime.Signatures (byteSize)

inductive ExecutionMode where
  | safe
  | power
  deriving DecidableEq, Repr

inductive SyscallPolicy where
  | allowAll
  | denyAll
  | allowlist (names : List String)
  deriving DecidableEq, Repr

structure NetRule where
  host : String
  port : Option UInt16
  allow : Bool
  deriving DecidableEq, Repr

structure SandboxConfig where
  mode : ExecutionMode
  filesystemAllowlist : List (List UInt8)
  networkRules : List NetRule
  allowSubprocess : Bool

structure ResourceLimits where
  maxMemoryBytes : Option UInt64
  maxCpuPercent : Option UInt8
  maxFileDescriptors : Option UInt32
  maxProcesses : Option UInt32

/-- A path is the bytes the system has for it. -/
structure MacOSSandbox where
  config : SandboxConfig
  filesystemRules : List (List UInt8)
  networkRules : List NetRule
  syscallPolicy : Option SyscallPolicy
  resourceLimits : Option ResourceLimits

def create (config : SandboxConfig) : MacOSSandbox := ⟨config,[],[],none,none⟩

def MacOSSandbox.restrictFilesystem (sandbox : MacOSSandbox) (whitelist : List (List UInt8)) : MacOSSandbox :=
  { sandbox with filesystemRules := whitelist }

def MacOSSandbox.restrictNetwork (sandbox : MacOSSandbox) (rules : List NetRule) : MacOSSandbox :=
  { sandbox with networkRules := rules }

def MacOSSandbox.restrictSyscalls (sandbox : MacOSSandbox) (policy : SyscallPolicy) : MacOSSandbox :=
  { sandbox with syscallPolicy := some policy }

def MacOSSandbox.restrictResources (sandbox : MacOSSandbox) (limits : ResourceLimits) : MacOSSandbox :=
  { sandbox with resourceLimits := some limits }

section Generate

def escapeSbplString (s : List Char) : List Char :=
  replaceAll ['"'] ['\\','"'] (replaceAll ['\\'] ['\\','\\'] s)

/-- The rule for the system's paths, a line for each. -/
def essentialPaths : List Char :=
  "(allow file-read*\n".toList ++
    ("    (subpath \"/usr/lib\")\n".toList ++ "    (subpath \"/System\")\n".toList ++
      "    (subpath \"/dev\")\n".toList ++ "    (subpath \"/private/var/db\")\n".toList ++
      "    (literal \"/etc/resolv.conf\")\n".toList) ++
    "    (literal \"/private/etc/resolv.conf\"))\n".toList

def essentialAllows : List Char :=
  "(allow sysctl-read)\n".toList ++ "(allow mach-lookup)\n".toList ++ "(allow signal (target self))\n".toList ++
    "(allow process-fork)\n".toList ++ "(allow system-socket)\n".toList ++ essentialPaths

def filesystemRule (path : List UInt8) : List Char :=
  "(allow file-read* (subpath \"".toList ++ escapeSbplString (lossy path) ++ "\"))\n".toList ++
    ("(allow file-write* (subpath \"".toList ++ escapeSbplString (lossy path) ++ "\"))\n".toList)

/-- What follows the host: a colon and the port, or a star for every port. -/
def portText : Option UInt16 → List Char
  | some port => ':' :: port.toNat.repr.toList
  | none => [':','*']

def networkRule (rule : NetRule) : List Char :=
  "(allow network-outbound (remote tcp \"".toList ++ escapeSbplString rule.host.toList ++
    (portText rule.port ++ "\"))\n".toList)

def MacOSSandbox.hasAllowRules (sandbox : MacOSSandbox) : Bool := sandbox.networkRules.any (·.allow)

def MacOSSandbox.appendNetworkRules (sandbox : MacOSSandbox) : List Char :=
  if sandbox.hasAllowRules then
    sandbox.networkRules.flatMap (fun rule => if rule.allow then networkRule rule else [])
  else []

def MacOSSandbox.appendSubprocessRules (sandbox : MacOSSandbox) : List Char :=
  if sandbox.config.allowSubprocess then "(allow process-exec)\n".toList else []

def MacOSSandbox.appendDenyRules (sandbox : MacOSSandbox) : List Char :=
  (if !sandbox.hasAllowRules && sandbox.config.mode == .safe then "(deny network-outbound)\n".toList else []) ++
    (if !sandbox.config.allowSubprocess then "(deny process-exec)\n".toList else [])

def MacOSSandbox.generateProfile (sandbox : MacOSSandbox) : List Char :=
  "(version 1)\n".toList ++
    (if sandbox.config.mode = .power then "(allow default)\n".toList
     else if sandbox.syscallPolicy = some .allowAll then "(allow default)\n".toList ++ sandbox.appendDenyRules
     else "(deny default)\n".toList ++ essentialAllows ++ sandbox.filesystemRules.flatMap filesystemRule ++
       sandbox.appendNetworkRules ++ sandbox.appendSubprocessRules)

end Generate

section Language

/-- What a process asks for, and what a rule is about. -/
inductive Operation where
  | sysctlRead
  | machLookup
  | signal
  | processFork
  | systemSocket
  | fileRead
  | fileWrite
  | networkOutbound
  | processExec
  | other (name : List Char)
  deriving DecidableEq, Repr

inductive Filter where
  | targetSelf
  | subpath (path : List Char)
  | literal (path : List Char)
  | remoteTcp (address : List Char)
  deriving DecidableEq, Repr

/-- A rule without an operation is about every one of them. -/
structure Rule where
  allow : Bool
  operation : Option Operation
  filters : List Filter
  deriving DecidableEq, Repr

def readOperation (word : List Char) : Option Operation :=
  if word = "default".toList then none
  else if word = "sysctl-read".toList then some .sysctlRead
  else if word = "mach-lookup".toList then some .machLookup
  else if word = "signal".toList then some .signal
  else if word = "process-fork".toList then some .processFork
  else if word = "system-socket".toList then some .systemSocket
  else if word = "file-read*".toList then some .fileRead
  else if word = "file-write*".toList then some .fileWrite
  else if word = "network-outbound".toList then some .networkOutbound
  else if word = "process-exec".toList then some .processExec
  else some (.other word)

def readFilter : Datum → Option Filter
  | .list [.word name,.word subject] =>
    if name = "target".toList ∧ subject = "self".toList then some .targetSelf else none
  | .list [.word name,.text path] =>
    if name = "subpath".toList then some (.subpath path) else if name = "literal".toList then some (.literal path) else none
  | .list [.word name,.word protocol,.text address] =>
    if name = "remote".toList ∧ protocol = "tcp".toList then some (.remoteTcp address) else none
  | _ => none

def readRule : Datum → Option Rule
  | .list (.word action :: .word operation :: filters) =>
    if action = "allow".toList then (filters.mapM readFilter).map (⟨true,readOperation operation,·⟩)
    else if action = "deny".toList then (filters.mapM readFilter).map (⟨false,readOperation operation,·⟩)
    else none
  | _ => none

/-- The rules of a profile of the first version. -/
def readProfile (profile : List Char) : Option (List Rule) :=
  match read profile with
  | some (.list [.word name,.word number] :: rules) =>
    if name = "version".toList ∧ number = ['1'] then rules.mapM readRule else none
  | _ => none

structure Request (σ : Type*) where
  operation : Operation
  subject : σ

variable {σ : Type*} (holds : Filter → σ → Bool)

/-- A rule is about a request if its operation is, and some filter of it if it has any. -/
def Rule.covers (rule : Rule) (request : Request σ) : Bool :=
  (rule.operation == none || rule.operation == some request.operation) &&
    (rule.filters.isEmpty || rule.filters.any (holds · request.subject))

/-- The last rule about a request decides. -/
def permits (rules : List Rule) (request : Request σ) : Bool :=
  ((rules.filter (·.covers holds request)).getLast?.map (·.allow)).getD false

/-- Rules of one action after a rule for everything: a single one of them decides. -/
theorem permits_uniform (action : Bool) (rules : List Rule) (request : Request σ)
    (uniform : ∀ rule ∈ rules, rule.allow = action) :
    permits holds (⟨!action,none,[]⟩ :: rules) request =
      if rules.any (·.covers holds request) then action else !action := by
  have every : Rule.covers holds ⟨!action,none,[]⟩ request = true := rfl
  have first : (⟨!action,none,[]⟩ :: rules).filter (·.covers holds request) =
      ⟨!action,none,[]⟩ :: rules.filter (·.covers holds request) := List.filter_cons_of_pos every
  rw [permits,first]
  by_cases some_covers : rules.any (·.covers holds request) = true
  · obtain ⟨rule,member,covers⟩ := List.any_eq_true.mp some_covers
    have kept : rules.filter (·.covers holds request) ≠ [] :=
      List.ne_nil_of_mem (List.mem_filter.mpr ⟨member,covers⟩)
    have last := uniform _ (List.mem_of_mem_filter (List.getLast_mem kept))
    rw [if_pos some_covers,List.getLast?_cons,List.getLast?_eq_some_getLast kept,Option.getD_some,Option.map_some,
      Option.getD_some,last]
  · have none_covers : rules.filter (·.covers holds request) = [] :=
      List.filter_eq_nil_iff.mpr (fun rule member covers => some_covers (List.any_eq_true.mpr ⟨rule,member,covers⟩))
    rw [if_neg some_covers,none_covers]
    simp

end Language

section Reading

def systemPaths : List Filter :=
  [.subpath "/usr/lib".toList,.subpath "/System".toList,.subpath "/dev".toList,.subpath "/private/var/db".toList,
   .literal "/etc/resolv.conf".toList,.literal "/private/etc/resolv.conf".toList]

def essentialRules : List Rule :=
  [⟨true,some .sysctlRead,[]⟩,⟨true,some .machLookup,[]⟩,⟨true,some .signal,[.targetSelf]⟩,⟨true,some .processFork,[]⟩,
   ⟨true,some .systemSocket,[]⟩,⟨true,some .fileRead,systemPaths⟩]

def pathRules (path : List UInt8) : List Rule :=
  [⟨true,some .fileRead,[.subpath (lossy path)]⟩,⟨true,some .fileWrite,[.subpath (lossy path)]⟩]

def NetRule.remote (rule : NetRule) : Filter := .remoteTcp (rule.host.toList ++ portText rule.port)

def hostRules (rule : NetRule) : List Rule :=
  if rule.allow then [⟨true,some .networkOutbound,[rule.remote]⟩] else []

def MacOSSandbox.denyRules (sandbox : MacOSSandbox) : List Rule :=
  (if sandbox.hasAllowRules then [] else [⟨false,some .networkOutbound,[]⟩]) ++
    (if sandbox.config.allowSubprocess then [] else [⟨false,some .processExec,[]⟩])

def MacOSSandbox.allowRules (sandbox : MacOSSandbox) : List Rule :=
  essentialRules ++ sandbox.filesystemRules.flatMap pathRules ++ sandbox.networkRules.flatMap hostRules ++
    (if sandbox.config.allowSubprocess then [⟨true,some .processExec,[]⟩] else [])

/-- The rules the configuration stands for. -/
def MacOSSandbox.rules (sandbox : MacOSSandbox) : List Rule :=
  if sandbox.config.mode = .power then [⟨true,none,[]⟩]
  else if sandbox.syscallPolicy = some .allowAll then ⟨true,none,[]⟩ :: sandbox.denyRules
  else ⟨false,none,[]⟩ :: sandbox.allowRules

/-- A text whose data read as these rules, wherever it stands in a profile. -/
def Tells (text : List Char) (rules : List Rule) : Prop :=
  ∃ data, Spells text data ∧ data.mapM readRule = some rules

theorem Tells.nil : Tells [] [] := ⟨[],.nil,rfl⟩

theorem Tells.append {first second : List Char} {one other : List Rule} (left : Tells first one)
    (right : Tells second other) : Tells (first ++ second) (one ++ other) := by
  obtain ⟨data,spells,reads⟩ := left
  obtain ⟨more,spells',reads'⟩ := right
  refine ⟨data ++ more,spells.append spells',?_⟩
  rw [List.mapM_append,reads,reads']
  rfl

theorem Tells.flatten {α : Type*} {text : α → List Char} {rules : α → List Rule} (xs : List α)
    (each : ∀ x ∈ xs, Tells (text x) (rules x)) : Tells (xs.flatMap text) (xs.flatMap rules) := by
  induction xs with
  | nil => exact .nil
  | cons x rest ih =>
    rw [List.flatMap_cons,List.flatMap_cons]
    exact (each x List.mem_cons_self).append (ih fun y member => each y (List.mem_cons_of_mem x member))

/-- A text that spells one datum. -/
theorem tells_one (text : List Char) (datum : Datum) (rule : Rule) (spells : Spells text [datum])
    (reads : readRule datum = some rule) : Tells text [rule] := by
  refine ⟨[datum],spells,?_⟩
  rw [List.mapM_cons,reads]
  rfl

theorem spells_paths : Spells essentialPaths
    [.list [.word "allow".toList,.word "file-read*".toList,.list [.word "subpath".toList,.text "/usr/lib".toList],
      .list [.word "subpath".toList,.text "/System".toList],.list [.word "subpath".toList,.text "/dev".toList],
      .list [.word "subpath".toList,.text "/private/var/db".toList],
      .list [.word "literal".toList,.text "/etc/resolv.conf".toList],
      .list [.word "literal".toList,.text "/private/etc/resolv.conf".toList]]] := by
  have libraries : Spells "    (subpath \"/usr/lib\")\n".toList [.list [.word "subpath".toList,.text "/usr/lib".toList]] :=
    fun _ _ => rfl
  have frameworks : Spells "    (subpath \"/System\")\n".toList
      [.list [.word "subpath".toList,.text "/System".toList]] := fun _ _ => rfl
  have devices : Spells "    (subpath \"/dev\")\n".toList [.list [.word "subpath".toList,.text "/dev".toList]] :=
    fun _ _ => rfl
  have databases : Spells "    (subpath \"/private/var/db\")\n".toList
      [.list [.word "subpath".toList,.text "/private/var/db".toList]] := fun _ _ => rfl
  have resolver : Spells "    (literal \"/etc/resolv.conf\")\n".toList
      [.list [.word "literal".toList,.text "/etc/resolv.conf".toList]] := fun _ _ => rfl
  exact Spells.block [.word "allow".toList,.word "file-read*".toList]
    [.list [.word "literal".toList,.text "/private/etc/resolv.conf".toList]] (fun _ _ => rfl)
    ((((libraries.append frameworks).append devices).append databases).append resolver) (fun _ _ _ => rfl)

theorem tells_essentials : Tells essentialAllows essentialRules := by
  have sysctl : Tells "(allow sysctl-read)\n".toList [⟨true,some .sysctlRead,[]⟩] :=
    tells_one _ (.list [.word "allow".toList,.word "sysctl-read".toList]) _ (fun _ _ => rfl) rfl
  have mach : Tells "(allow mach-lookup)\n".toList [⟨true,some .machLookup,[]⟩] :=
    tells_one _ (.list [.word "allow".toList,.word "mach-lookup".toList]) _ (fun _ _ => rfl) rfl
  have signal : Tells "(allow signal (target self))\n".toList [⟨true,some .signal,[.targetSelf]⟩] :=
    tells_one _ (.list [.word "allow".toList,.word "signal".toList,
      .list [.word "target".toList,.word "self".toList]]) _ (fun _ _ => rfl) rfl
  have fork : Tells "(allow process-fork)\n".toList [⟨true,some .processFork,[]⟩] :=
    tells_one _ (.list [.word "allow".toList,.word "process-fork".toList]) _ (fun _ _ => rfl) rfl
  have socket : Tells "(allow system-socket)\n".toList [⟨true,some .systemSocket,[]⟩] :=
    tells_one _ (.list [.word "allow".toList,.word "system-socket".toList]) _ (fun _ _ => rfl) rfl
  have system : Tells essentialPaths [⟨true,some .fileRead,systemPaths⟩] := tells_one _ _ _ spells_paths rfl
  exact ((((sysctl.append mach).append signal).append fork).append socket).append system

theorem tells_path (path : List UInt8) : Tells (filesystemRule path) (pathRules path) := by
  have escaped : escapeSbplString (lossy path) = (lossy path).flatMap spelled := replaceAll_escapes _
  have readable : Tells ("(allow file-read* (subpath \"".toList ++ (lossy path).flatMap spelled ++ "\"))\n".toList)
      [⟨true,some .fileRead,[.subpath (lossy path)]⟩] :=
    tells_one _ (.list [.word "allow".toList,.word "file-read*".toList,
      .list [.word "subpath".toList,.text (lossy path)]]) _
      (spells_quoted (fun letters => .list [.word "allow".toList,.word "file-read*".toList,
        .list [.word "subpath".toList,.text letters]]) _ (fun _ _ => ⟨_,_,rfl,fun _ => rfl⟩)) rfl
  have writable : Tells ("(allow file-write* (subpath \"".toList ++ (lossy path).flatMap spelled ++ "\"))\n".toList)
      [⟨true,some .fileWrite,[.subpath (lossy path)]⟩] :=
    tells_one _ (.list [.word "allow".toList,.word "file-write*".toList,
      .list [.word "subpath".toList,.text (lossy path)]]) _
      (spells_quoted (fun letters => .list [.word "allow".toList,.word "file-write*".toList,
        .list [.word "subpath".toList,.text letters]]) _ (fun _ _ => ⟨_,_,rfl,fun _ => rfl⟩)) rfl
  unfold filesystemRule
  rw [escaped]
  exact readable.append writable

theorem portText_plain (port : Option UInt16) (c : Char) (member : c ∈ portText port) : ¬(c = '"' ∨ c = '\\') := by
  cases port with
  | none =>
    rcases List.mem_cons.mp member with rfl | star
    · decide
    · rw [List.mem_singleton.mp star]
      decide
  | some port =>
    rcases List.mem_cons.mp member with rfl | digit
    · decide
    · rw [Nat.repr,String.toList_ofList] at digit
      have isDigit := Nat.isDigit_of_mem_toDigits (b := 10) (by decide) (by decide) digit
      rintro (rfl | rfl) <;> exact absurd isDigit (by decide)

/-- A port is digits or a star, and escaping leaves it as it is. -/
theorem portText_spelled (port : Option UInt16) : (portText port).flatMap spelled = portText port := by
  have each : ∀ text : List Char, (∀ c ∈ text, ¬(c = '"' ∨ c = '\\')) → text.flatMap spelled = text := by
    intro text plain
    induction text with
    | nil => rfl
    | cons c rest ih =>
      rw [List.flatMap_cons,ih (fun d member => plain d (List.mem_cons_of_mem c member)),spelled,
        if_neg (plain c List.mem_cons_self),List.singleton_append]
  exact each _ (portText_plain port)

theorem tells_host (rule : NetRule) : Tells (if rule.allow then networkRule rule else []) (hostRules rule) := by
  unfold hostRules
  by_cases allowed : rule.allow = true
  · rw [if_pos allowed,if_pos allowed]
    have address : escapeSbplString rule.host.toList ++ portText rule.port =
        (rule.host.toList ++ portText rule.port).flatMap spelled := by
      rw [List.flatMap_append,portText_spelled]
      exact congrArg (· ++ portText rule.port) (replaceAll_escapes _)
    have told : Tells ("(allow network-outbound (remote tcp \"".toList ++
        (rule.host.toList ++ portText rule.port).flatMap spelled ++ "\"))\n".toList)
        [⟨true,some .networkOutbound,[rule.remote]⟩] :=
      tells_one _ (.list [.word "allow".toList,.word "network-outbound".toList,
        .list [.word "remote".toList,.word "tcp".toList,.text (rule.host.toList ++ portText rule.port)]]) _
        (spells_quoted (fun letters => .list [.word "allow".toList,.word "network-outbound".toList,
          .list [.word "remote".toList,.word "tcp".toList,.text letters]]) _ (fun _ _ => ⟨_,_,rfl,fun _ => rfl⟩)) rfl
    unfold networkRule
    rw [← List.append_assoc,List.append_assoc _ _ (portText rule.port),address]
    exact told
  · rw [if_neg allowed,if_neg allowed]
    exact .nil

theorem tells_network (sandbox : MacOSSandbox) :
    Tells sandbox.appendNetworkRules (sandbox.networkRules.flatMap hostRules) := by
  unfold MacOSSandbox.appendNetworkRules
  by_cases some_allowed : sandbox.hasAllowRules = true
  · rw [if_pos some_allowed]
    exact .flatten _ (fun rule _ => tells_host rule)
  · have silent : sandbox.networkRules.flatMap hostRules = [] := by
      refine List.flatMap_eq_nil_iff.mpr (fun rule member => if_neg (fun allowed => some_allowed ?_))
      exact List.any_eq_true.mpr ⟨rule,member,allowed⟩
    rw [if_neg some_allowed,silent]
    exact .nil

theorem tells_denials (sandbox : MacOSSandbox) (safe : sandbox.config.mode = .safe) :
    Tells sandbox.appendDenyRules sandbox.denyRules := by
  unfold MacOSSandbox.appendDenyRules MacOSSandbox.denyRules
  refine .append ?_ ?_
  · cases sandbox.hasAllowRules with
    | true => exact .nil
    | false =>
      rw [safe]
      exact tells_one _ (.list [.word "deny".toList,.word "network-outbound".toList]) _ (fun _ _ => rfl) rfl
  · cases sandbox.config.allowSubprocess with
    | true => exact .nil
    | false => exact tells_one _ (.list [.word "deny".toList,.word "process-exec".toList]) _ (fun _ _ => rfl) rfl

theorem tells_subprocess (sandbox : MacOSSandbox) : Tells sandbox.appendSubprocessRules
    (if sandbox.config.allowSubprocess then [⟨true,some .processExec,[]⟩] else []) := by
  unfold MacOSSandbox.appendSubprocessRules
  cases sandbox.config.allowSubprocess with
  | true => exact tells_one _ (.list [.word "allow".toList,.word "process-exec".toList]) _ (fun _ _ => rfl) rfl
  | false => exact .nil

theorem readProfile_version (text : List Char) (rules : List Rule) (tells : Tells text rules) :
    readProfile ("(version 1)\n".toList ++ text) = some rules := by
  obtain ⟨data,spells,reads⟩ := tells
  have version : Spells "(version 1)\n".toList [.list [.word "version".toList,.word ['1']]] := fun _ _ => rfl
  rw [readProfile,(version.append spells).read]
  exact reads

/-- The text generated reads as the rules of the configuration, whatever its paths and hosts hold. -/
theorem readProfile_generated (sandbox : MacOSSandbox) : readProfile sandbox.generateProfile = some sandbox.rules := by
  have allow : Tells "(allow default)\n".toList [⟨true,none,[]⟩] :=
    tells_one _ (.list [.word "allow".toList,.word "default".toList]) _ (fun _ _ => rfl) rfl
  have deny : Tells "(deny default)\n".toList [⟨false,none,[]⟩] :=
    tells_one _ (.list [.word "deny".toList,.word "default".toList]) _ (fun _ _ => rfl) rfl
  apply readProfile_version
  unfold MacOSSandbox.rules
  by_cases power : sandbox.config.mode = .power
  · rw [if_pos power,if_pos power]
    exact allow
  · have safe : sandbox.config.mode = .safe := by
      cases mode : sandbox.config.mode with
      | safe => rfl
      | power => exact absurd mode power
    rw [if_neg power,if_neg power]
    by_cases open_base : sandbox.syscallPolicy = some .allowAll
    · rw [if_pos open_base,if_pos open_base]
      exact allow.append (tells_denials sandbox safe)
    · rw [if_neg open_base,if_neg open_base]
      have whole := (((deny.append tells_essentials).append (.flatten sandbox.filesystemRules (fun path _ => tells_path path))).append
        (tells_network sandbox)).append (tells_subprocess sandbox)
      exact whole

end Reading

section Apply

inductive SandboxError where
  | creationFailed (message : String)
  | restrictFailed (message : String)
  deriving DecidableEq, Repr

inductive Resource where
  | addressSpace
  | openFiles
  deriving DecidableEq, Repr

def Resource.name : Resource → String
  | .addressSpace => "RLIMIT_AS"
  | .openFiles => "RLIMIT_NOFILE"

inductive Call where
  | sandboxInit (profile : List Char)
  | setrlimit (resource : Resource) (limit : UInt64)
  deriving DecidableEq, Repr

/-- What the system answers; a failed `sandbox_init` has a message or none. -/
structure System where
  sandboxInit : List Char → Except (Option String) Unit
  setrlimit : Resource → UInt64 → Except String Unit

/-- The calls made, in their order, and the result. -/
abbrev Made (α : Type) : Type := List Call × Except SandboxError α

def setLimit (system : System) (resource : Resource) : Option UInt64 → Made Unit
  | none => ([],.ok ())
  | some limit => ([.setrlimit resource limit],(system.setrlimit resource limit).mapError fun e =>
      .restrictFailed ("setrlimit(" ++ resource.name ++ ", " ++ toString limit.toNat ++ ") failed: " ++ e))

def Made.next {α β : Type} (made : Made α) (more : Made β) : Made β :=
  match made.2 with
  | .ok _ => (made.1 ++ more.1,more.2)
  | .error e => (made.1,.error e)

/-- The processes and the share of the processor are not limited, only warned about. -/
def applyResourceLimits (system : System) (limits : ResourceLimits) : Made Unit :=
  (setLimit system .addressSpace limits.maxMemoryBytes).next
    (setLimit system .openFiles (limits.maxFileDescriptors.map (·.toUInt64)))

def applySandboxProfile (system : System) (profile : List Char) : Made Unit :=
  if '\x00' ∈ profile then
    ([],.error (.creationFailed ("profile contains null byte: nul byte found in provided data at position: " ++
      toString (byteSize (profile.takeWhile (· ≠ '\x00'))))))
  else
    ([.sandboxInit profile],(system.sandboxInit profile).mapError fun message =>
      .restrictFailed ("sandbox_init failed: " ++ message.getD "unknown sandbox_init error"))

def MacOSSandbox.limit (sandbox : MacOSSandbox) (system : System) : Made Unit :=
  match sandbox.resourceLimits with
  | some limits => applyResourceLimits system limits
  | none => ([],.ok ())

/-- The handle's text. -/
def MacOSSandbox.apply (sandbox : MacOSSandbox) (system : System) : Made String :=
  if sandbox.config.mode = .power then (sandbox.limit system).next ([],.ok "power-mode")
  else (applySandboxProfile system sandbox.generateProfile).next
    ((sandbox.limit system).next ([],.ok "safe-mode-sandboxed"))

variable {σ : Type*}

/-- What a sandbox in safe mode is to permit. The rules are those of `restrict_filesystem` and
`restrict_network`: `create` reads neither the allowlist nor the network rules of its config. -/
def MacOSSandbox.Grants (sandbox : MacOSSandbox) (holds : Filter → σ → Bool) (request : Request σ) : Prop :=
  if sandbox.syscallPolicy = some .allowAll then
    match request.operation with
    | .networkOutbound => ∃ rule ∈ sandbox.networkRules, rule.allow = true
    | .processExec => sandbox.config.allowSubprocess = true
    | _ => True
  else
    match request.operation with
    | .sysctlRead | .machLookup | .processFork | .systemSocket => True
    | .signal => holds .targetSelf request.subject = true
    | .fileRead => (∃ filter ∈ systemPaths, holds filter request.subject = true) ∨
        ∃ path ∈ sandbox.filesystemRules, holds (.subpath (lossy path)) request.subject = true
    | .fileWrite => ∃ path ∈ sandbox.filesystemRules, holds (.subpath (lossy path)) request.subject = true
    | .networkOutbound => ∃ rule ∈ sandbox.networkRules, rule.allow = true ∧ holds rule.remote request.subject = true
    | .processExec => sandbox.config.allowSubprocess = true
    | .other _ => False

theorem denyRules_uniform (sandbox : MacOSSandbox) (rule : Rule) (member : rule ∈ sandbox.denyRules) : rule.allow = false := by
  unfold MacOSSandbox.denyRules at member
  rcases List.mem_append.mp member with network | exec
  · split_ifs at network
    · cases network
    · rw [List.mem_singleton.mp network]
  · split_ifs at exec
    · cases exec
    · rw [List.mem_singleton.mp exec]

theorem allowRules_uniform (sandbox : MacOSSandbox) (rule : Rule) (member : rule ∈ sandbox.allowRules) : rule.allow = true := by
  have essentials : ∀ rule ∈ essentialRules, rule.allow = true := by simp [essentialRules]
  have paths : ∀ path, ∀ rule ∈ pathRules path, rule.allow = true := by simp [pathRules]
  rcases List.mem_append.mp member with configured | exec
  · rcases List.mem_append.mp configured with files | hosts
    · rcases List.mem_append.mp files with essential | file
      · exact essentials rule essential
      · obtain ⟨path,-,own⟩ := List.mem_flatMap.mp file
        exact paths path rule own
    · obtain ⟨net,-,own⟩ := List.mem_flatMap.mp hosts
      unfold hostRules at own
      split_ifs at own
      · rw [List.mem_singleton.mp own]
      · cases own
  · split_ifs at exec
    · rw [List.mem_singleton.mp exec]
    · cases exec

theorem covers_of (holds : Filter → σ → Bool) (action : Bool) (operation : Operation) (filters : List Filter)
    (request : Request σ) : Rule.covers holds ⟨action,some operation,filters⟩ request = true ↔
      operation = request.operation ∧ (filters = [] ∨ ∃ filter ∈ filters, holds filter request.subject = true) := by
  simp [Rule.covers]

theorem paths_cover (holds : Filter → σ → Bool) (paths : List (List UInt8)) (request : Request σ) :
    (∃ rule ∈ paths.flatMap pathRules, rule.covers holds request = true) ↔
      (request.operation = .fileRead ∨ request.operation = .fileWrite) ∧
        ∃ path ∈ paths, holds (.subpath (lossy path)) request.subject = true := by
  constructor
  · rintro ⟨rule,member,covers⟩
    obtain ⟨path,listed,own⟩ := List.mem_flatMap.mp member
    rcases List.mem_cons.mp own with rfl | own
    · obtain ⟨same,about⟩ := (covers_of holds _ _ _ request).mp covers
      exact ⟨.inl same.symm,path,listed,by simpa using about⟩
    · obtain rfl := List.mem_singleton.mp own
      obtain ⟨same,about⟩ := (covers_of holds _ _ _ request).mp covers
      exact ⟨.inr same.symm,path,listed,by simpa using about⟩
  · rintro ⟨operation,path,listed,about⟩
    have filtered : [Filter.subpath (lossy path)] = [] ∨
        ∃ filter ∈ [Filter.subpath (lossy path)], holds filter request.subject = true :=
      .inr ⟨_,List.mem_singleton_self _,about⟩
    rcases operation with reading | writing
    · exact ⟨_,List.mem_flatMap.mpr ⟨path,listed,List.mem_cons_self⟩,(covers_of ..).mpr ⟨reading.symm,filtered⟩⟩
    · exact ⟨_,List.mem_flatMap.mpr ⟨path,listed,List.mem_cons_of_mem _ (List.mem_singleton_self _)⟩,
        (covers_of ..).mpr ⟨writing.symm,filtered⟩⟩

theorem hosts_cover (holds : Filter → σ → Bool) (rules : List NetRule) (request : Request σ) :
    (∃ rule ∈ rules.flatMap hostRules, rule.covers holds request = true) ↔
      request.operation = .networkOutbound ∧
        ∃ rule ∈ rules, rule.allow = true ∧ holds rule.remote request.subject = true := by
  constructor
  · rintro ⟨rule,member,covers⟩
    obtain ⟨net,listed,own⟩ := List.mem_flatMap.mp member
    unfold hostRules at own
    split_ifs at own with allowed
    · obtain rfl := List.mem_singleton.mp own
      obtain ⟨same,about⟩ := (covers_of holds _ _ _ request).mp covers
      exact ⟨same.symm,net,listed,allowed,by simpa using about⟩
    · cases own
  · rintro ⟨operation,net,listed,allowed,about⟩
    refine ⟨⟨true,some .networkOutbound,[net.remote]⟩,List.mem_flatMap.mpr ⟨net,listed,?_⟩,
      (covers_of ..).mpr ⟨operation.symm,.inr ⟨_,List.mem_singleton_self _,about⟩⟩⟩
    rw [hostRules,if_pos allowed]
    exact List.mem_singleton_self _

theorem essentials_cover (holds : Filter → σ → Bool) (request : Request σ) :
    (∃ rule ∈ essentialRules, rule.covers holds request = true) ↔
      match request.operation with
      | .sysctlRead | .machLookup | .processFork | .systemSocket => True
      | .signal => holds .targetSelf request.subject = true
      | .fileRead => ∃ filter ∈ systemPaths, holds filter request.subject = true
      | _ => False := by
  have nonempty : systemPaths ≠ [] := List.cons_ne_nil _ _
  simp only [essentialRules,List.mem_cons,List.not_mem_nil,or_false,exists_eq_or_imp,exists_eq_left,covers_of]
  cases operation : request.operation <;> simp [nonempty]

/-- The rules of a configuration are about the requests it grants, and about no other. -/
theorem covered_iff (sandbox : MacOSSandbox) (holds : Filter → σ → Bool) (request : Request σ)
    (closed : sandbox.syscallPolicy ≠ some .allowAll) :
    (∃ rule ∈ sandbox.allowRules, rule.covers holds request = true) ↔ sandbox.Grants holds request := by
  have exec : (∃ rule ∈ (if sandbox.config.allowSubprocess then [⟨true,some .processExec,[]⟩] else [] : List Rule),
      rule.covers holds request = true) ↔ request.operation = .processExec ∧ sandbox.config.allowSubprocess = true := by
    cases sandbox.config.allowSubprocess with
    | true => simpa [covers_of] using eq_comm
    | false => simp
  rw [MacOSSandbox.Grants,if_neg closed]
  simp only [MacOSSandbox.allowRules,List.mem_append,or_and_right,exists_or,paths_cover,hosts_cover,essentials_cover,exec]
  cases operation : request.operation <;> simp

/-- The rules for an open configuration are about the requests it refuses, and about no other. -/
theorem refused_iff (sandbox : MacOSSandbox) (holds : Filter → σ → Bool) (request : Request σ)
    (opened : sandbox.syscallPolicy = some .allowAll) :
    (∃ rule ∈ sandbox.denyRules, rule.covers holds request = true) ↔ ¬sandbox.Grants holds request := by
  have network : (∃ rule ∈ (if sandbox.hasAllowRules then [] else [⟨false,some .networkOutbound,[]⟩] : List Rule),
      rule.covers holds request = true) ↔
        request.operation = .networkOutbound ∧ ¬∃ rule ∈ sandbox.networkRules, rule.allow = true := by
    have allowed : (∃ rule ∈ sandbox.networkRules, rule.allow = true) ↔ sandbox.hasAllowRules = true :=
      List.any_eq_true.symm
    rw [allowed]
    cases sandbox.hasAllowRules with
    | true => simp
    | false => simpa [covers_of] using eq_comm
  have exec : (∃ rule ∈ (if sandbox.config.allowSubprocess then [] else [⟨false,some .processExec,[]⟩] : List Rule),
      rule.covers holds request = true) ↔ request.operation = .processExec ∧ ¬sandbox.config.allowSubprocess = true := by
    cases sandbox.config.allowSubprocess with
    | true => simp
    | false => simpa [covers_of] using eq_comm
  rw [MacOSSandbox.Grants,if_pos opened]
  simp only [MacOSSandbox.denyRules,List.mem_append,or_and_right,exists_or,network,exec]
  cases operation : request.operation <;> simp

/-- What the rules of a configuration in safe mode permit is what it grants. -/
theorem permits_iff (sandbox : MacOSSandbox) (holds : Filter → σ → Bool) (request : Request σ)
    (safe : sandbox.config.mode ≠ .power) : permits holds sandbox.rules request = true ↔ sandbox.Grants holds request := by
  rw [MacOSSandbox.rules,if_neg safe]
  by_cases opened : sandbox.syscallPolicy = some .allowAll
  · have decided := permits_uniform holds false sandbox.denyRules request (denyRules_uniform sandbox)
    rw [if_pos opened,← not_iff_not,← refused_iff sandbox holds request opened,← List.any_eq_true]
    change ¬permits holds (⟨!false,none,[]⟩ :: sandbox.denyRules) request = true ↔ _
    rw [decided]
    cases sandbox.denyRules.any (·.covers holds request) <;> simp
  · have decided := permits_uniform holds true sandbox.allowRules request (allowRules_uniform sandbox)
    rw [if_neg opened,← covered_iff sandbox holds request opened,← List.any_eq_true]
    change permits holds (⟨!true,none,[]⟩ :: sandbox.allowRules) request = true ↔ _
    rw [decided]
    cases sandbox.allowRules.any (·.covers holds request) <;> simp

theorem next_calls {α β : Type} (made : Made α) (more : Made β) (call : Call) (member : call ∈ (made.next more).1) :
    call ∈ made.1 ∨ call ∈ more.1 := by
  unfold Made.next at member
  cases first : made.2 with
  | error e =>
    rw [first] at member
    exact .inl member
  | ok done =>
    rw [first] at member
    exact List.mem_append.mp member

theorem next_ok {α β : Type} (made : Made α) (more : Made β) (result : β) (fine : (made.next more).2 = .ok result) :
    (∃ done, made.2 = .ok done) ∧ (made.next more).1 = made.1 ++ more.1 := by
  unfold Made.next at fine ⊢
  cases first : made.2 with
  | error e =>
    rw [first] at fine
    cases fine
  | ok done => exact ⟨⟨done,rfl⟩,rfl⟩

theorem limit_calls (system : System) (sandbox : MacOSSandbox) (profile : List Char) :
    .sandboxInit profile ∉ (sandbox.limit system).1 := by
  have one : ∀ resource limit, Call.sandboxInit profile ∉ (setLimit system resource limit).1 := by
    intro resource limit
    cases limit <;> simp [setLimit]
  unfold MacOSSandbox.limit
  cases sandbox.resourceLimits with
  | none => exact List.not_mem_nil
  | some limits => exact fun member => (next_calls _ _ _ member).elim (one _ _) (one _ _)

theorem profile_calls (system : System) (text profile : List Char)
    (member : .sandboxInit profile ∈ (applySandboxProfile system text).1) : profile = text := by
  unfold applySandboxProfile at member
  split_ifs at member
  · cases member
  · exact Call.sandboxInit.inj (List.mem_singleton.mp member)

/-- Whatever profile `apply` hands to the system permits exactly what the configuration grants, and in safe mode
it does not succeed before the system has taken one. -/
theorem applied_permits (system : System) (sandbox : MacOSSandbox) :
    (∀ profile, .sandboxInit profile ∈ (sandbox.apply system).1 → ∃ rules, readProfile profile = some rules ∧
      ∀ (holds : Filter → σ → Bool) (request : Request σ),
        permits holds rules request = true ↔ sandbox.Grants holds request) ∧
    ∀ handle, (sandbox.apply system).2 = .ok handle → sandbox.config.mode = .safe →
      ∃ profile, .sandboxInit profile ∈ (sandbox.apply system).1 ∧ system.sandboxInit profile = .ok () := by
  constructor
  · intro profile member
    unfold MacOSSandbox.apply at member
    split_ifs at member with power
    · rcases next_calls _ _ _ member with limit | none_left
      · exact absurd limit (limit_calls system sandbox profile)
      · cases none_left
    · rcases next_calls _ _ _ member with init | later
      · obtain rfl := profile_calls system _ profile init
        exact ⟨sandbox.rules,readProfile_generated sandbox,fun holds request => permits_iff sandbox holds request power⟩
      · rcases next_calls _ _ _ later with limit | none_left
        · exact absurd limit (limit_calls system sandbox profile)
        · cases none_left
  · intro handle fine safe
    have power : ¬sandbox.config.mode = .power := by
      rw [safe]
      decide
    unfold MacOSSandbox.apply at fine ⊢
    rw [if_neg power] at fine ⊢
    obtain ⟨⟨done,taken⟩,calls⟩ := next_ok _ _ _ fine
    unfold applySandboxProfile at taken calls
    refine ⟨sandbox.generateProfile,?_,?_⟩
    · rw [applySandboxProfile]
      split_ifs at taken calls ⊢ with nul
      rw [calls]
      exact List.mem_cons_self
    · split_ifs at taken with nul
      cases answered : system.sandboxInit sandbox.generateProfile with
      | ok => rfl
      | error message =>
        rw [answered] at taken
        cases taken

end Apply

end ClawKernel.Pal.SandboxProfile
